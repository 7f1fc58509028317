import Mathlib
import Quadrotor.Proofs.Scalar.Order

/-!
# Rounding

The result of an operation on finite scalars is a scalar next to the exact result: no scalar lies
strictly between the two. This is all that most of the library needs to know about rounding. A
result is never a NaN then, it is exact where the exact result is a scalar, and it is on the same
side of every scalar as the exact result is.

Where the size of the error matters, the result is also known as the nearest multiple of a power of
two that leaves the exact result 24 digits, and as the even one of two that are as near.
-/

namespace Quadrotor.Scalar

open Float.Model (Format UnpackedFloat totalExponent)
open Float.Model.UnpackedFloat

/-- `u` is a number, and no form lies strictly between `q` and `u`. -/
def Faithful (q : ℚ) (u : UnpackedFloat) : Prop :=
  u ≠ .notANumber ∧ ∀ g, IsForm g → g ≠ .notANumber →
    (formValue g ≤ q → formValue g ≤ formValue u) ∧ (q ≤ formValue g → formValue u ≤ formValue g)

/-! ## The digits behind the significand -/

/-- What the round digit and the sticky digit say of the part `r` of a number that is cut off. -/
def Remainder : Bool → Bool → ℚ → Prop
  | false, false, r => r = 0
  | false, true, r => 0 < r ∧ r < 1 / 2
  | true, false, r => r = 1 / 2
  | true, true, r => 1 / 2 < r ∧ r < 1

/-- The extended significand stands for the number `x`. -/
def Represents (em : ExtendedMantissa) (x : ℚ) : Prop :=
  Remainder em.roundBit em.stickyBit (x - em.mantissa)

theorem represents_exact (m : Nat) : Represents (.ofMantissaAndAccuracy m .exact) m :=
  sub_self (m : ℚ)

theorem Remainder.bounds {b s : Bool} {r : ℚ} (h : Remainder b s r) : 0 ≤ r ∧ r < 1 := by
  cases b <;> cases s
  · exact ⟨h.ge, h.trans_lt one_pos⟩
  · exact ⟨h.1.le, h.2.trans (by norm_num)⟩
  · exact ⟨by rw [h]; norm_num, by rw [h]; norm_num⟩
  · exact ⟨by linarith [h.1], h.2⟩

/-- One digit further to the right, a digit `d` of the significand becomes the round digit. -/
theorem Remainder.shift {b s : Bool} {r : ℚ} (h : Remainder b s r) (d : Nat) (hd : d < 2) :
    Remainder (d != 0) (b || s) ((d + r) / 2) := by
  obtain ⟨h0, h1⟩ := h.bounds
  have hr : (b || s) = false → r = 0 := by
    intro hbs
    rw [Bool.or_eq_false_iff] at hbs
    rw [hbs.1, hbs.2] at h
    exact h
  have hr' : (b || s) = true → 0 < r := by
    intro hbs
    cases b <;> cases s
    · exact absurd hbs (by decide)
    · exact h.1
    · rw [show r = 1 / 2 from h]; norm_num
    · linarith [h.1]
  rcases (show d = 0 ∨ d = 1 by omega) with rfl | rfl <;> cases hbs : (b || s)
  · change ((0 : ℕ) + r) / 2 = 0
    rw [hr hbs]; norm_num
  · have hpos := hr' hbs
    change 0 < ((0 : ℕ) + r) / 2 ∧ ((0 : ℕ) + r) / 2 < 1 / 2
    push_cast
    constructor <;> linarith
  · change ((1 : ℕ) + r) / 2 = 1 / 2
    rw [hr hbs]; norm_num
  · have hpos := hr' hbs
    change 1 / 2 < ((1 : ℕ) + r) / 2 ∧ ((1 : ℕ) + r) / 2 < 1
    push_cast
    constructor <;> linarith

theorem Represents.shiftRightOne {em : ExtendedMantissa} {x : ℚ} (h : Represents em x) :
    Represents em.shiftRightOne (x / 2) := by
  have hs := Remainder.shift h (em.mantissa % 2) (Nat.mod_lt _ two_pos)
  have hm : ((em.mantissa % 2 : ℕ) : ℚ) + 2 * ((em.mantissa / 2 : ℕ) : ℚ) = em.mantissa := by
    exact_mod_cast Nat.mod_add_div em.mantissa 2
  have heq : ((em.mantissa % 2 : ℕ) + (x - em.mantissa)) / 2
      = x / 2 - ((em.mantissa / 2 : ℕ) : ℚ) := by linarith
  rw [heq] at hs
  exact hs

theorem Represents.shiftRight {em : ExtendedMantissa} {x : ℚ} (h : Represents em x) (n : Nat) :
    Represents (em >>> n) (x / 2 ^ n) := by
  change Represents (n.repeat ExtendedMantissa.shiftRightOne em) _
  induction n with
  | zero => simpa [Nat.repeat] using h
  | succ n ih =>
    rw [pow_succ, ← div_div]
    exact ih.shiftRightOne

/-- Rounding gives the nearest whole number, and the even one of two that are as near. -/
theorem Represents.nearest {em : ExtendedMantissa} {x : ℚ} (h : Represents em x) :
    |x - em.roundedMantissa| ≤ 1 / 2 ∧
      (|x - em.roundedMantissa| = 1 / 2 → Even em.roundedMantissa) := by
  rcases em with ⟨m, b, s⟩
  cases b <;> cases s
  · have hr : x - m = 0 := h
    change |x - m| ≤ 1 / 2 ∧ (|x - m| = 1 / 2 → Even m)
    rw [hr]
    norm_num
  · have hr : 0 < x - m ∧ x - m < 1 / 2 := h
    change |x - m| ≤ 1 / 2 ∧ (|x - m| = 1 / 2 → Even m)
    rw [abs_of_pos hr.1]
    exact ⟨hr.2.le, fun heq => absurd heq hr.2.ne⟩
  · have hr : x - m = 1 / 2 := h
    change |x - (m + m % 2 : ℕ)| ≤ 1 / 2 ∧ (|x - (m + m % 2 : ℕ)| = 1 / 2 → Even (m + m % 2))
    have heven : Even (m + m % 2) := by
      rw [Nat.even_iff]
      omega
    refine ⟨?_, fun _ => heven⟩
    rw [abs_le]
    rcases Nat.mod_two_eq_zero_or_one m with hm | hm <;> rw [hm] <;> push_cast <;>
      constructor <;> linarith
  · have hr : 1 / 2 < x - m ∧ x - m < 1 := h
    change |x - (m + 1 : ℕ)| ≤ 1 / 2 ∧ (|x - (m + 1 : ℕ)| = 1 / 2 → Even (m + 1))
    push_cast
    rw [abs_of_neg (by linarith)]
    exact ⟨by linarith, fun heq => by linarith⟩

/-! ## The nearest multiple of a power of two -/

/-- `r * 2 ^ t` is the multiple of `2 ^ t` nearest to `q`, and the even one of two that are as near,
where `2 ^ t` leaves `q` 24 digits, or is the least power of two that there is. -/
structure Nearest (q : ℚ) (r t : ℤ) : Prop where
  least : -149 ≤ t
  full : 2 ^ 23 * 2 ^ t ≤ |q| ∨ t = -149
  fits : |q| ≤ 2 ^ 24 * 2 ^ t
  near : |q - r * 2 ^ t| ≤ 2 ^ t / 2
  even : |q - r * 2 ^ t| = 2 ^ t / 2 → Even r

theorem Nearest.neg {q : ℚ} {r t : ℤ} (h : Nearest q r t) : Nearest (-q) (-r) t := by
  have habs : |-q - (-r : ℤ) * 2 ^ t| = |q - r * 2 ^ t| := by
    rw [← abs_neg]
    push_cast
    ring_nf
  refine ⟨h.least, by rw [abs_neg]; exact h.full, by rw [abs_neg]; exact h.fits, ?_, fun heq => ?_⟩
  · rw [habs]
    exact h.near
  · rw [habs] at heq
    exact (h.even heq).neg

/-- Rounding does not pass a multiple of the power of two. -/
theorem Nearest.le_of_le {q : ℚ} {r t : ℤ} (h : Nearest q r t) {n : ℤ} (hn : n * 2 ^ t ≤ q) :
    n ≤ r := by
  have hp : (0 : ℚ) < 2 ^ t := by positivity
  by_contra hlt
  have hr : (r : ℚ) + 1 ≤ n := by exact_mod_cast not_le.mp hlt
  have hstep : (r + 1) * 2 ^ t ≤ n * (2 : ℚ) ^ t := mul_le_mul_of_nonneg_right hr hp.le
  have hnear := (abs_le.mp h.near).2
  linarith

theorem Nearest.ge_of_ge {q : ℚ} {r t : ℤ} (h : Nearest q r t) {n : ℤ} (hn : q ≤ n * 2 ^ t) :
    r ≤ n := by
  have hneg : ((-n : ℤ) : ℚ) * 2 ^ t ≤ -q := by
    push_cast
    linarith
  have := h.neg.le_of_le hneg
  omega

/-- A multiple of the power of two itself. -/
theorem nearest_self {r t : ℤ} (ht : -149 ≤ t) (hfull : 2 ^ 23 ≤ |r| ∨ t = -149)
    (hle : |r| ≤ 2 ^ 24) : Nearest (r * 2 ^ t) r t := by
  have hp : (0 : ℚ) < 2 ^ t := by positivity
  have habs : |(r : ℚ) * 2 ^ t| = (|r| : ℤ) * 2 ^ t := by
    rw [abs_mul, abs_of_pos hp, Int.cast_abs]
  have hzero : |(r : ℚ) * 2 ^ t - r * 2 ^ t| = 0 := by rw [sub_self, abs_zero]
  refine ⟨ht, ?_, ?_, ?_, fun heq => ?_⟩
  · rw [habs]
    refine hfull.imp_left fun h => mul_le_mul_of_nonneg_right ?_ hp.le
    exact_mod_cast h
  · rw [habs]
    refine mul_le_mul_of_nonneg_right ?_ hp.le
    exact_mod_cast hle
  · rw [hzero]
    positivity
  · rw [hzero] at heq
    linarith

/-! ## Rounding to a canonical form -/

/-- `u` is the canonical form with sign `s` of the magnitude `q`. -/
def IsRounded (s : Sign) (q : ℚ) (u : UnpackedFloat) : Prop :=
  (u = .zero s ∧ q = 0) ∨ ∃ m e hm, u = .finite s m e hm ∧ Canonical m e ∧ (m : ℚ) * 2 ^ e = q

/-- The exponent that a significand of 24 digits has, or the least one. -/
def gridExponent (m : Nat) (e : Int) : Int := max (m.log2 + 1 + e - 24) (-149)

theorem targetExponent_eq (m : Nat) (e : Int) :
    Format.binary32.targetExponent (totalExponent m e) = gridExponent m e := rfl

theorem shift_amount {e t : Int} (h : e ≤ t) : (2 : ℚ) ^ (t - e).toNat * 2 ^ e = 2 ^ t := by
  rw [← zpow_natCast, Int.toNat_of_nonneg (by omega), ← zpow_add₀ two_ne_zero]
  congr 1
  omega

/-- A significand of 25 digits loses its last one, and any other is canonical as it is. -/
theorem renormalize {r : Nat} {t : Int} (hr : r ≤ 2 ^ 24) (ht : -149 ≤ t)
    (hnorm : 2 ^ 23 ≤ r ∨ t = -149) (s : Sign) :
    IsRounded s (r * 2 ^ t) (
      if h : (shiftToTargetExponent .binary32 r t .exact).1.mantissa = 0 then .zero s
      else .finite s (shiftToTargetExponent .binary32 r t .exact).1.mantissa
        (shiftToTargetExponent .binary32 r t .exact).2 (Nat.pos_of_ne_zero h)) := by
  have hshift : shiftToTargetExponent .binary32 r t .exact
      = (ExtendedMantissa.ofMantissaAndAccuracy r .exact >>> (gridExponent r t - t).toNat,
        t + (gridExponent r t - t).toNat) := rfl
  rcases Nat.lt_or_eq_of_le hr with hlt | rfl
  · have hlog : r.log2 ≤ 23 := by
      rcases Nat.eq_zero_or_pos r with rfl | hpos
      · decide
      · have := (Nat.log2_lt hpos.ne').mpr hlt
        omega
    have hzero : (gridExponent r t - t).toNat = 0 := by
      unfold gridExponent
      omega
    rw [hzero] at hshift
    have hm : (shiftToTargetExponent .binary32 r t .exact).1.mantissa = r := by rw [hshift]; rfl
    have he : (shiftToTargetExponent .binary32 r t .exact).2 = t := by rw [hshift]; simp
    simp only [hm, he]
    split_ifs with h0
    · exact Or.inl ⟨rfl, by rw [h0]; simp⟩
    · exact Or.inr ⟨r, t, _, rfl, ⟨hlt, ht, hnorm⟩, rfl⟩
  · have hone : (gridExponent (2 ^ 24) t - t).toNat = 1 := by
      have hlog : (2 ^ 24 : Nat).log2 = 24 := by decide
      unfold gridExponent
      omega
    rw [hone] at hshift
    have hm : (shiftToTargetExponent .binary32 (2 ^ 24) t .exact).1.mantissa = 2 ^ 23 := by
      rw [hshift]; rfl
    have he : (shiftToTargetExponent .binary32 (2 ^ 24) t .exact).2 = t + 1 := by rw [hshift]; rfl
    simp only [hm, he]
    refine Or.inr ⟨2 ^ 23, t + 1, by decide, rfl, ⟨by decide, by omega, Or.inl le_rfl⟩, ?_⟩
    rw [zpow_add_one₀ two_ne_zero]
    push_cast
    ring

theorem Represents.bounds {m : Nat} {acc : Accuracy} {x : ℚ}
    (h : Represents (.ofMantissaAndAccuracy m acc) x) : (m : ℚ) ≤ x ∧ x < m + 1 := by
  have hb := Remainder.bounds h
  have hmant : (ExtendedMantissa.ofMantissaAndAccuracy m acc).mantissa = m := by
    rcases acc with _ | o
    · rfl
    · cases o <;> rfl
  rw [hmant] at hb
  constructor <;> linarith [hb.1, hb.2]

/-- On the grid a number has 24 digits, unless the grid is the finest one. A number without digits
above the grid's last place is on the finest one too. -/
theorem le_of_gridExponent {m : Nat} {e : Int} (he : e ≤ gridExponent m e) :
    (2 : ℚ) ^ 23 * 2 ^ gridExponent m e ≤ m * 2 ^ e ∨ gridExponent m e = -149 := by
  by_cases hmin : gridExponent m e = -149
  · exact Or.inr hmin
  · left
    have ht : gridExponent m e = m.log2 + 1 + e - 24 := by unfold gridExponent at hmin ⊢; omega
    have hm : m ≠ 0 := by
      rintro rfl
      rw [ht, Nat.log2_zero] at he
      omega
    have hlow : (2 : ℚ) ^ m.log2 ≤ m := by exact_mod_cast Nat.log2_self_le hm
    calc (2 : ℚ) ^ 23 * 2 ^ gridExponent m e = 2 ^ m.log2 * 2 ^ e := by
          rw [ht, ← zpow_natCast, ← zpow_natCast, ← zpow_add₀ two_ne_zero,
            ← zpow_add₀ two_ne_zero]
          congr 1
          omega
      _ ≤ m * 2 ^ e := by gcongr

/-- On the grid a number has no more than 24 digits. -/
theorem gridExponent_le (m : Nat) (e : Int) :
    ((m : ℚ) + 1) * 2 ^ e ≤ (2 ^ 24 : ℕ) * 2 ^ gridExponent m e := by
  have hhigh : (m : ℚ) + 1 ≤ 2 ^ (m.log2 + 1) := by
    exact_mod_cast Nat.succ_le_of_lt Nat.lt_log2_self
  calc ((m : ℚ) + 1) * 2 ^ e ≤ 2 ^ (m.log2 + 1) * 2 ^ e := by gcongr
    _ = 2 ^ ((m.log2 + 1 : ℕ) + e : ℤ) := by
        rw [← zpow_natCast, ← zpow_add₀ two_ne_zero]
    _ ≤ 2 ^ (24 + gridExponent m e) := by
        refine zpow_le_zpow_right₀ one_le_two ?_
        unfold gridExponent
        push_cast
        omega
    _ = (2 ^ 24 : ℕ) * 2 ^ gridExponent m e := by
        rw [zpow_add₀ two_ne_zero]
        norm_num

/-- Rounding gives the canonical form of the nearest multiple of the power of two. -/
theorem roundWithAccuracy_spec {m : Nat} {e : Int} {acc : Accuracy} {x : ℚ}
    (he : e ≤ gridExponent m e) (hx : Represents (.ofMantissaAndAccuracy m acc) x) (s : Sign) :
    ∃ (r : Nat) (t : Int),
      IsRounded s (r * 2 ^ t) (roundWithAccuracy .binary32 s m e acc) ∧ Nearest (x * 2 ^ e) r t := by
  obtain ⟨hlow, hhigh⟩ := hx.bounds
  obtain ⟨t, ht⟩ : ∃ t, t = gridExponent m e := ⟨_, rfl⟩
  obtain ⟨em, hem⟩ : ∃ em, em = ExtendedMantissa.ofMantissaAndAccuracy m acc >>> (t - e).toNat :=
    ⟨_, rfl⟩
  have htmin : -149 ≤ t := by rw [ht]; exact le_max_right _ _
  have hp : (0 : ℚ) < 2 ^ t := by positivity
  have hpos : 0 ≤ x * 2 ^ e := mul_nonneg ((Nat.cast_nonneg m).trans hlow) (by positivity)
  have hfull : (2 : ℚ) ^ 23 * 2 ^ t ≤ x * 2 ^ e ∨ t = -149 := by
    rw [ht]
    refine (le_of_gridExponent he).imp_left fun h => h.trans ?_
    gcongr
  have hupper : x * 2 ^ e ≤ 2 ^ 24 * 2 ^ t := by
    have hle := gridExponent_le m e
    rw [← ht] at hle
    push_cast at hle
    refine hle.trans' ?_
    gcongr
  rw [← ht] at he
  obtain ⟨hnear, heven⟩ : |x / 2 ^ (t - e).toNat - em.roundedMantissa| ≤ 1 / 2 ∧
      (|x / 2 ^ (t - e).toNat - em.roundedMantissa| = 1 / 2 → Even em.roundedMantissa) := by
    rw [hem]
    exact (hx.shiftRight (t - e).toNat).nearest
  have hdist : |x * 2 ^ e - em.roundedMantissa * 2 ^ t|
      = |x / 2 ^ (t - e).toNat - em.roundedMantissa| * 2 ^ t := by
    rw [← abs_of_pos hp, ← abs_mul, abs_of_pos hp, ← shift_amount he]
    congr 1
    field_simp
  have hnearest : Nearest (x * 2 ^ e) em.roundedMantissa t := by
    refine ⟨htmin, by rw [abs_of_nonneg hpos]; exact hfull, by rw [abs_of_nonneg hpos]; exact hupper,
      ?_, fun heq => ?_⟩
    · rw [Int.cast_natCast, hdist]
      linarith [mul_le_mul_of_nonneg_right hnear hp.le]
    · rw [Int.cast_natCast, hdist] at heq
      have hhalf : |x / 2 ^ (t - e).toNat - em.roundedMantissa| = 1 / 2 :=
        mul_right_cancel₀ hp.ne' (by linarith)
      exact_mod_cast heven hhalf
  refine ⟨em.roundedMantissa, t, ?_, hnearest⟩
  have hnorm : 2 ^ 23 ≤ em.roundedMantissa ∨ t = -149 := by
    refine hfull.imp_left fun h => ?_
    have := hnearest.le_of_le (n := 2 ^ 23) (by exact_mod_cast h)
    exact_mod_cast this
  have hle : em.roundedMantissa ≤ 2 ^ 24 := by
    have := hnearest.ge_of_ge (n := 2 ^ 24) (by exact_mod_cast hupper)
    exact_mod_cast this
  have hround := renormalize hle htmin hnorm s
  have hfirst : shiftToTargetExponent .binary32 m e acc = (em, t) := by
    rw [hem, shiftToTargetExponent, targetExponent_eq, ← ht, shiftToExponent]
    congr 1
    omega
  unfold roundWithAccuracy
  rw [hfirst]
  exact hround

/-! ## Faithfulness -/

theorem neg_neg_form (u : UnpackedFloat) : u.neg.neg = u := by
  cases u with
  | notANumber => rfl
  | infinity s | zero s | finite s => cases s <;> rfl

theorem neg_eq_notANumber {u : UnpackedFloat} : u.neg = .notANumber ↔ u = .notANumber := by
  constructor
  · intro hu
    rw [← neg_neg_form u, hu]
    rfl
  · rintro rfl
    rfl

theorem Faithful.neg {q : ℚ} {u : UnpackedFloat} (h : Faithful q u) : Faithful (-q) u.neg := by
  constructor
  · exact fun hu => h.1 (neg_eq_notANumber.mp hu)
  · intro g hg hgn
    have hn : g.neg ≠ .notANumber := fun hg => hgn (neg_eq_notANumber.mp hg)
    have hb := h.2 g.neg (neg_isForm hg) hn
    rw [formValue_neg] at hb ⊢
    exact ⟨fun hq => le_neg.mp (hb.2 (le_neg.mp hq)), fun hq => neg_le.mp (hb.1 (neg_le.mp hq))⟩

/-- A form is faithful to its own value. -/
theorem Faithful.self {u : UnpackedFloat} (hn : u ≠ .notANumber) : Faithful (formValue u) u :=
  ⟨hn, fun _ _ _ => ⟨id, id⟩⟩

/-- No multiple of the power of two is passed, hence no form either. -/
theorem Nearest.between_forms {q : ℚ} {r : Nat} {t : Int} (h : Nearest q r t) (hq : 0 < q) {n : Nat}
    {d : Int} (hc : Canonical n d) :
    ((n : ℚ) * 2 ^ d ≤ q → (n : ℚ) * 2 ^ d ≤ r * 2 ^ t) ∧
      (q ≤ n * 2 ^ d → (r : ℚ) * 2 ^ t ≤ n * 2 ^ d) := by
  have hgrid : ∀ n : Nat, ((n : ℚ) * 2 ^ t ≤ q → n ≤ r) ∧ (q ≤ n * 2 ^ t → r ≤ n) := by
    intro n
    constructor
    · intro hn
      have := h.le_of_le (n := n) (by exact_mod_cast hn)
      exact_mod_cast this
    · intro hn
      have := h.ge_of_ge (n := n) (by exact_mod_cast hn)
      exact_mod_cast this
  rcases le_or_gt t d with htd | htd
  · -- On the grid itself.
    have hn : (n : ℚ) * 2 ^ d = (n * 2 ^ (d - t).toNat : ℕ) * 2 ^ t := by
      push_cast
      rw [mul_assoc, shift_amount htd]
    rw [hn]
    constructor
    · intro hq
      gcongr
      exact_mod_cast (hgrid _).1 hq
    · intro hq
      gcongr
      exact_mod_cast (hgrid _).2 hq
  · -- Below the part of the grid that counts.
    have hfull : (2 : ℚ) ^ 23 * 2 ^ t ≤ q := by
      have := h.full.resolve_right (by have := hc.2.1; omega)
      rwa [abs_of_pos hq] at this
    have hr : 2 ^ 23 ≤ r := (hgrid (2 ^ 23)).1 (by exact_mod_cast hfull)
    have hn : (n : ℚ) * 2 ^ d < 2 ^ 23 * 2 ^ t := by
      have hlt : (n : ℚ) < 2 ^ 24 := by exact_mod_cast hc.1
      calc (n : ℚ) * 2 ^ d < 2 ^ 24 * 2 ^ d := by gcongr
        _ = 2 ^ 23 * 2 ^ (d + 1) := by rw [zpow_add_one₀ two_ne_zero]; ring
        _ ≤ 2 ^ 23 * 2 ^ t := by gcongr; exacts [one_le_two, htd]
    constructor
    · intro _
      refine hn.le.trans ?_
      gcongr
      exact_mod_cast hr
    · intro hq
      exact absurd (hq.trans_lt (hn.trans_le hfull)) (lt_irrefl q)

/-- A form below a positive one is a canonical magnitude, or not above zero. -/
theorem faithful_of_between {q : ℚ} {u : UnpackedFloat} (hq : 0 < q) (hn : u ≠ .notANumber)
    (hpos : 0 ≤ formValue u)
    (hfin : ∀ (n : Nat) (d : Int), 0 < n → Canonical n d → d ≤ 104 →
      ((n : ℚ) * 2 ^ d ≤ q → (n : ℚ) * 2 ^ d ≤ formValue u) ∧
      (q ≤ n * 2 ^ d → formValue u ≤ n * 2 ^ d))
    (hinf : (2 : ℚ) ^ 128 ≤ q → (2 : ℚ) ^ 128 ≤ formValue u) (hle : formValue u ≤ 2 ^ 128) :
    Faithful q u := by
  refine ⟨hn, fun g hg hgn => ?_⟩
  cases g with
  | notANumber => exact absurd rfl hgn
  | zero s => exact ⟨fun _ => hpos, fun h => absurd h (not_le.mpr hq)⟩
  | infinity s =>
    cases s
    · rw [formValue_infinity_neg]
      have h128 : (0 : ℚ) < 2 ^ 128 := by positivity
      exact ⟨fun _ => by linarith, fun h => by linarith⟩
    · rw [formValue_infinity_pos]
      exact ⟨hinf, fun _ => hle⟩
  | finite s n d hn0 =>
    have hmag := magnitude_pos hn0 d
    cases s
    · rw [formValue_finite_neg]
      exact ⟨fun _ => by linarith, fun h => by linarith⟩
    · rw [formValue_finite_pos]
      exact hfin n d hn0 hg.1 hg.2

/-- The first power of two that no finite scalar reaches is a canonical magnitude, too. -/
theorem canonical_limit : Canonical (2 ^ 23) 105 := ⟨by decide, by decide, Or.inl le_rfl⟩

theorem limit_eq : ((2 ^ 23 : ℕ) : ℚ) * 2 ^ (105 : ℤ) = 2 ^ 128 := by norm_num

/-- A magnitude with an exponent that is too large is beyond every finite scalar. -/
theorem limit_le_magnitude {m : Nat} {e : Int} (hc : Canonical m e) (he : ¬e ≤ 104) :
    (2 : ℚ) ^ 128 ≤ m * 2 ^ e := by
  rw [← limit_eq]
  rcases eq_or_ne e 105 with rfl | hne
  · have hm23 := hc.2.2.resolve_right (by decide)
    gcongr
  · exact (magnitude_lt_of_exponent_lt canonical_limit hc (by omega)).le

/-- Packing keeps a rounded magnitude, up to the limit. -/
theorem IsRounded.repack_value {q : ℚ} {u : UnpackedFloat} (h : IsRounded .positive q u) :
    repack u ≠ .notANumber ∧ formValue (repack u) = min q (2 ^ 128) := by
  rcases h with ⟨rfl, rfl⟩ | ⟨m, e, hm, rfl, hc, rfl⟩
  · rw [repack_zero, formValue_zero, min_eq_left (by positivity)]
    exact ⟨by simp, rfl⟩
  · rw [repack_finite hc]
    split_ifs with hover
    · rw [formValue_finite_pos, min_eq_left (magnitude_lt_limit hc hover).le]
      exact ⟨by simp, rfl⟩
    · rw [formValue_infinity_pos, min_eq_right (limit_le_magnitude hc hover)]
      exact ⟨by simp, rfl⟩

/-- Rounding a positive magnitude and packing the result. -/
theorem faithful_repack_of_rounded {q : ℚ} {u : UnpackedFloat} {r : Nat} {t : Int} (hq : 0 < q)
    (hu : IsRounded .positive (r * 2 ^ t) u) (hnearest : Nearest q r t) :
    Faithful q (repack u) := by
  obtain ⟨hn, hvalue⟩ := hu.repack_value
  refine faithful_of_between hq hn ?_ ?_ ?_ ?_ <;> rw [hvalue]
  · positivity
  · intro n d _ hc hd
    obtain ⟨hlow, hhigh⟩ := hnearest.between_forms hq hc
    exact ⟨fun h => le_min (hlow h) (magnitude_lt_limit hc hd).le,
      fun h => (min_le_left _ _).trans (hhigh h)⟩
  · intro h
    have hlow := (hnearest.between_forms hq canonical_limit).1
    rw [limit_eq] at hlow
    exact le_min (hlow h) le_rfl
  · exact min_le_right _ _

theorem IsRounded.neg {q : ℚ} {u : UnpackedFloat} (h : IsRounded .negative q u) :
    IsRounded .positive q u.neg := by
  rcases h with ⟨rfl, h0⟩ | ⟨m, e, hm, rfl, hc, hval⟩
  · exact Or.inl ⟨rfl, h0⟩
  · exact Or.inr ⟨m, e, hm, rfl, hc, hval⟩

theorem IsRounded.repack_neg {s : Sign} {q : ℚ} {u : UnpackedFloat} (h : IsRounded s q u) :
    repack u.neg = (repack u).neg := by
  rcases h with ⟨rfl, _⟩ | ⟨m, e, hm, rfl, hc, _⟩
  · rw [repack_zero]
    exact repack_zero (-s)
  · change repack (.finite (-s) m e hm) = _
    rw [repack_finite hc, repack_finite hc]
    split_ifs <;> rfl

/-! ## Rounding to the nearest form -/

/-- The number of `[-2 ^ 128, 2 ^ 128]` nearest to `z`. -/
def saturated (z : ℚ) : ℚ := max (-2 ^ 128) (min z (2 ^ 128))

theorem saturated_neg (z : ℚ) : saturated (-z) = -saturated z := by
  have hlimit : max (-2 ^ 128 : ℚ) (2 ^ 128) = 2 ^ 128 := max_eq_right (by norm_num)
  rw [saturated, saturated, max_min_distrib_left, hlimit, ← min_neg_neg, neg_neg, ← max_neg_neg,
    min_comm, max_comm]

theorem saturated_of_nonneg {z : ℚ} (h : 0 ≤ z) : saturated z = min z (2 ^ 128) :=
  max_eq_right ((neg_nonpos.mpr (by positivity)).trans (le_min h (by positivity)))

theorem saturated_of_abs_le {z : ℚ} (h : |z| ≤ 2 ^ 128) : saturated z = z := by
  rw [saturated, min_eq_left (abs_le.mp h).2, max_eq_right (abs_le.mp h).1]

/-- `u` is next to `q`, and the nearest form there is, where an infinity counts as `±2 ^ 128`. -/
structure Rounds (q : ℚ) (u : UnpackedFloat) : Prop where
  faithful : Faithful q u
  nearest : ∃ r t : ℤ, Nearest q r t ∧ formValue u = saturated (r * 2 ^ t)

theorem Rounds.neg {q : ℚ} {u : UnpackedFloat} (h : Rounds q u) : Rounds (-q) u.neg := by
  obtain ⟨r, t, hnearest, hvalue⟩ := h.nearest
  refine ⟨h.faithful.neg, -r, t, hnearest.neg, ?_⟩
  rw [formValue_neg, hvalue, ← saturated_neg]
  push_cast
  ring_nf

theorem abs_apply (s : Sign) (m : ℕ) : |s.apply m| = m := by
  cases s <;> simp [Sign.apply]

/-- A form is its own value rounded. -/
theorem Rounds.self {u : UnpackedFloat} (hu : IsForm u) (hn : u ≠ .notANumber) :
    Rounds (formValue u) u := by
  have hgrid : ∀ {r t : ℤ}, Nearest (r * 2 ^ t) r t → formValue u = r * 2 ^ t →
      |formValue u| ≤ 2 ^ 128 → Rounds (formValue u) u := by
    intro r t hnearest hvalue hle
    refine ⟨.self hn, r, t, hvalue ▸ hnearest, ?_⟩
    rw [← hvalue, saturated_of_abs_le hle]
  cases u with
  | notANumber => exact absurd rfl hn
  | zero s =>
    refine hgrid (nearest_self (r := 0) (t := -149) le_rfl (Or.inr rfl) (by decide)) ?_ ?_
    · rw [formValue_zero, Int.cast_zero, zero_mul]
    · rw [formValue_zero, abs_zero]
      positivity
  | infinity s =>
    have habs := abs_apply s (2 ^ 23)
    refine hgrid (nearest_self (r := s.apply (2 ^ 23)) (t := 105) (by decide) (Or.inl ?_) ?_) ?_ ?_
    · exact habs.ge
    · rw [show s.apply (2 ^ 23) = s.apply (2 ^ 23 : ℕ) from rfl, habs]
      decide
    · cases s <;> norm_num [Sign.apply]
    · cases s <;> norm_num
  | finite s m e hm =>
    have habs := abs_apply s m
    refine hgrid (nearest_self (r := s.apply m) (t := e) hu.1.2.1 ?_ ?_) rfl ?_
    · rw [habs]
      exact_mod_cast hu.1.2.2
    · rw [habs]
      exact_mod_cast hu.1.1.le
    · rw [abs_formValue]
      exact (magnitude_lt_limit hu.1 hu.2).le

/-- Rounding with either sign. -/
theorem rounds_roundWithAccuracy {m : Nat} {e : Int} {acc : Accuracy} {x : ℚ}
    (he : e ≤ gridExponent m e) (hx : Represents (.ofMantissaAndAccuracy m acc) x) (hpos : 0 < x)
    (s : Sign) : Rounds (s.apply 1 * (x * 2 ^ e))
      (repack (roundWithAccuracy .binary32 s m e acc)) := by
  obtain ⟨r, t, hu, hnearest⟩ := roundWithAccuracy_spec he hx s
  have hq : (0 : ℚ) < x * 2 ^ e := by positivity
  have hpositive : ∀ {u}, IsRounded .positive (r * 2 ^ t) u → Rounds (x * 2 ^ e) (repack u) := by
    intro u hu
    refine ⟨faithful_repack_of_rounded hq hu hnearest, r, t, hnearest, ?_⟩
    rw [hu.repack_value.2, Int.cast_natCast, saturated_of_nonneg (by positivity)]
  cases s
  · have hf := (hpositive hu.neg).neg
    rw [hu.repack_neg, neg_neg_form] at hf
    simpa [Sign.apply] using hf
  · simpa [Sign.apply] using hpositive hu

end Quadrotor.Scalar

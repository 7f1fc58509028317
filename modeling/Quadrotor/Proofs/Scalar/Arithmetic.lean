import Mathlib
import Quadrotor.Proofs.Scalar.Rounding

/-!
# Sums, differences, products and quotients

Each operation on finite scalars is the exact operation on their values, rounded once. Operations on
an infinity follow the rules for special values: an infinity and a finite scalar add up to that
infinity, so a sum with a finite scalar is never a NaN, whatever has overflowed before.
-/

namespace Quadrotor.Scalar

open Float.Model (Format UnpackedFloat totalExponent)
open Float.Model.UnpackedFloat

/-! ## Rounding a significand with an exponent -/

theorem decreaseExponent_value (m : Nat) {e t : Int} (h : t ≤ e) :
    ((decreaseExponent m e t).1 : ℚ) * 2 ^ t = m * 2 ^ e := by
  change ((m <<< (e - t).toNat : ℕ) : ℚ) * 2 ^ t = _
  rw [Nat.shiftLeft_eq]
  push_cast
  rw [mul_assoc, shift_amount h]

theorem rounds_round {m : Nat} (hm : 0 < m) (e : Int) (s : Sign) :
    Rounds (s.apply 1 * (m * 2 ^ e)) (repack (UnpackedFloat.round .binary32 s m e)) := by
  obtain ⟨k, hk⟩ : ∃ k, k = (e - gridExponent m e).toNat := ⟨_, rfl⟩
  have hpos : 0 < m <<< k := by rw [Nat.shiftLeft_eq]; positivity
  have hlog : (m <<< k).log2 = m.log2 + k := by
    obtain ⟨hlow, hhigh⟩ := (Nat.log2_eq_iff hm.ne').mp rfl
    rw [Nat.log2_eq_iff hpos.ne', Nat.shiftLeft_eq, pow_add, add_right_comm, pow_add]
    exact ⟨Nat.mul_le_mul_right _ hlow, Nat.mul_lt_mul_of_pos_right hhigh (by positivity)⟩
  have hgrid : e - k ≤ gridExponent (m <<< k) (e - k) := by
    unfold gridExponent at hk ⊢
    omega
  have hval : ((m <<< k : ℕ) : ℚ) * 2 ^ (e - k) = m * 2 ^ e := by
    rw [Nat.shiftLeft_eq, zpow_sub₀ two_ne_zero, zpow_natCast]
    push_cast
    field_simp
  have hf := rounds_roundWithAccuracy hgrid (represents_exact _) (by exact_mod_cast hpos) s
  rw [hval] at hf
  have hround : UnpackedFloat.round .binary32 s m e
      = roundWithAccuracy .binary32 s (m <<< k) (e - k) .exact := by
    rw [UnpackedFloat.round, targetExponent_eq, decreaseExponent, ← hk]
  rw [hround]
  exact hf

theorem rounds_normalize (m e : Int) (s : Sign) :
    Rounds (m * 2 ^ e) (repack (UnpackedFloat.normalize .binary32 m e s)) := by
  rcases lt_trichotomy m 0 with h | rfl | h
  · have hm : ((-m).toNat : ℚ) = -m := by exact_mod_cast Int.toNat_of_nonneg (by omega)
    have hf := rounds_round (m := (-m).toNat) (by omega) e .negative
    rw [hm] at hf
    rw [UnpackedFloat.normalize, compare_lt_iff_lt.mpr h]
    simpa [Sign.apply] using hf
  · rw [UnpackedFloat.normalize, compare_eq_iff_eq.mpr rfl]
    simpa using Rounds.self (u := .zero s) trivial (by simp)
  · have hm : (m.toNat : ℚ) = m := by exact_mod_cast Int.toNat_of_nonneg h.le
    have hf := rounds_round (m := m.toNat) (by omega) e .positive
    rw [hm] at hf
    rw [UnpackedFloat.normalize, compare_gt_iff_gt.mpr h]
    simpa [Sign.apply] using hf

/-! ## Operations on forms -/

theorem sign_apply (s : Sign) (m : Int) : (s.apply m : ℚ) = s.apply 1 * m := by
  cases s <;> simp [Sign.apply]

theorem formValue_finite (s : Sign) (m : Nat) (e : Int) (hm : 0 < m) :
    formValue (.finite s m e hm) = s.apply m * 2 ^ e := rfl

theorem sign_mul_apply (s t : Sign) : (((s * t).apply 1 : ℤ) : ℚ) = s.apply 1 * t.apply 1 := by
  have h : (s * t).apply 1 = s.apply 1 * t.apply 1 := by
    cases s <;> cases t <;> rfl
  rw [h, Int.cast_mul]

theorem rounds_zero (s : Sign) : Rounds 0 (repack (.zero s)) := by
  rw [repack_zero]
  exact Rounds.self (u := .zero s) trivial (by simp)

/-- A form that takes part in a sum as it is. -/
theorem rounds_repack_self {u : UnpackedFloat} (hu : IsForm u) (hn : u ≠ .notANumber) :
    Rounds (formValue u) (repack u) := by
  rw [repack_isForm hu]
  exact Rounds.self hu hn

theorem rounds_add_forms {a b : UnpackedFloat} (ha : IsForm a) (hb : IsForm b)
    (hfa : a.isFinite = true) (hfb : b.isFinite = true) :
    Rounds (formValue a + formValue b) (repack (UnpackedFloat.add .binary32 a b)) := by
  cases a with
  | notANumber | infinity s => cases hfa
  | zero s =>
    rw [formValue_zero, zero_add]
    cases b with
    | notANumber | infinity t => cases hfb
    | zero t =>
      rw [formValue_zero, UnpackedFloat.add]
      split_ifs
      · exact rounds_zero s
      · exact rounds_zero .positive
    | finite t n e hn => exact rounds_repack_self hb (by simp)
  | finite s m d hm =>
    cases b with
    | notANumber | infinity t => cases hfb
    | zero t =>
      rw [formValue_zero, add_zero]
      exact rounds_repack_self ha (by simp)
    | finite t n e hn =>
      obtain ⟨k, hk⟩ : ∃ k, k = min d e := ⟨_, rfl⟩
      have h1 := decreaseExponent_value m (show k ≤ d by omega)
      have h2 := decreaseExponent_value n (show k ≤ e by omega)
      have hsum : formValue (.finite s m d hm) + formValue (.finite t n e hn)
          = (s.apply (decreaseExponent m d k).1 + t.apply (decreaseExponent n e k).1 : Int)
            * 2 ^ k := by
        rw [formValue_finite, formValue_finite, Int.cast_add, sign_apply s, sign_apply t,
          sign_apply s (decreaseExponent m d k).1, sign_apply t (decreaseExponent n e k).1]
        push_cast
        linear_combination (s.apply 1 : ℚ) * -h1 + (t.apply 1 : ℚ) * -h2
      rw [hsum, hk]
      exact rounds_normalize _ _ _

theorem sub_eq_add_neg_form (a b : UnpackedFloat) :
    UnpackedFloat.sub .binary32 a b = UnpackedFloat.add .binary32 a b.neg := by
  have hsign : ∀ (s : Sign) (m n : Int), m - s.apply n = m + (-s).apply n := by
    intro s m n
    cases s
    · change m - -n = m + n
      omega
    · change m - n = m + -n
      omega
  cases a <;> cases b <;>
    first
    | rfl
    | simp only [UnpackedFloat.sub, UnpackedFloat.add, UnpackedFloat.neg, hsign]

theorem exponent_sum_le {m n : Nat} {d e : Int} (hm : 0 < m) (hn : 0 < n) (hcm : Canonical m d)
    (hcn : Canonical n e) : d + e ≤ gridExponent (m * n) (d + e) := by
  obtain ⟨_, _, hm23⟩ := hcm
  obtain ⟨_, _, hn23⟩ := hcn
  unfold gridExponent
  by_cases hsmall : d = -149 ∧ e = -149
  · omega
  · have hprod : 2 ^ 23 ≤ m * n := by
      rcases not_and_or.mp hsmall with h | h
      · calc 2 ^ 23 ≤ m := hm23.resolve_right h
          _ ≤ m * n := Nat.le_mul_of_pos_right m hn
      · calc 2 ^ 23 ≤ n := hn23.resolve_right h
          _ ≤ m * n := Nat.le_mul_of_pos_left n hm
    have hlog : 23 ≤ (m * n).log2 := (Nat.le_log2 (by positivity)).mpr hprod
    omega

theorem rounds_mul_forms {a b : UnpackedFloat} (ha : IsForm a) (hb : IsForm b)
    (hfa : a.isFinite = true) (hfb : b.isFinite = true) :
    Rounds (formValue a * formValue b) (repack (UnpackedFloat.mul .binary32 a b)) := by
  cases a with
  | notANumber | infinity s => cases hfa
  | zero s =>
    rw [formValue_zero, zero_mul]
    cases b with
    | notANumber | infinity t => cases hfb
    | zero t => exact rounds_zero (s * t)
    | finite t n e hn => exact rounds_zero (s * t)
  | finite s m d hm =>
    cases b with
    | notANumber | infinity t => cases hfb
    | zero t =>
      rw [formValue_zero, mul_zero]
      exact rounds_zero (s * t)
    | finite t n e hn =>
      have hmn : 0 < m * n := Nat.mul_pos hm hn
      have hf := rounds_roundWithAccuracy (exponent_sum_le hm hn ha.1 hb.1)
        (represents_exact _) (by exact_mod_cast hmn) (s * t)
      have hval : formValue (.finite s m d hm) * formValue (.finite t n e hn)
          = (s * t).apply 1 * ((m * n : ℕ) * 2 ^ (d + e)) := by
        rw [formValue_finite, formValue_finite, sign_apply s, sign_apply t, sign_mul_apply,
          zpow_add₀ two_ne_zero]
        push_cast
        ring
      rw [hval]
      exact hf

/-! ## Quotients of forms -/

/-- A quotient with what is known of its remainder stands for the exact quotient. -/
theorem represents_fraction (m : Nat) {n : Nat} (hn : 0 < n) :
    Represents (.ofMantissaAndAccuracy (m / n) (accuracyOfFraction (m % n) n)) (m / n) := by
  obtain ⟨r, hr⟩ : ∃ r, r = m % n := ⟨_, rfl⟩
  have hn' : (0 : ℚ) < n := by exact_mod_cast hn
  have hlt : (r : ℚ) < n := by
    rw [hr]
    exact_mod_cast Nat.mod_lt m hn
  have hrest : (m : ℚ) / n - (m / n : ℕ) = r / n := by
    have hmod : ((m % n : ℕ) : ℚ) + n * ((m / n : ℕ) : ℚ) = m := by
      exact_mod_cast Nat.mod_add_div m n
    rw [hr]
    field_simp
    linarith
  rw [← hr]
  unfold accuracyOfFraction
  split_ifs with h0
  · change (m : ℚ) / n - (m / n : ℕ) = 0
    rw [hrest, h0, Nat.cast_zero, zero_div]
  · have hpos : (0 : ℚ) < r := by exact_mod_cast Nat.pos_of_ne_zero h0
    rcases lt_trichotomy (2 * r) n with h | h | h
    · have h' : (2 : ℚ) * r < n := by exact_mod_cast h
      rw [compare_lt_iff_lt.mpr h]
      change 0 < (m : ℚ) / n - (m / n : ℕ) ∧ (m : ℚ) / n - (m / n : ℕ) < 1 / 2
      rw [hrest, div_lt_iff₀ hn']
      exact ⟨by positivity, by linarith⟩
    · have h' : (2 : ℚ) * r = n := by exact_mod_cast h
      rw [compare_eq_iff_eq.mpr h]
      change (m : ℚ) / n - (m / n : ℕ) = 1 / 2
      rw [hrest, div_eq_iff hn'.ne']
      linarith
    · have h' : (n : ℚ) < 2 * r := by exact_mod_cast h
      rw [compare_gt_iff_gt.mpr h]
      change 1 / 2 < (m : ℚ) / n - (m / n : ℕ) ∧ (m : ℚ) / n - (m / n : ℕ) < 1
      rw [hrest, lt_div_iff₀ hn', div_lt_one hn']
      exact ⟨by linarith, hlt⟩

/-- A quotient has 24 digits above its last place, if the dividend is longer than the divisor by as
many. -/
theorem quotient_le_gridExponent {m n : Nat} {e : Int} (hn : 0 < n)
    (h : e ≤ -149 ∨ 2 ^ (n.log2 + 24) ≤ m) : e ≤ gridExponent (m / n) e := by
  unfold gridExponent
  rcases h with h | h
  · omega
  · have hquot : 2 ^ 23 ≤ m / n := by
      rw [Nat.le_div_iff_mul_le hn]
      calc 2 ^ 23 * n ≤ 2 ^ 23 * 2 ^ (n.log2 + 1) := Nat.mul_le_mul_left _ Nat.lt_log2_self.le
        _ = 2 ^ (n.log2 + 24) := by rw [← pow_add]; congr 1; omega
        _ ≤ m := h
    have hlog : 23 ≤ (m / n).log2 := (Nat.le_log2 (by positivity)).mpr hquot
    omega

theorem sign_div_eq_mul (s t : Sign) : s / t = s * t := by
  cases s <;> cases t <;> rfl

theorem sign_apply_mul_self (s : Sign) : ((s.apply 1 : ℤ) : ℚ) * s.apply 1 = 1 := by
  cases s <;> norm_num [Sign.apply]

theorem rounds_div_forms {a b : UnpackedFloat} (hfa : a.isFinite = true)
    (hfb : b.isFinite = true) (h0 : formValue b ≠ 0) :
    Rounds (formValue a / formValue b) (repack (UnpackedFloat.div .binary32 a b)) := by
  cases b with
  | notANumber | infinity t => cases hfb
  | zero t => exact absurd (formValue_zero t) h0
  | finite t n e hn =>
    cases a with
    | notANumber | infinity s => cases hfa
    | zero s =>
      rw [formValue_zero, zero_div]
      exact rounds_zero (s / t)
    | finite s m d hm =>
      obtain ⟨g, hg⟩ : ∃ g, g = min (d - e)
          (max ((m.log2 + 1 + d) - (n.log2 + 1 + e) - 24) (-149)) := ⟨_, rfl⟩
      obtain ⟨k, hk⟩ : ∃ k, k = m <<< (d - e - g).toNat := ⟨_, rfl⟩
      have hdiv : UnpackedFloat.div .binary32 (.finite s m d hm) (.finite t n e hn)
          = roundWithAccuracy .binary32 (s / t) (k / n) g (accuracyOfFraction (k % n) n) := by
        rw [hk, hg]
        rfl
      have hkm : (k : ℚ) * 2 ^ g = m * 2 ^ (d - e) := by
        rw [hk, Nat.shiftLeft_eq]
        push_cast
        rw [mul_assoc, shift_amount (by omega)]
      have hkpos : 0 < k := by
        rw [hk, Nat.shiftLeft_eq]
        positivity
      have hdigits : g ≤ -149 ∨ 2 ^ (n.log2 + 24) ≤ k := by
        rcases le_or_gt g (-149) with h | h
        · exact Or.inl h
        · right
          calc 2 ^ (n.log2 + 24) ≤ 2 ^ (m.log2 + (d - e - g).toNat) :=
                Nat.pow_le_pow_right two_pos (by omega)
            _ = 2 ^ m.log2 * 2 ^ (d - e - g).toNat := pow_add _ _ _
            _ ≤ m * 2 ^ (d - e - g).toNat := Nat.mul_le_mul_right _ (Nat.log2_self_le hm.ne')
            _ = k := by rw [hk, Nat.shiftLeft_eq]
      have hf := rounds_roundWithAccuracy (quotient_le_gridExponent hn hdigits)
        (represents_fraction k hn) (by positivity) (s / t)
      have hval : formValue (.finite s m d hm) / formValue (.finite t n e hn)
          = (s / t).apply 1 * ((k : ℚ) / n * 2 ^ g) := by
        have hsign := sign_apply_mul_self t
        have hkm' : (k : ℚ) * 2 ^ g * 2 ^ e = m * 2 ^ d := by
          rw [hkm, zpow_sub₀ two_ne_zero, mul_assoc, div_mul_cancel₀ _ (by positivity)]
        rw [div_eq_iff h0, formValue_finite, formValue_finite, sign_apply s, sign_apply t,
          sign_div_eq_mul, sign_mul_apply]
        push_cast
        calc (s.apply 1 : ℚ) * m * 2 ^ d = s.apply 1 * (k * 2 ^ g * 2 ^ e) * 1 := by
              rw [hkm']; ring
          _ = s.apply 1 * t.apply 1 * (k / n * 2 ^ g) * (t.apply 1 * n * 2 ^ e) := by
              rw [← hsign]; field_simp
      rw [hval, hdiv]
      exact hf

/-! ## Operations on scalars -/

theorem Faithful.isNaN {q : ℚ} {z : Scalar} (h : Faithful q z.form) : z.isNaN = false :=
  isNaN_eq_false.mpr h.1

/-- The rounded result is not below a scalar that the exact result is not below. -/
theorem Faithful.le_of_value_le {q : ℚ} {g z : Scalar} (h : Faithful q z.form)
    (hg : g.isNaN = false) (hq : g.value ≤ q) : g ≤ z :=
  (le_iff_value hg h.isNaN).mpr ((h.2 g.form (form_isForm g) (isNaN_eq_false.mp hg)).1 hq)

/-- The rounded result is not above a scalar that the exact result is not above. -/
theorem Faithful.le_of_le_value {q : ℚ} {g z : Scalar} (h : Faithful q z.form)
    (hg : g.isNaN = false) (hq : q ≤ g.value) : z ≤ g :=
  (le_iff_value h.isNaN hg).mpr ((h.2 g.form (form_isForm g) (isNaN_eq_false.mp hg)).2 hq)

/-- A result that is a scalar is exact. -/
theorem Faithful.value_eq {q : ℚ} {g z : Scalar} (h : Faithful q z.form) (hg : g.isNaN = false)
    (hq : g.value = q) : z.value = q := by
  have hlow := (le_iff_value hg h.isNaN).mp (h.le_of_value_le hg hq.le)
  have hhigh := (le_iff_value h.isNaN hg).mp (h.le_of_le_value hg hq.ge)
  rw [← hq]
  exact le_antisymm hhigh hlow

/-- A result between two finite scalars is finite. -/
theorem Faithful.isFinite {q : ℚ} {z g : Scalar} (h : Faithful q z.form) (hg : g.isFinite = true)
    (hq : |q| ≤ |g.value|) : z.isFinite = true := by
  have hn : g.abs.isNaN = false := by rw [isNaN_abs]; exact isNaN_of_isFinite hg
  have hv : q ≤ value g.abs ∧ value (-g.abs) ≤ q := by
    rw [value_neg, value_abs]
    exact ⟨(le_abs_self q).trans hq, neg_le.mp ((neg_le_abs q).trans hq)⟩
  have hfin : g.abs.isFinite = true := by
    rw [isFinite_iff, value_abs, abs_abs]
    exact ⟨hn, (isFinite_iff.mp hg).2⟩
  have hfin' : Float32.isFinite (-g.abs) = true := by rw [isFinite_neg]; exact hfin
  exact isFinite_of_mem hfin' hfin (h.le_of_value_le (isNaN_of_isFinite hfin') hv.2)
    (h.le_of_le_value hn hv.1)

theorem rounds_add {x y : Scalar} (hx : x.isFinite = true) (hy : y.isFinite = true) :
    Rounds (x.value + y.value) (x + y).form :=
  rounds_add_forms (form_isForm x) (form_isForm y) hx hy

theorem faithful_add {x y : Scalar} (hx : x.isFinite = true) (hy : y.isFinite = true) :
    Faithful (x.value + y.value) (x + y).form := (rounds_add hx hy).faithful

theorem form_sub_eq (x y : Scalar) : (x - y).form = (x + -y).form := by
  rw [form_sub, form_add, form_neg, sub_eq_add_neg_form]

theorem rounds_sub {x y : Scalar} (hx : x.isFinite = true) (hy : y.isFinite = true) :
    Rounds (x.value - y.value) (x - y).form := by
  have hy' : Float32.isFinite (-y) = true := by rw [isFinite_neg]; exact hy
  rw [form_sub_eq, sub_eq_add_neg, ← value_neg]
  exact rounds_add hx hy'

theorem faithful_sub {x y : Scalar} (hx : x.isFinite = true) (hy : y.isFinite = true) :
    Faithful (x.value - y.value) (x - y).form := (rounds_sub hx hy).faithful

theorem rounds_mul {x y : Scalar} (hx : x.isFinite = true) (hy : y.isFinite = true) :
    Rounds (x.value * y.value) (x * y).form :=
  rounds_mul_forms (form_isForm x) (form_isForm y) hx hy

theorem faithful_mul {x y : Scalar} (hx : x.isFinite = true) (hy : y.isFinite = true) :
    Faithful (x.value * y.value) (x * y).form := (rounds_mul hx hy).faithful

theorem rounds_div {x y : Scalar} (hx : x.isFinite = true) (hy : y.isFinite = true)
    (h0 : y.value ≠ 0) : Rounds (x.value / y.value) (x / y).form :=
  rounds_div_forms hx hy h0

theorem faithful_div {x y : Scalar} (hx : x.isFinite = true) (hy : y.isFinite = true)
    (h0 : y.value ≠ 0) : Faithful (x.value / y.value) (x / y).form := (rounds_div hx hy h0).faithful

/-! ## Infinities -/

/-- A number that is not finite is an infinity. -/
theorem form_infinity {x : Scalar} (hx : x.isNaN = false) (hf : ¬x.isFinite = true) :
    ∃ s, x.form = .infinity s := by
  have hn := isNaN_eq_false.mp hx
  change ¬x.form.isFinite = true at hf
  cases h : x.form with
  | notANumber => exact absurd h hn
  | infinity s => exact ⟨s, rfl⟩
  | zero s => rw [h] at hf; exact absurd rfl hf
  | finite s m e hm => rw [h] at hf; exact absurd rfl hf

theorem form_add_infinity {x y : Scalar} {s : Sign} (hx : x.form = .infinity s)
    (hy : y.isFinite = true) : (x + y).form = .infinity s := by
  change y.form.isFinite = true at hy
  rw [form_add, hx]
  cases h : y.form with
  | notANumber | infinity t => rw [h] at hy; cases hy
  | zero t | finite t => exact repack_infinity s

theorem isNaN_add {x y : Scalar} (hx : x.isNaN = false) (hy : y.isFinite = true) :
    (x + y).isNaN = false := by
  by_cases hf : x.isFinite = true
  · exact (faithful_add hf hy).isNaN
  · obtain ⟨s, hs⟩ := form_infinity hx hf
    rw [isNaN_eq_false, form_add_infinity hs hy]
    simp

theorem isNaN_sub {x y : Scalar} (hx : x.isNaN = false) (hy : y.isFinite = true) :
    (x - y).isNaN = false := by
  have hy' : Float32.isFinite (-y) = true := by rw [isFinite_neg]; exact hy
  rw [isNaN_eq_false, form_sub_eq]
  exact isNaN_eq_false.mp (isNaN_add hx hy')

/-- A scalar taken from one that is not smaller leaves nothing negative. -/
theorem sub_nonneg {x y : Scalar} (hy : y.isFinite = true) (h : y ≤ x) : 0.0 ≤ x - y := by
  obtain ⟨_, hx, hv⟩ := le_iff.mp h
  by_cases hf : x.isFinite = true
  · refine (faithful_sub hf hy).le_of_value_le rfl ?_
    rw [value_zero]
    linarith
  · obtain ⟨s, hs⟩ := form_infinity hx hf
    have hy' : Float32.isFinite (-y) = true := by rw [isFinite_neg]; exact hy
    have hform : (x - y).form = .infinity s := by
      rw [form_sub_eq]
      exact form_add_infinity hs hy'
    refine le_iff.mpr ⟨rfl, isNaN_sub hx hy, ?_⟩
    have hylow := (abs_lt.mp (isFinite_iff.mp hy).2).1
    rw [value_zero, value, hform]
    change y.value ≤ formValue x.form at hv
    rw [hs] at hv
    cases s
    · rw [formValue_infinity_neg] at hv
      linarith
    · rw [formValue_infinity_pos]
      positivity

end Quadrotor.Scalar

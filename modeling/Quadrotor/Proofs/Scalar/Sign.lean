import Mathlib
import Quadrotor.Proofs.Scalar.Overflow

/-!
# Signs of results

A result that goes along with a scalar is a number that never has the opposite sign, so it is zero
where the scalar is. Products with scalars that are not negative go along with what they multiply,
and so do sums of such products, whatever overflows on the way.
-/

namespace Quadrotor.Scalar

open Float.Model (Format UnpackedFloat)
open Float.Model.UnpackedFloat

/-- `y` is a number whose sign is never opposite to that of `x`. -/
structure Along (x y : Scalar) : Prop where
  isNaN : y.isNaN = false
  nonneg : 0 ≤ x.value → 0 ≤ y.value
  nonpos : x.value ≤ 0 → y.value ≤ 0

section

variable {k x y z : Scalar}

theorem Along.refl (hx : x.isNaN = false) : Along x x := ⟨hx, id, id⟩

theorem Along.trans (h : Along x y) (h' : Along y z) : Along x z :=
  ⟨h'.isNaN, fun hx => h'.nonneg (h.nonneg hx), fun hx => h'.nonpos (h.nonpos hx)⟩

theorem along_zero (x : Scalar) : Along x 0.0 :=
  ⟨isNaN_zero, fun _ => value_zero.ge, fun _ => value_zero.le⟩

theorem Along.value_eq_zero (h : Along x y) (hx : x.value = 0) : y.value = 0 :=
  le_antisymm (h.nonpos hx.le) (h.nonneg hx.ge)

/-- Rounding keeps to the side of zero that the exact result is on. -/
theorem along_of_rounds {q : ℚ} (h : Rounds q y.form) (hpos : 0 ≤ x.value → 0 ≤ q)
    (hneg : x.value ≤ 0 → q ≤ 0) : Along x y := by
  refine ⟨h.isNaN, fun hx => ?_, fun hx => ?_⟩
  · exact Scalar.value_nonneg (h.faithful.le_of_value_le isNaN_zero (by rw [value_zero]; exact hpos hx))
  · have hle := h.faithful.le_of_le_value isNaN_zero (by rw [value_zero]; exact hneg hx)
    exact value_zero ▸ (le_iff.mp hle).2.2

theorem Along.mul (h : Along x y) (hy : y.isFinite = true) (hk : k.isFinite = true)
    (h0 : 0 ≤ k.value) : Along x (y * k) :=
  along_of_rounds (rounds_mul hy hk) (fun hx => mul_nonneg (h.nonneg hx) h0)
    fun hx => mul_nonpos_of_nonpos_of_nonneg (h.nonpos hx) h0

theorem Along.mul_left (h : Along x y) (hy : y.isFinite = true) (hk : k.isFinite = true)
    (h0 : 0 ≤ k.value) : Along x (k * y) :=
  along_of_rounds (rounds_mul hk hy) (fun hx => mul_nonneg h0 (h.nonneg hx))
    fun hx => mul_nonpos_of_nonneg_of_nonpos h0 (h.nonpos hx)

/-- An infinity stays the same one when it is multiplied by a positive finite scalar. -/
theorem form_infinity_mul_pos {s : Sign} (hy : y.form = .infinity s) (hk : isPositive k = true) :
    (y * k).form = .infinity s := by
  obtain ⟨hfk, hpos⟩ := isPositive_iff.mp hk
  have hpos' : 0 < k.value := (lt_iff.mp hpos).2.2
  rw [form_mul, hy]
  change k.form.isFinite = true at hfk
  rw [value] at hpos'
  cases h : k.form with
  | notANumber | infinity t =>
    rw [h] at hfk
    cases hfk
  | zero t =>
    rw [h] at hpos'
    exact absurd hpos' (lt_irrefl 0)
  | finite t n e hn =>
    cases t with
    | positive => cases s <;> exact repack_infinity _
    | negative =>
      rw [h, formValue_finite_neg] at hpos'
      linarith [magnitude_pos hn e]

theorem Along.mul_pos (h : Along x y) (hk : isPositive k = true) : Along x (y * k) := by
  obtain ⟨hfk, hpos⟩ := isPositive_iff.mp hk
  by_cases hy : y.isFinite = true
  · exact h.mul hy hfk (lt_iff.mp hpos).2.2.le
  · obtain ⟨s, hs⟩ := form_infinity h.isNaN hy
    have hform := form_infinity_mul_pos hs hk
    have hvalue : value (y * k) = y.value := by rw [value, value, hform, hs]
    refine ⟨?_, ?_, ?_⟩
    · rw [isNaN_eq_false, hform]
      simp
    · rw [hvalue]
      exact h.nonneg
    · rw [hvalue]
      exact h.nonpos

theorem Along.add (h : Along x y) (hy : y.isFinite = true) (h' : Along x z) : Along x (y + z) := by
  by_cases hz : z.isFinite = true
  · exact along_of_rounds (rounds_add hy hz) (fun hx => add_nonneg (h.nonneg hx) (h'.nonneg hx))
      fun hx => add_nonpos (h.nonpos hx) (h'.nonpos hx)
  · obtain ⟨s, hs⟩ := form_infinity h'.isNaN hz
    have hform := form_finite_add_infinity hy hs
    have hvalue : value (y + z) = z.value := by rw [value, value, hform, hs]
    refine ⟨?_, ?_, ?_⟩
    · rw [isNaN_eq_false, hform]
      simp
    · rw [hvalue]
      exact h'.nonneg
    · rw [hvalue]
      exact h'.nonpos

end

/-! ## The sign bit -/

/-- The sign of a form; that of a NaN does not matter. -/
def formSign : UnpackedFloat → Sign
  | .notANumber => .positive
  | .zero s | .infinity s | .finite s _ _ _ => s

theorem unpackSign_eq_zero_iff (w : UInt32) :
    @unpackSign .binary32 w.toBitVec = 0#1 ↔ w < 0x80000000 := by
  have hbit : (@unpackSign .binary32 w.toBitVec).toNat = w.toNat / 2 ^ 31 := by
    have hlt := w.toNat_lt
    change (BitVec.extractLsb 31 31 w.toBitVec).toNat = _
    rw [BitVec.extractLsb_toNat, Nat.shiftRight_eq_div_pow, UInt32.toNat_toBitVec]
    omega
  rw [← BitVec.toNat_inj, hbit, UInt32.lt_iff_toNat_lt]
  change w.toNat / 2 ^ 31 = 0 ↔ w.toNat < 2 ^ 31
  omega

theorem toBits_lt_iff {x : Scalar} (hx : x.isNaN = false) :
    x.toBits < 0x80000000 ↔ formSign x.form = .positive := by
  have hsign : formSign x.form = Sign.ofBitVec (@unpackSign .binary32 x.toBits.toBitVec) := by
    have hn := isNaN_eq_false.mp hx
    have hform : x.form = unpack .binary32 x.toBits.toBitVec := rfl
    rw [hform] at hn ⊢
    unfold unpack at hn ⊢
    dsimp only at hn ⊢
    split_ifs at hn ⊢
    · rfl
    · exact absurd rfl hn
    · rfl
    · rfl
    · rfl
  rw [hsign, ← unpackSign_eq_zero_iff, Sign.ofBitVec]
  split_ifs with h <;> simp [h]

theorem formSign_of_value (u : UnpackedFloat) : (0 < formValue u → formSign u = .positive) ∧
    (formValue u < 0 → formSign u = .negative) := by
  cases u with
  | notANumber | zero s => exact ⟨fun h => absurd h (lt_irrefl 0), fun h => absurd h (lt_irrefl 0)⟩
  | infinity s =>
    cases s with
    | positive => exact ⟨fun _ => rfl, fun h => by norm_num at h⟩
    | negative => exact ⟨fun h => by norm_num at h, fun _ => rfl⟩
  | finite s m e hm =>
    have hpos := magnitude_pos hm e
    cases s with
    | positive =>
      rw [formValue_finite_pos]
      exact ⟨fun _ => rfl, fun h => absurd h hpos.not_gt⟩
    | negative =>
      rw [formValue_finite_neg]
      exact ⟨fun h => absurd h (by linarith), fun _ => rfl⟩

/-- A NaN stands for nothing. -/
theorem isNaN_of_value_ne_zero {x : Scalar} (h : x.value ≠ 0) : x.isNaN = false := by
  rw [isNaN_eq_false]
  intro hnone
  rw [value, hnone] at h
  exact h rfl

theorem signum_of_pos {x : Scalar} (h : 0 < x.value) : signum x = 1.0 := by
  have hn := isNaN_of_value_ne_zero h.ne'
  have hsign := (formSign_of_value x.form).1 h
  rw [signum, if_neg (by rw [hn]; decide), if_pos ((toBits_lt_iff hn).mpr hsign)]

theorem signum_of_neg {x : Scalar} (h : x.value < 0) : signum x = -1.0 := by
  have hn := isNaN_of_value_ne_zero h.ne
  have hsign := (formSign_of_value x.form).2 h
  have hlarge : ¬x.toBits < 0x80000000 := by
    rw [toBits_lt_iff hn, hsign]
    exact fun hpositive => by cases hpositive
  rw [signum, if_neg (by rw [hn]; decide), if_neg hlarge]

/-! ## Results that do not exceed one -/

/-- `y` goes along with `x` and does not exceed one. -/
structure Eases (x y : Scalar) : Prop extends Along x y, Within 0 y

section

variable {g x y : Scalar}

theorem Eases.refl (hx : Within 0 x) : Eases x x :=
  ⟨Along.refl (isNaN_of_isFinite hx.isFinite), hx⟩

theorem Eases.mul_share (h : Eases x y) (hg : Share g) : Eases x (y * g) :=
  ⟨h.mul h.isFinite hg.isFinite hg.value_nonneg, h.toWithin.mul hg.within (by decide)⟩

theorem Eases.share_mul (h : Eases x y) (hg : Share g) : Eases x (g * y) :=
  ⟨h.mul_left h.isFinite hg.isFinite hg.value_nonneg, hg.within.mul h.toWithin (by decide)⟩

theorem share_abs (hx : Within 0 x) : Share x.abs := by
  have hn := isNaN_of_isFinite hx.isFinite
  refine ⟨nonneg_abs hn, ?_⟩
  rw [le_iff_value (by rwa [isNaN_abs]) rfl, value_abs, value_one]
  exact hx.abs_le

theorem share_square (hx : Within 0 x) : Share (x * x) := by
  have hrounds := (rounds_mul hx.isFinite hx.isFinite).faithful
  refine ⟨hrounds.le_of_value_le isNaN_zero ?_, hrounds.le_of_le_value rfl ?_⟩
  · rw [value_zero]
    exact mul_self_nonneg _
  · rw [value_one, ← abs_mul_abs_self]
    exact mul_le_one₀ hx.abs_le (abs_nonneg _) hx.abs_le

/-- Multiplying with a sign is exact. -/
theorem value_signum_mul (hx : x.value ≠ 0) (hy : y.isFinite = true) :
    Float32.isFinite (x.signum * y) = true ∧
      ((0 < x.value ∧ value (x.signum * y) = y.value) ∨
        (x.value < 0 ∧ value (x.signum * y) = -y.value)) := by
  have hyn := isNaN_of_isFinite hy
  rcases lt_or_gt_of_ne hx with hneg | hpos
  · have hrounds := (rounds_mul (x := -1.0) rfl hy).faithful
    rw [value_neg, value_one, neg_one_mul] at hrounds
    rw [signum_of_neg hneg]
    refine ⟨hrounds.isFinite hy (by rw [abs_neg]), Or.inr ⟨hneg, ?_⟩⟩
    exact hrounds.value_eq (g := -y) (by rw [isNaN_neg, hyn]) (value_neg y)
  · have hrounds := (rounds_mul (x := 1.0) rfl hy).faithful
    rw [value_one, one_mul] at hrounds
    rw [signum_of_pos hpos]
    exact ⟨hrounds.isFinite hy le_rfl, Or.inl ⟨hpos, hrounds.value_eq hyn rfl⟩⟩

theorem eases_stretched {w : Scalar} (hw : 0.0 ≤ w) (hw' : w < 0.5) (hx : Within 0 x)
    (houtside : ¬x.abs ≤ w) : Eases x (x.signum * (x.abs - w) / (1.0 - w)) := by
  have habs := share_abs hx
  have hfw : w.isFinite = true := isFinite_of_mem rfl rfl hw (Scalar.le_of_lt hw')
  have hw0 : 0 ≤ w.value := Scalar.value_nonneg hw
  have hhalf : w.value < 1 / 2 := by
    have hform : form 0.5 = .finite .positive (2 ^ 23) (-24) (by decide) := rfl
    have hlt := (lt_iff.mp hw').2.2
    rw [value_of_form hform] at hlt
    norm_num at hlt ⊢
    exact hlt
  have hlt : w.value < |x.value| := by
    rw [le_iff_value (isNaN_of_isFinite habs.isFinite) (isNaN_of_isFinite hfw), value_abs,
      not_le] at houtside
    exact houtside
  have hx1 : |x.value| ≤ 1 := hx.abs_le
  -- What remains beyond the edge is at most what is between the edge and full deflection.
  have hrest := rounds_sub habs.isFinite hfw
  have hwhole := rounds_sub (x := 1.0) rfl hfw
  rw [value_abs] at hrest
  rw [value_one] at hwhole
  have hfrest := (hrest.within (e := 0) (by decide) (by
    rw [abs_of_pos (by linarith), pow_zero]
    linarith)).isFinite
  have hfwhole := (hwhole.within (e := 0) (by decide) (by
    rw [abs_of_pos (by linarith), pow_zero]
    linarith)).isFinite
  have hle : value (x.abs - w) ≤ value (1.0 - w) :=
    (le_iff.mp (hrest.le hwhole (by linarith))).2.2
  have hrest0 : 0 ≤ value (x.abs - w) := Scalar.value_nonneg
    (hrest.faithful.le_of_value_le isNaN_zero (by rw [value_zero]; linarith))
  have hpos : 0 < value (1.0 - w) := by
    have hbelow := hwhole.pow_le_of_le (e := -1) (by decide) (by decide) (by norm_num; linarith)
    exact (show (0 : ℚ) < 2 ^ (-1 : ℤ) by norm_num).trans_le hbelow
  obtain ⟨hfsigned, hsigned⟩ := value_signum_mul (abs_pos.mp (hw0.trans_lt hlt)) hfrest
  have hquotient := rounds_div hfsigned hfwhole hpos.ne'
  refine ⟨along_of_rounds hquotient ?_ ?_, hquotient.within (by decide) ?_⟩
  · intro hx0
    rcases hsigned with ⟨-, hvalue⟩ | ⟨hneg, -⟩
    · rw [hvalue]
      exact div_nonneg hrest0 hpos.le
    · exact absurd hneg hx0.not_gt
  · intro hx0
    rcases hsigned with ⟨hpositive, -⟩ | ⟨-, hvalue⟩
    · exact absurd hpositive hx0.not_gt
    · rw [hvalue]
      exact div_nonpos_of_nonpos_of_nonneg (neg_nonpos.mpr hrest0) hpos.le
  · have hmagnitude : |value (x.signum * (x.abs - w))| = value (x.abs - w) := by
      rcases hsigned with ⟨-, hvalue⟩ | ⟨-, hvalue⟩ <;> rw [hvalue]
      · exact abs_of_nonneg hrest0
      · rw [abs_neg, abs_of_nonneg hrest0]
    rw [abs_div, hmagnitude, abs_of_pos hpos, pow_zero]
    exact (div_le_one hpos).mpr hle

/-- What remains of a stick outside the deadband still goes along with it. -/
theorem eases_deadband {w : Scalar} (hw : 0.0 ≤ w) (hw' : w < 0.5) (hx : Within 0 x) :
    Eases x (deadband w x) ∧ (x.abs ≤ w → value (deadband w x) = 0) := by
  unfold deadband
  split_ifs with hnone hinside
  · refine ⟨Eases.refl hx, fun hle => ?_⟩
    have hzero := (le_iff.mp (Scalar.le_trans hle hnone)).2.2
    rw [value_abs, value_zero] at hzero
    exact abs_nonpos_iff.mp hzero
  · exact ⟨⟨along_zero x, Share.zero.within⟩, fun _ => value_zero⟩
  · exact ⟨eases_stretched hw hw' hx hinside, fun hle => absurd hle hinside⟩

end

end Quadrotor.Scalar

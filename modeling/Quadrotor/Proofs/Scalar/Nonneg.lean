import Mathlib
import Quadrotor.Proofs.Scalar.Arithmetic

/-!
# Scalars that are not negative

A scalar that is a number and not negative stays one under sums and products, and taking one away
makes nothing larger. Positive infinity is among these scalars, and so is each operand here where
nothing is said of it: an overflow on the way does no harm.
-/

namespace Quadrotor.Scalar

open Float.Model (Format UnpackedFloat)
open Float.Model.UnpackedFloat

theorem nonneg_iff {x : Scalar} (hx : x.isNaN = false) : 0.0 ≤ x ↔ 0 ≤ x.value := by
  rw [le_iff_value rfl hx, value_zero]

theorem value_nonneg {x : Scalar} (h : 0.0 ≤ x) : 0 ≤ x.value := value_zero ▸ (le_iff.mp h).2.2

theorem isFinite_of_value_lt {x : Scalar} (h : 0.0 ≤ x) (hlt : x.value < 2 ^ 128) :
    x.isFinite = true := by
  rw [isFinite_iff, abs_of_nonneg (value_nonneg h)]
  exact ⟨(le_iff.mp h).2.1, hlt⟩

/-! ## Infinity -/

/-- An infinity that is not negative is the positive one. -/
theorem form_of_nonneg {x : Scalar} (h : 0.0 ≤ x) (hf : ¬x.isFinite = true) :
    x.form = .infinity .positive := by
  obtain ⟨_, hx, hv⟩ := le_iff.mp h
  obtain ⟨s, hs⟩ := form_infinity hx hf
  cases s with
  | positive => exact hs
  | negative =>
    rw [value_zero, value, hs, formValue_infinity_neg] at hv
    norm_num at hv

theorem value_infinity {x : Scalar} (h : x.form = .infinity .positive) : x.value = 2 ^ 128 := by
  rw [value, h, formValue_infinity_pos]

theorem nonneg_of_form {x : Scalar} (h : x.form = .infinity .positive) : 0.0 ≤ x := by
  refine le_iff.mpr ⟨rfl, isNaN_eq_false.mpr (by rw [h]; simp), ?_⟩
  rw [value_zero, value_infinity h]
  positivity

/-- No number is beyond the infinities. -/
theorem abs_value_le {x : Scalar} (hx : x.isNaN = false) : |x.value| ≤ 2 ^ 128 := by
  by_cases hf : x.isFinite = true
  · exact (isFinite_iff.mp hf).2.le
  · obtain ⟨s, hs⟩ := form_infinity hx hf
    rw [value, hs]
    cases s <;> simp

/-! ## Sums and products -/

theorem form_infinity_add {x y : Scalar} (hx : x.isFinite = true)
    (hy : y.form = .infinity .positive) : (x + y).form = .infinity .positive := by
  change x.form.isFinite = true at hx
  rw [form_add, hy]
  cases h : x.form with
  | notANumber | infinity t => rw [h] at hx; cases hx
  | zero t | finite t => exact repack_infinity .positive

/-- A sum is finite only if what it starts from is. -/
theorem isFinite_left_of_add {x y : Scalar} (h : (x + y).isFinite = true) : x.isFinite = true := by
  by_contra hf
  change (x + y).form.isFinite = true at h
  rw [form_add] at h
  cases hx : x.isNaN with
  | true =>
    have hnone : x.form = .notANumber := by
      by_contra hne
      rw [isNaN_eq_false.mpr hne] at hx
      cases hx
    have hadd : UnpackedFloat.add .binary32 .notANumber y.form = .notANumber := by
      cases y.form <;> rfl
    rw [hnone, hadd] at h
    cases h
  | false =>
    obtain ⟨s, hs⟩ := form_infinity hx hf
    have hadd : UnpackedFloat.add .binary32 (.infinity s) y.form = .infinity s ∨
        UnpackedFloat.add .binary32 (.infinity s) y.form = .notANumber := by
      cases hy : y.form with
      | notANumber => exact Or.inr rfl
      | zero t | finite t => exact Or.inl rfl
      | infinity t =>
        cases s <;> cases t
        · exact Or.inl rfl
        · exact Or.inr rfl
        · exact Or.inr rfl
        · exact Or.inl rfl
    rw [hs] at h
    rcases hadd with hadd | hadd <;> rw [hadd] at h
    · rw [repack_infinity] at h
      cases h
    · cases h

theorem nonneg_add {x y : Scalar} (hx : 0.0 ≤ x) (hy : 0.0 ≤ y) : 0.0 ≤ x + y := by
  by_cases hfx : x.isFinite = true
  · by_cases hfy : y.isFinite = true
    · refine (faithful_add hfx hfy).le_of_value_le rfl ?_
      exact add_nonneg (le_iff.mp hx).2.2 (le_iff.mp hy).2.2
    · exact nonneg_of_form (form_infinity_add hfx (form_of_nonneg hy hfy))
  · apply nonneg_of_form
    by_cases hfy : y.isFinite = true
    · exact form_add_infinity (form_of_nonneg hx hfx) hfy
    · rw [form_add, form_of_nonneg hx hfx, form_of_nonneg hy hfy]
      exact repack_infinity .positive

theorem form_mul (x y : Scalar) : (x * y).form = repack (UnpackedFloat.mul .binary32 x.form y.form) :=
  rfl

theorem nonneg_mul_of_isFinite {x y : Scalar} (hx : 0.0 ≤ x) (hy : 0.0 ≤ y)
    (hfx : x.isFinite = true) (hfy : y.isFinite = true) : 0.0 ≤ x * y :=
  (faithful_mul hfx hfy).le_of_value_le rfl
    (mul_nonneg (le_iff.mp hx).2.2 (le_iff.mp hy).2.2)

theorem form_infinity_mul {x y : Scalar} (hx : x.form = .infinity .positive) (hy : 0.0 < y)
    (hfy : y.isFinite = true) : (x * y).form = .infinity .positive := by
  have hpos : 0 < y.value := (lt_iff.mp hy).2.2
  change y.form.isFinite = true at hfy
  rw [form_mul, hx]
  rw [value] at hpos
  cases h : y.form with
  | notANumber | infinity t => rw [h] at hfy; cases hfy
  | zero t => rw [h] at hpos; exact absurd hpos (lt_irrefl 0)
  | finite t n e hn =>
    cases t with
    | positive => exact repack_infinity .positive
    | negative =>
      rw [h, formValue_finite_neg] at hpos
      linarith [magnitude_pos hn e]

/-- The product with a positive finite scalar. Infinity times zero would be no number. -/
theorem nonneg_mul {x y : Scalar} (hx : 0.0 ≤ x) (hy : 0.0 < y) (hfy : y.isFinite = true) :
    0.0 ≤ x * y := by
  by_cases hfx : x.isFinite = true
  · exact nonneg_mul_of_isFinite hx (le_of_lt hy) hfx hfy
  · exact nonneg_of_form (form_infinity_mul (form_of_nonneg hx hfx) hy hfy)

/-- Nothing is left of a finite scalar that is divided by infinity. -/
theorem form_div_infinity {x y : Scalar} (hx : x.isFinite = true)
    (hy : y.form = .infinity .positive) : ∃ s, (x / y).form = .zero s := by
  have hform : (x / y).form = repack (UnpackedFloat.div .binary32 x.form y.form) := rfl
  change x.form.isFinite = true at hx
  rw [hform, hy]
  cases h : x.form with
  | notANumber | infinity t => rw [h] at hx; cases hx
  | zero t | finite t => exact ⟨_, repack_zero _⟩

/-- The quotient of a finite scalar by a positive one, which may be infinite. -/
theorem nonneg_div {x y : Scalar} (hx : 0.0 ≤ x) (hfx : x.isFinite = true) (hy : 0.0 < y) :
    0.0 ≤ x / y := by
  have hy0 : 0 < y.value := (lt_iff.mp hy).2.2
  by_cases hfy : y.isFinite = true
  · refine (faithful_div hfx hfy hy0.ne').le_of_value_le rfl ?_
    rw [value_zero]
    exact div_nonneg (value_nonneg hx) hy0.le
  · obtain ⟨s, hs⟩ := form_div_infinity hfx (form_of_nonneg (le_of_lt hy) hfy)
    refine (nonneg_iff (isNaN_eq_false.mpr (by rw [hs]; simp))).mpr ?_
    rw [value, hs, formValue_zero]

theorem zero_mul_eq {y : Scalar} (hy : y.isFinite = true) :
    Float32.isFinite (0.0 * y) = true ∧ value (0.0 * y) = 0 := by
  have h := faithful_mul (x := 0.0) rfl hy
  rw [value_zero, zero_mul] at h
  exact ⟨h.isFinite (g := 0.0) rfl (by rw [value_zero]), h.value_eq rfl value_zero⟩

theorem div_one_eq {x : Scalar} (hx : x.isFinite = true) :
    Float32.isFinite (x / 1.0) = true ∧ value (x / 1.0) = x.value := by
  have h := faithful_div hx (y := 1.0) rfl (by rw [value_one]; exact one_ne_zero)
  rw [value_one, div_one] at h
  exact ⟨h.isFinite hx le_rfl, h.value_eq (isNaN_of_isFinite hx) rfl⟩

/-! ## Differences -/

theorem form_sub_infinity {x d : Scalar} (hx : x.isFinite = true)
    (hd : d.form = .infinity .positive) : (x - d).form = .infinity .negative := by
  change x.form.isFinite = true at hx
  rw [form_sub, hd]
  cases h : x.form with
  | notANumber | infinity t => rw [h] at hx; cases hx
  | zero t | finite t => exact repack_infinity .negative

/-- Nothing grows when something is taken away; only infinity less infinity is no number. -/
theorem isNaN_or_sub_le {x d : Scalar} (hx : 0.0 ≤ x) (hd : 0.0 ≤ d) :
    (x - d).isNaN = true ∨ x - d ≤ x := by
  have hxn : x.isNaN = false := (le_iff.mp hx).2.1
  have hxv : 0 ≤ x.value := value_nonneg hx
  have hdv : 0 ≤ d.value := value_nonneg hd
  by_cases hfx : x.isFinite = true
  · right
    by_cases hfd : d.isFinite = true
    · refine (faithful_sub hfx hfd).le_of_le_value hxn ?_
      linarith
    · have hform := form_sub_infinity hfx (form_of_nonneg hd hfd)
      refine le_iff.mpr ⟨isNaN_eq_false.mpr (by rw [hform]; simp), hxn, ?_⟩
      rw [value, hform, formValue_infinity_neg]
      linarith
  · cases hn : (x - d).isNaN with
    | true => exact Or.inl rfl
    | false =>
      right
      refine le_iff.mpr ⟨hn, hxn, ?_⟩
      rw [value_infinity (form_of_nonneg hx hfx)]
      exact (le_abs_self _).trans (abs_value_le hn)

/-! ## The positive part -/

/-- The larger of anything and zero is a number and not negative. -/
theorem nonneg_maxNum (x : Scalar) : 0.0 ≤ maxNum x 0.0 := le_maxNum rfl x

theorem maxNum_le {x t : Scalar} (ht : 0.0 ≤ t) (hx : x.isNaN = true ∨ x ≤ t) :
    maxNum x 0.0 ≤ t := by
  unfold maxNum
  split_ifs with hn hlt
  · exact ht
  · exact ht
  · exact hx.resolve_left hn

theorem value_maxNum {x : Scalar} (hx : x.isNaN = false) :
    value (maxNum x 0.0) = max x.value 0 := by
  unfold maxNum
  rw [if_neg (by rw [hx]; decide)]
  split_ifs with h
  · exact (max_eq_right (lt_iff.mp h).2.2.le).symm
  · rw [lt_iff_value hx rfl, not_lt, value_zero] at h
    exact (max_eq_left h).symm

/-- A number that is not negative is zero where it is not positive. -/
theorem le_zero_iff {x : Scalar} (h : 0.0 ≤ x) : x ≤ 0.0 ↔ x.value = 0 := by
  have hx : x.isNaN = false := (le_iff.mp h).2.1
  rw [le_iff_value hx rfl, value_zero]
  exact ⟨fun hle => le_antisymm hle (value_nonneg h), fun heq => heq.le⟩

end Quadrotor.Scalar

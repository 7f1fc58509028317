import Mathlib
import Quadrotor.Proofs.Scalar.Fields

/-!
# Quotients

A quotient has the sign that its operands give it, and zero counts: a divisor of zero has a sign
too, and gives infinity with it. What is said here of a scalar that is not below zero holds of a NaN
as well, which no comparison finds there. Of two divisors the larger gives the smaller quotient.
-/

namespace Quadrotor.Scalar

open Float.Model (UnpackedFloat)
open Float.Model.UnpackedFloat

variable {x y z : Scalar}

/-! ## Opposite operands -/

theorem isNaN_div_right (x : Scalar) (hy : y.isNaN = true) : (x / y).isNaN = true := by
  have hdiv : UnpackedFloat.div .binary32 x.form .notANumber = .notANumber := by
    cases x.form <;> rfl
  rw [isNaN_iff, form_div, isNaN_iff.mp hy, hdiv, repack_notANumber]

theorem div_sign_neg (s t : Sign) : s / -t = -(s / t) := by
  cases s <;> cases t <;> rfl

protected theorem div_neg (x y : Scalar) : x / -y = -(x / y) := by
  have hforms : ∀ a b,
      UnpackedFloat.div .binary32 a b.neg = (UnpackedFloat.div .binary32 a b).neg := by
    intro a b
    cases a <;> cases b <;> simp only [UnpackedFloat.div, UnpackedFloat.neg, div_sign_neg]
    exact roundWithAccuracy_neg _ _ _ _
  refine form_injective ?_
  rw [form_div, form_neg, hforms, repack_neg, form_neg, form_div]

protected theorem neg_div_neg (x y : Scalar) : -x / -y = x / y := by
  rw [Scalar.neg_div, Scalar.div_neg, Scalar.neg_neg]

theorem neg_lt_zero_iff : -x < 0.0 ↔ 0.0 < x := by
  rw [lt_iff, lt_iff, isNaN_neg, value_neg, value_zero, neg_lt_zero]
  tauto

/-- A negative number loses its sign bit with its sign. -/
theorem isNegative_neg (hy : y.isNaN = false) (hs : y.isNegative = true) :
    isNegative (-y) = false := by
  have hpositive : formSign y.form ≠ .positive := by
    rw [Ne, ← isNegative_eq_false_iff hy, hs]
    decide
  rw [isNegative_eq_false_iff ((isNaN_neg y).trans hy), form_neg]
  have hn := isNaN_eq_false.mp hy
  cases h : y.form with
  | notANumber => exact absurd h hn
  | infinity s | zero s | finite s =>
    rw [h] at hpositive
    cases s with
    | positive => exact absurd rfl hpositive
    | negative => rfl

/-! ## Infinities -/

theorem form_infinity_div {s : Sign} (hx : x.form = .infinity s) (hy : y.isFinite = true) :
    (x / y).form = .infinity (s / formSign y.form) := by
  change y.form.isFinite = true at hy
  rw [form_div, hx]
  cases h : y.form with
  | notANumber | infinity t => rw [h] at hy; cases hy
  | zero t | finite t => exact repack_infinity _

theorem isNaN_or_isZero_div {s : Sign} (x : Scalar) (hy : y.form = .infinity s) :
    (x / y).isNaN = true ∨ (x / y).IsZero := by
  rw [isNaN_iff, IsZero, form_div, hy]
  cases x.form with
  | notANumber | infinity t => exact Or.inl repack_notANumber
  | zero t | finite t => exact Or.inr ⟨_, repack_zero _⟩

theorem form_mul_infinity (hx : 0.0 < x) : (x * infinity).form = .infinity .positive := by
  rw [Scalar.mul_comm]
  by_cases hf : x.isFinite = true
  · exact form_infinity_mul rfl hx hf
  · rw [form_mul, form_of_nonneg (le_of_lt hx) hf]
    exact repack_infinity _

/-- A factor of one or more does not make a positive number vanish. -/
theorem pos_mul (hx : 0.0 < x) (hy : 1.0 ≤ y) (hfy : y.isFinite = true) : 0.0 < x * y := by
  have hy0 : 0.0 < y := lt_of_lt_of_le (by decide) hy
  by_cases hf : x.isFinite = true
  · have hone : (1 : ℚ) ≤ y.value := value_one ▸ (le_iff.mp hy).2.2
    refine lt_of_lt_of_le hx ((faithful_mul hf hfy).le_of_value_le (lt_iff.mp hx).2.1 ?_)
    exact le_mul_of_one_le_right (value_nonneg (le_of_lt hx)) hone
  · have hform := form_infinity_mul (form_of_nonneg (le_of_lt hx) hf) hy0 hfy
    rw [lt_iff_value isNaN_zero (isNaN_eq_false.mpr (by rw [hform]; simp)), value_infinity hform,
      value_zero]
    positivity

/-! ## Not below zero -/

theorem not_lt_zero_iff : ¬x < 0.0 ↔ x.isNaN = true ∨ 0.0 ≤ x := by
  cases hx : x.isNaN with
  | true =>
    refine iff_of_true (fun h => ?_) (Or.inl rfl)
    exact Bool.false_ne_true ((lt_iff.mp h).1.symm.trans hx)
  | false =>
    rw [not_lt_iff_le hx isNaN_zero]
    simp

theorem not_neg_mul (hx : ¬x < 0.0) (hy : 0.0 ≤ y) : ¬x * y < 0.0 := by
  rw [not_lt_zero_iff] at hx ⊢
  rcases hx with hn | hx
  · exact Or.inl (isNaN_mul_left hn y)
  · exact isNaN_or_nonneg_mul hx hy

theorem isNaN_or_nonneg_div_zero (hx : 0.0 ≤ x) (hy : y.form = .zero .positive) :
    (x / y).isNaN = true ∨ 0.0 ≤ x / y := by
  rcases (value_nonneg hx).eq_or_lt with h0 | hpos
  · obtain ⟨s, hs⟩ := (value_eq_zero_iff (le_iff.mp hx).2.1).mp h0.symm
    refine Or.inl (isNaN_iff.mpr ?_)
    rw [form_div, hs, hy]
    exact repack_notANumber
  · have hsign := (formSign_of_value x.form).1 hpos
    refine Or.inr (nonneg_of_form ?_)
    rw [form_div, hy]
    cases h : x.form with
    | notANumber | zero s =>
      rw [value, h] at hpos
      exact absurd hpos (lt_irrefl 0)
    | infinity s | finite s =>
      rw [h] at hsign
      cases hsign
      exact repack_infinity _

/-- A divisor without a sign bit makes no negative number, not even if it is zero. -/
theorem not_neg_div (hx : ¬x < 0.0) (hy : y.isFinite = true) (hs : y.isNegative = false) :
    ¬x / y < 0.0 := by
  rw [not_lt_zero_iff] at hx ⊢
  rcases hx with hn | hx
  · exact Or.inl (isNaN_div_left hn y)
  · have hn := isNaN_of_isFinite hy
    have hsign := (isNegative_eq_false_iff hn).mp hs
    rcases lt_trichotomy y.value 0 with hneg | h0 | hpos
    · rw [(formSign_of_value y.form).2 hneg] at hsign
      cases hsign
    · obtain ⟨t, ht⟩ := (value_eq_zero_iff hn).mp h0
      rw [ht] at hsign
      cases hsign
      exact isNaN_or_nonneg_div_zero hx ht
    · have hy0 : 0.0 < y := lt_iff.mpr ⟨isNaN_zero, hn, by rwa [value_zero]⟩
      exact Or.inr (nonneg_div_isPositive hx (isPositive_iff.mpr ⟨hy, hy0⟩))

/-- Nothing or no number is left of what an infinity or a NaN divides. -/
theorem not_neg_div_of_not_isFinite (x : Scalar) (hy : ¬y.isFinite = true) : ¬x / y < 0.0 := by
  rw [not_lt_zero_iff]
  cases hn : y.isNaN with
  | true => exact Or.inl (isNaN_div_right x hn)
  | false =>
    obtain ⟨s, hs⟩ := form_infinity hn hy
    refine (isNaN_or_isZero_div x hs).imp_right fun hzero => ?_
    obtain ⟨hn', h0⟩ := isZero_iff.mp hzero
    exact (nonneg_iff hn').mpr h0.ge

/-! ## The order of quotients -/

theorem div_le_div_of_le (hx : 0.0 ≤ x) (hfx : x.isFinite = true)
    (hy : isPositive y = true) (hz : isPositive z = true) (h : y ≤ z) : x / z ≤ x / y := by
  obtain ⟨hfy, hy0⟩ := isPositive_iff.mp hy
  obtain ⟨hfz, hz0⟩ := isPositive_iff.mp hz
  have hypos : 0 < y.value := (lt_iff.mp hy0).2.2
  have hzpos : 0 < z.value := (lt_iff.mp hz0).2.2
  have hle : x.value / z.value ≤ x.value / y.value :=
    div_le_div_of_nonneg_left (value_nonneg hx) hypos (le_iff.mp h).2.2
  exact (rounds_div hfx hfz hzpos.ne').le (rounds_div hfx hfy hypos.ne') hle

end Quadrotor.Scalar

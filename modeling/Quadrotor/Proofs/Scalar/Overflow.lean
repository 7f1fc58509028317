import Mathlib
import Quadrotor.Proofs.Checks
import Quadrotor.Proofs.Scalar.Mean

/-!
# What overflows and what is no number

Operations on numbers give a number, except where an infinity meets another one or a zero. As long
as the magnitudes are bounded by powers of two whose exponents add up to less than 128, no result is
infinite, so none of these cases arises. A NaN operand makes the result a NaN.
-/

namespace Quadrotor.Scalar

open Float.Model (Format UnpackedFloat)
open Float.Model.UnpackedFloat

/-! ## Results that are no number -/

section

variable {x y : Scalar}

theorem isNaN_iff : x.isNaN = true ↔ x.form = .notANumber := by
  rw [← not_iff_not, Bool.not_eq_true, isNaN_eq_false]

theorem isNaN_zero : Float32.isNaN 0.0 = false := by decide

theorem repack_notANumber : repack .notANumber = .notANumber := rfl

theorem isNaN_add_left (hx : x.isNaN = true) (y : Scalar) : (x + y).isNaN = true := by
  have hadd : UnpackedFloat.add .binary32 .notANumber y.form = .notANumber := by
    cases y.form <;> rfl
  rw [isNaN_iff, form_add, isNaN_iff.mp hx, hadd, repack_notANumber]

theorem isNaN_add_right (x : Scalar) (hy : y.isNaN = true) : (x + y).isNaN = true := by
  have hadd : UnpackedFloat.add .binary32 x.form .notANumber = .notANumber := by
    cases x.form <;> rfl
  rw [isNaN_iff, form_add, isNaN_iff.mp hy, hadd, repack_notANumber]

/-- A finite scalar does not change an infinity that is added to it. -/
theorem form_finite_add_infinity {s : Float.Model.UnpackedFloat.Sign} (hx : x.isFinite = true)
    (hy : y.form = .infinity s) : (x + y).form = .infinity s := by
  change x.form.isFinite = true at hx
  rw [form_add, hy]
  cases h : x.form with
  | notANumber | infinity t =>
    rw [h] at hx
    cases hx
  | zero t | finite t => exact repack_infinity s

/-- A sum with a finite scalar is a number if the other one is. -/
theorem isNaN_finite_add_iff (hx : x.isFinite = true) : (x + y).isNaN = true ↔ y.isNaN = true := by
  refine ⟨fun h => ?_, isNaN_add_right x⟩
  by_contra hy
  rw [Bool.not_eq_true] at hy
  rw [isNaN_iff] at h
  by_cases hfy : y.isFinite = true
  · exact (faithful_add hx hfy).1 h
  · obtain ⟨s, hs⟩ := form_infinity hy hfy
    cases (form_finite_add_infinity hx hs).symm.trans h

/-- A difference from a finite scalar is finite only if what is taken away is. -/
theorem isFinite_of_finite_sub (hx : x.isFinite = true) (h : (x - y).isFinite = true) :
    y.isFinite = true := by
  rw [← isFinite_neg]
  by_contra hy
  change (x - y).form.isFinite = true at h
  rw [form_sub_eq] at h
  have hsum := isNaN_finite_add_iff (y := -y) hx
  cases hn : Float32.isNaN (-y) with
  | true =>
    rw [isNaN_iff.mp (hsum.mpr hn)] at h
    cases h
  | false =>
    obtain ⟨s, hs⟩ := form_infinity hn hy
    rw [form_finite_add_infinity hx hs] at h
    cases h

/-- A finite scalar less a number is a number. -/
theorem isNaN_finite_sub (hx : x.isFinite = true) (hy : y.isNaN = false) :
    (x - y).isNaN = false := by
  have hneg : Float32.isNaN (-y) = false := by rw [isNaN_neg, hy]
  rw [isNaN_eq_false, form_sub_eq, ← isNaN_eq_false, ← Bool.not_eq_true, isNaN_finite_add_iff hx,
    hneg]
  exact Bool.false_ne_true

theorem nonneg_abs (hx : x.isNaN = false) : 0.0 ≤ x.abs := by
  rw [nonneg_iff (by rwa [isNaN_abs]), value_abs]
  exact abs_nonneg _

theorem neg_le_zero (h : 0.0 ≤ x) : -x ≤ 0.0 := by
  rw [le_iff_value (by rw [isNaN_neg, (le_iff.mp h).2.1]) rfl, value_neg, value_zero, neg_nonpos]
  exact value_nonneg h

/-- Limiting makes a number of a number, and of nothing else. -/
theorem isNaN_limit {lo hi : Scalar} (h : lo ≤ hi) (x : Scalar) :
    (limit lo hi x).isNaN = x.isNaN := by
  cases hx : x.isNaN with
  | true =>
    have hlow : ¬x < lo := fun hlt => Bool.false_ne_true ((lt_iff.mp hlt).1.symm.trans hx)
    have hhigh : ¬hi < x := fun hlt => Bool.false_ne_true ((lt_iff.mp hlt).2.1.symm.trans hx)
    rw [limit, if_neg hlow, if_neg hhigh, hx]
  | false => exact (le_iff.mp (limit_mem h hx).1).2.1

/-- A value in the range is its own limit. -/
theorem limit_eq_self {lo hi : Scalar} (hlo : lo ≤ x) (hhi : x ≤ hi) :
    limit lo hi x = x := by
  have hlow : ¬x < lo := fun h => (lt_iff.mp h).2.2.not_ge (le_iff.mp hlo).2.2
  have hhigh : ¬hi < x := fun h => (lt_iff.mp h).2.2.not_ge (le_iff.mp hhi).2.2
  rw [limit, if_neg hlow, if_neg hhigh]

theorem isNaN_mul_left (hx : x.isNaN = true) (y : Scalar) : (x * y).isNaN = true := by
  have hmul : UnpackedFloat.mul .binary32 .notANumber y.form = .notANumber := by
    cases y.form <;> rfl
  rw [isNaN_iff, form_mul, isNaN_iff.mp hx, hmul, repack_notANumber]

theorem value_eq_zero_iff (hx : x.isNaN = false) : x.value = 0 ↔ ∃ s, x.form = .zero s := by
  have hn := isNaN_eq_false.mp hx
  rw [value]
  cases h : x.form with
  | notANumber => exact absurd h hn
  | zero s => exact iff_of_true rfl ⟨s, rfl⟩
  | infinity s => cases s <;> simp
  | finite s m e hm =>
    have hpos := magnitude_pos hm e
    cases s
    · rw [formValue_finite_neg]
      simp [hpos.ne']
    · rw [formValue_finite_pos]
      simp [hpos.ne']

theorem mul_comm_form (x y : Scalar) : (x * y).form = (y * x).form := by
  have hsign : ∀ s t : Sign, s * t = t * s := by
    intro s t
    cases s <;> cases t <;> rfl
  rw [form_mul, form_mul]
  cases x.form <;> cases y.form <;>
    simp only [UnpackedFloat.mul, hsign, Nat.mul_comm, Int.add_comm]

/-- The product of a number with a finite scalar is no number if an infinity is multiplied by
zero. -/
theorem isNaN_mul_finite_iff (hy : y.isFinite = true) :
    (x * y).isNaN = true ↔ x.isNaN = true ∨ (¬x.isFinite = true ∧ y.value = 0) := by
  cases hx : x.isNaN with
  | true => exact iff_of_true (isNaN_mul_left hx y) (Or.inl rfl)
  | false =>
    rw [iff_of_false Bool.false_ne_true not_false, false_or]
    by_cases hfx : x.isFinite = true
    · refine iff_of_false ?_ fun h => h.1 hfx
      rw [(faithful_mul hfx hy).isNaN]
      exact Bool.false_ne_true
    · obtain ⟨s, hs⟩ := form_infinity hx hfx
      rw [and_iff_right hfx, value_eq_zero_iff (isNaN_of_isFinite hy), isNaN_iff, form_mul, hs]
      change y.form.isFinite = true at hy
      cases hform : y.form with
      | notANumber | infinity t =>
        rw [hform] at hy
        cases hy
      | zero t => exact iff_of_true repack_notANumber ⟨t, rfl⟩
      | finite t n e hn =>
        refine iff_of_false (fun h => ?_) fun ⟨_, h⟩ => by cases h
        cases (repack_infinity (s * t)).symm.trans h

/-- The quotient by a positive finite scalar; an infinity stays one. -/
theorem nonneg_div_isPositive (hx : 0.0 ≤ x) (hy : isPositive y = true) : 0.0 ≤ x / y := by
  obtain ⟨hfy, hpos⟩ := isPositive_iff.mp hy
  by_cases hfx : x.isFinite = true
  · exact nonneg_div hx hfx hpos
  · have hquotient : (x / y).form = repack (UnpackedFloat.div .binary32 x.form y.form) := rfl
    have hpos' : 0 < y.value := (lt_iff.mp hpos).2.2
    refine nonneg_of_form ?_
    rw [hquotient, form_of_nonneg hx hfx]
    change y.form.isFinite = true at hfy
    rw [value] at hpos'
    cases hform : y.form with
    | notANumber | infinity t =>
      rw [hform] at hfy
      cases hfy
    | zero t =>
      rw [hform, formValue_zero] at hpos'
      exact absurd hpos' (lt_irrefl 0)
    | finite t n e hn =>
      cases t with
      | positive => exact repack_infinity .positive
      | negative =>
        rw [hform, formValue_finite_neg] at hpos'
        linarith [magnitude_pos hn e]

end

/-! ## Magnitudes -/

theorem Share.within {g : Scalar} (h : Share g) : Within 0 g :=
  ⟨h.isFinite, by rw [abs_of_nonneg h.value_nonneg, pow_zero]; exact h.value_le_one⟩

theorem value_of_form {x : Scalar} {m : ℕ} {k : ℤ} {hm : 0 < m}
    (h : x.form = .finite .positive m k hm) : x.value = m * 2 ^ k := by
  rw [value, h, formValue_finite_pos]

theorem within_of_form {x : Scalar} {m e : ℕ} {k : ℤ} {hm : 0 < m}
    (h : x.form = .finite .positive m k hm) (hle : (m : ℚ) * 2 ^ k ≤ 2 ^ e) : Within e x := by
  refine ⟨?_, ?_⟩
  · change x.form.isFinite = true
    rw [h]
    rfl
  · rw [value_of_form h, abs_of_pos (magnitude_pos hm k)]
    exact hle

theorem share_confine {x : Scalar} (hx : x.isNaN = false) : Share (confine 0.0 1.0 x) :=
  ⟨(confine_mem 0.0 1.0 hx).1, (confine_mem 0.0 1.0 hx).2⟩

theorem Rounds.within {q : ℚ} {z : Scalar} {e : ℕ} (h : Rounds q z.form) (he : e < 128)
    (hq : |q| ≤ 2 ^ e) : Within e z := by
  obtain ⟨hf, hle⟩ := h.abs_le_of_le_pow (e := e) (by omega) (by omega) (by rwa [zpow_natCast])
  exact ⟨hf, hle.trans_eq (zpow_natCast 2 e)⟩

namespace Within

variable {a b : ℕ} {x y : Scalar}

theorem mono (h : Within a x) (hab : a ≤ b) : Within b x :=
  ⟨h.isFinite, h.abs_le.trans (pow_le_pow_right₀ one_le_two hab)⟩

/-- What lies in a range around zero. -/
theorem of_mem (h : Within a y) (hlow : -y ≤ x) (hhigh : x ≤ y) : Within a x := by
  obtain ⟨-, -, hlow'⟩ := le_iff.mp hlow
  obtain ⟨-, -, hhigh'⟩ := le_iff.mp hhigh
  rw [value_neg] at hlow'
  refine ⟨isFinite_of_mem (by rw [isFinite_neg]; exact h.isFinite) h.isFinite hlow hhigh, ?_⟩
  exact (abs_le'.mpr ⟨hhigh', neg_le.mp hlow'⟩).trans ((le_abs_self _).trans h.abs_le)

theorem mul (hx : Within a x) (hy : Within b y) (hab : a + b < 128) : Within (a + b) (x * y) := by
  refine (rounds_mul hx.isFinite hy.isFinite).within hab ?_
  rw [abs_mul, pow_add]
  exact mul_le_mul hx.abs_le hy.abs_le (abs_nonneg _) (by positivity)

theorem add (hx : Within a x) (hy : Within a y) (ha : a + 1 < 128) : Within (a + 1) (x + y) := by
  refine (rounds_add hx.isFinite hy.isFinite).within ha ((abs_add_le _ _).trans ?_)
  rw [pow_succ, mul_two]
  exact add_le_add hx.abs_le hy.abs_le

theorem sub (hx : Within a x) (hy : Within a y) (ha : a + 1 < 128) : Within (a + 1) (x - y) := by
  refine (rounds_sub hx.isFinite hy.isFinite).within ha ((abs_sub _ _).trans ?_)
  rw [pow_succ, mul_two]
  exact add_le_add hx.abs_le hy.abs_le

theorem div (hx : Within a x) (hy : y.isFinite = true) (hlow : 1 / 2 ^ b ≤ y.value)
    (hab : a + b < 128) : Within (a + b) (x / y) := by
  have hpow : (0 : ℚ) < 1 / 2 ^ b := by positivity
  have hpos : 0 < y.value := hpow.trans_le hlow
  refine (rounds_div hx.isFinite hy hpos.ne').within hab ?_
  rw [abs_div, abs_of_pos hpos, div_le_iff₀ hpos]
  calc |x.value| ≤ 2 ^ a * 1 := by rw [mul_one]; exact hx.abs_le
    _ = 2 ^ (a + b) * (1 / 2 ^ b) := by rw [pow_add]; field_simp
    _ ≤ 2 ^ (a + b) * y.value := by gcongr

end Within

theorem within_limitOrZero (x : Scalar) : Within 0 (limitOrZero (-1.0) 1.0 x) := by
  unfold limitOrZero
  split_ifs with hx
  · obtain ⟨hlow, hhigh⟩ := confine_mem (-1.0) 1.0 (isNaN_of_isFinite hx)
    exact Share.one.within.of_mem hlow hhigh
  · exact Share.zero.within

end Quadrotor.Scalar

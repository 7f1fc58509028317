import Mathlib
import Quadrotor.Proofs.Scalar.Format

/-!
# The order of scalars

Every scalar but a NaN has a rational value, and the comparisons of scalars are the comparisons of
their values. An infinity is given the first power of two that no finite scalar reaches, so it stands
where it should among the others. Ranges, limits, and the larger and the smaller of two scalars are
then described by values.
-/

namespace Quadrotor.Scalar

open Float.Model (Format UnpackedFloat)
open Float.Model.UnpackedFloat

/-- The number that a form stands for; an infinity counts as `±2 ^ 128`, and a NaN as nothing. -/
def formValue : UnpackedFloat → ℚ
  | .notANumber | .zero _ => 0
  | .infinity s => (s.apply 1 : ℤ) * 2 ^ 128
  | .finite s m e _ => (s.apply m : ℤ) * 2 ^ e

/-- The number that a scalar stands for; an infinity counts as `±2 ^ 128`, and a NaN as nothing. -/
def value (x : Scalar) : ℚ := formValue x.form

/-! ## Values of forms -/

@[simp] theorem formValue_zero (s : Sign) : formValue (.zero s) = 0 := rfl

@[simp] theorem formValue_infinity_neg : formValue (.infinity .negative) = -2 ^ 128 := by
  simp [formValue, Sign.apply]

@[simp] theorem formValue_infinity_pos : formValue (.infinity .positive) = 2 ^ 128 := by
  simp [formValue, Sign.apply]

@[simp] theorem formValue_finite_neg (m : Nat) (e : Int) (hm : 0 < m) :
    formValue (.finite .negative m e hm) = -(m * 2 ^ e) := by
  simp [formValue, Sign.apply]

@[simp] theorem formValue_finite_pos (m : Nat) (e : Int) (hm : 0 < m) :
    formValue (.finite .positive m e hm) = m * 2 ^ e := by
  simp [formValue, Sign.apply]

@[simp] theorem formValue_neg (u : UnpackedFloat) : formValue u.neg = -formValue u := by
  cases u with
  | notANumber => exact neg_zero.symm
  | zero s => exact neg_zero.symm
  | infinity s =>
    cases s
    · rw [formValue_infinity_neg, neg_neg]
      exact formValue_infinity_pos
    · rw [formValue_infinity_pos]
      exact formValue_infinity_neg
  | finite s m e hm =>
    cases s
    · rw [formValue_finite_neg, neg_neg]
      exact formValue_finite_pos m e hm
    · rw [formValue_finite_pos]
      exact formValue_finite_neg m e hm

theorem magnitude_pos {m : Nat} (hm : 0 < m) (e : ℤ) : (0 : ℚ) < m * 2 ^ e := by
  positivity

theorem abs_formValue (s : Sign) {m : ℕ} (e : ℤ) (hm : 0 < m) :
    |formValue (.finite s m e hm)| = m * 2 ^ e := by
  cases s with
  | positive => rw [formValue_finite_pos, abs_of_pos (magnitude_pos hm e)]
  | negative => rw [formValue_finite_neg, abs_neg, abs_of_pos (magnitude_pos hm e)]

/-- No finite scalar reaches the value that stands for infinity. -/
theorem magnitude_lt_limit {m : Nat} {e : Int} (hm : Canonical m e) (he : e ≤ 104) :
    (m : ℚ) * 2 ^ e < 2 ^ 128 := by
  have hm' : (m : ℚ) < 2 ^ 24 := by exact_mod_cast hm.1
  calc (m : ℚ) * 2 ^ e < 2 ^ 24 * 2 ^ e := by gcongr
    _ ≤ 2 ^ 24 * 2 ^ (104 : ℤ) := by gcongr; exact one_le_two
    _ = 2 ^ 128 := by norm_num

/-- Of two canonical forms the one with the larger exponent has the larger value. -/
theorem magnitude_lt_of_exponent_lt {m n : Nat} {d e : Int} (hm : Canonical m d)
    (hn : Canonical n e) (h : d < e) : (m : ℚ) * 2 ^ d < n * 2 ^ e := by
  have hn' : (2 : ℚ) ^ 23 ≤ n := by
    exact_mod_cast hn.2.2.resolve_right (by have := hm.2.1; omega)
  have hm' : (m : ℚ) < 2 ^ 24 := by exact_mod_cast hm.1
  calc (m : ℚ) * 2 ^ d < 2 ^ 24 * 2 ^ d := by gcongr
    _ = 2 ^ 23 * 2 ^ (d + 1) := by rw [zpow_add_one₀ two_ne_zero]; ring
    _ ≤ n * 2 ^ e := by gcongr; exacts [one_le_two, h]

theorem compare_magnitudes {m n : Nat} {d e : Int} (hm : Canonical m d) (hn : Canonical n e) :
    (compare d e).then (compare m n) = compare ((m : ℚ) * 2 ^ d) (n * 2 ^ e) := by
  rcases lt_trichotomy d e with h | rfl | h
  · rw [compare_lt_iff_lt.2 h, compare_lt_iff_lt.2 (magnitude_lt_of_exponent_lt hm hn h)]
    rfl
  · have hp : (0 : ℚ) < 2 ^ d := by positivity
    rw [compare_eq_iff_eq.2 rfl]
    change compare m n = _
    rcases lt_trichotomy m n with h | rfl | h
    · rw [compare_lt_iff_lt.2 h, compare_lt_iff_lt.2]
      gcongr
    · rw [compare_eq_iff_eq.2 rfl, compare_eq_iff_eq.2 rfl]
    · rw [compare_gt_iff_gt.2 h, compare_gt_iff_gt.2]
      gcongr
  · rw [compare_gt_iff_gt.2 h, compare_gt_iff_gt.2 (magnitude_lt_of_exponent_lt hn hm h)]
    rfl

theorem compare_neg_neg (p q : ℚ) : compare (-p) (-q) = (compare p q).swap := by
  rcases lt_trichotomy p q with h | rfl | h
  · rw [compare_lt_iff_lt.2 h, compare_gt_iff_gt.2 (neg_lt_neg h)]
    rfl
  · rw [compare_eq_iff_eq.2 rfl, compare_eq_iff_eq.2 rfl]
    rfl
  · rw [compare_gt_iff_gt.2 h, compare_lt_iff_lt.2 (neg_lt_neg h)]
    rfl

/-- Forms compare as their values do. -/
theorem compare_forms {a b : UnpackedFloat} (ha : IsForm a) (hb : IsForm b)
    (ha' : a ≠ .notANumber) (hb' : b ≠ .notANumber) :
    a.compare b = some (compare (formValue a) (formValue b)) := by
  have lt {p q : ℚ} (h : p < q) : some .lt = some (compare p q) := by rw [compare_lt_iff_lt.2 h]
  have gt {p q : ℚ} (h : q < p) : some .gt = some (compare p q) := by rw [compare_gt_iff_gt.2 h]
  have eq {p q : ℚ} (h : p = q) : some .eq = some (compare p q) := by rw [compare_eq_iff_eq.2 h]
  cases a with
  | notANumber => exact absurd rfl ha'
  | infinity s =>
    cases b with
    | notANumber => exact absurd rfl hb'
    | infinity t =>
      cases s <;> cases t
      exacts [eq rfl, lt (by simp), gt (by simp), eq rfl]
    | zero t => cases s; exacts [lt (by simp), gt (by simp)]
    | finite t n e hn =>
      have hpos := magnitude_pos hn e
      have hlim := magnitude_lt_limit hb.1 hb.2
      cases s <;> cases t
      exacts [lt (by simpa), lt (by simp; linarith), gt (by simp; linarith), gt (by simpa)]
  | zero s =>
    cases b with
    | notANumber => exact absurd rfl hb'
    | infinity t => cases t; exacts [gt (by simp), lt (by simp)]
    | zero t => exact eq rfl
    | finite t n e hn =>
      have hpos := magnitude_pos hn e
      cases t
      · exact gt (by rw [formValue_finite_neg, formValue_zero]; linarith)
      · exact lt (by rw [formValue_finite_pos, formValue_zero]; linarith)
  | finite s m d hm =>
    have hpos := magnitude_pos hm d
    have hlim := magnitude_lt_limit ha.1 ha.2
    cases b with
    | notANumber => exact absurd rfl hb'
    | infinity t =>
      cases s <;> cases t
      exacts [gt (by simpa), lt (by simp; linarith), gt (by simp; linarith), lt (by simpa)]
    | zero t =>
      cases s
      · exact lt (by rw [formValue_finite_neg, formValue_zero]; linarith)
      · exact gt (by rw [formValue_finite_pos, formValue_zero]; linarith)
    | finite t n e hn =>
      have hpos' := magnitude_pos hn e
      cases s <;> cases t
      · rw [formValue_finite_neg, formValue_finite_neg, compare_neg_neg,
          ← compare_magnitudes ha.1 hb.1]
        rfl
      · exact lt (by rw [formValue_finite_neg, formValue_finite_pos]; linarith)
      · exact gt (by rw [formValue_finite_neg, formValue_finite_pos]; linarith)
      · rw [formValue_finite_pos, formValue_finite_pos, ← compare_magnitudes ha.1 hb.1]
        rfl

/-! ## Numbers and comparisons -/

theorem isNaN_eq_false {x : Scalar} : x.isNaN = false ↔ x.form ≠ .notANumber := by
  change x.form.isNaN = false ↔ _
  cases x.form <;> simp [UnpackedFloat.isNaN]

theorem compare_of_isNaN {x y : Scalar} (h : ¬(x.isNaN = false ∧ y.isNaN = false)) :
    x.form.compare y.form = none := by
  rw [isNaN_eq_false, isNaN_eq_false, not_and_or, not_not, not_not] at h
  rcases h with h | h <;> rw [h]
  · rfl
  · cases x.form <;> rfl

theorem le_iff {x y : Scalar} :
    x ≤ y ↔ x.isNaN = false ∧ y.isNaN = false ∧ x.value ≤ y.value := by
  have hdef : x ≤ y ↔ (x.form.compare y.form).any (·.isLE) = true := by
    change x.le y = true ↔ _
    rw [Float32.le, decide_eq_true_iff]
    rfl
  rw [hdef]
  by_cases h : x.isNaN = false ∧ y.isNaN = false
  · rw [compare_forms (form_isForm x) (form_isForm y) (isNaN_eq_false.mp h.1)
      (isNaN_eq_false.mp h.2)]
    rw [Option.any_some, ← and_assoc, and_iff_right h, Ordering.isLE_iff_ne_gt]
    exact compare_le_iff_le
  · rw [compare_of_isNaN h, ← and_assoc]
    exact ⟨fun hc => absurd hc (by decide), fun hc => absurd hc.1 h⟩

theorem lt_iff {x y : Scalar} :
    x < y ↔ x.isNaN = false ∧ y.isNaN = false ∧ x.value < y.value := by
  have hdef : x < y ↔ (x.form.compare y.form == some .lt) = true := by
    change x.lt y = true ↔ _
    rw [Float32.lt, decide_eq_true_iff]
    rfl
  rw [hdef]
  by_cases h : x.isNaN = false ∧ y.isNaN = false
  · rw [compare_forms (form_isForm x) (form_isForm y) (isNaN_eq_false.mp h.1)
      (isNaN_eq_false.mp h.2)]
    rw [beq_iff_eq, Option.some_inj, ← and_assoc, and_iff_right h]
    exact compare_lt_iff_lt
  · rw [compare_of_isNaN h, ← and_assoc]
    exact ⟨fun hc => absurd hc (by decide), fun hc => absurd hc.1 h⟩

/-- For numbers the comparisons are those of the values. -/
theorem le_iff_value {x y : Scalar} (hx : x.isNaN = false) (hy : y.isNaN = false) :
    x ≤ y ↔ x.value ≤ y.value := by
  rw [le_iff, and_iff_right hx, and_iff_right hy]

theorem lt_iff_value {x y : Scalar} (hx : x.isNaN = false) (hy : y.isNaN = false) :
    x < y ↔ x.value < y.value := by
  rw [lt_iff, and_iff_right hx, and_iff_right hy]

theorem le_of_lt {x y : Scalar} (h : x < y) : x ≤ y := by
  obtain ⟨hx, hy, hv⟩ := lt_iff.mp h
  exact le_iff.mpr ⟨hx, hy, hv.le⟩

theorem le_trans {x y z : Scalar} (h : x ≤ y) (h' : y ≤ z) : x ≤ z := by
  obtain ⟨hx, _, hv⟩ := le_iff.mp h
  obtain ⟨_, hz, hv'⟩ := le_iff.mp h'
  exact le_iff.mpr ⟨hx, hz, hv.trans hv'⟩

theorem lt_of_lt_of_le {x y z : Scalar} (h : x < y) (h' : y ≤ z) : x < z := by
  obtain ⟨hx, _, hv⟩ := lt_iff.mp h
  obtain ⟨_, hz, hv'⟩ := le_iff.mp h'
  exact lt_iff.mpr ⟨hx, hz, hv.trans_le hv'⟩

theorem lt_of_le_of_lt {x y z : Scalar} (h : x ≤ y) (h' : y < z) : x < z := by
  obtain ⟨hx, _, hv⟩ := le_iff.mp h
  obtain ⟨_, hz, hv'⟩ := lt_iff.mp h'
  exact lt_iff.mpr ⟨hx, hz, hv.trans_lt hv'⟩

theorem le_of_not_lt {x y : Scalar} (hx : x.isNaN = false) (hy : y.isNaN = false) (h : ¬x < y) :
    y ≤ x := by
  rw [lt_iff_value hx hy, not_lt] at h
  exact le_iff.mpr ⟨hy, hx, h⟩

theorem not_lt_iff_le {x y : Scalar} (hx : x.isNaN = false) (hy : y.isNaN = false) :
    ¬x < y ↔ y ≤ x :=
  ⟨le_of_not_lt hx hy, fun hle hlt => (lt_iff.mp hlt).2.2.not_ge (le_iff.mp hle).2.2⟩

/-! ## Finite scalars -/

theorem isFinite_iff {x : Scalar} : x.isFinite = true ↔ x.isNaN = false ∧ |x.value| < 2 ^ 128 := by
  have hx := form_isForm x
  rw [isNaN_eq_false, value]
  change x.form.isFinite = true ↔ _
  cases hf : x.form with
  | notANumber => simp [UnpackedFloat.isFinite]
  | infinity s => cases s <;> simp [UnpackedFloat.isFinite]
  | zero s => simp [UnpackedFloat.isFinite]
  | finite s m e hm =>
    rw [hf] at hx
    have hpos := magnitude_pos hm e
    have hlim := magnitude_lt_limit hx.1 hx.2
    have habs : |(m : ℚ) * 2 ^ e| < 2 ^ 128 := by rw [abs_of_pos hpos]; exact hlim
    cases s
    · rw [formValue_finite_neg, abs_neg]
      simpa [UnpackedFloat.isFinite] using habs
    · rw [formValue_finite_pos]
      simpa [UnpackedFloat.isFinite] using habs

theorem isNaN_of_isFinite {x : Scalar} (h : x.isFinite = true) : x.isNaN = false :=
  (isFinite_iff.mp h).1

/-- What lies between two finite scalars is finite. -/
theorem isFinite_of_mem {lo hi x : Scalar} (hlo : lo.isFinite = true) (hhi : hi.isFinite = true)
    (h1 : lo ≤ x) (h2 : x ≤ hi) : x.isFinite = true := by
  obtain ⟨_, hx, hl⟩ := le_iff.mp h1
  obtain ⟨_, _, hu⟩ := le_iff.mp h2
  have hl' := (abs_lt.mp (isFinite_iff.mp hlo).2).1
  have hu' := (abs_lt.mp (isFinite_iff.mp hhi).2).2
  exact isFinite_iff.mpr ⟨hx, abs_lt.mpr ⟨by linarith, by linarith⟩⟩

/-! ## Signs -/

@[simp] theorem isNaN_neg (x : Scalar) : Float32.isNaN (-x) = x.isNaN := by
  change (-x).form.isNaN = x.form.isNaN
  rw [form_neg]
  cases x.form <;> rfl

@[simp] theorem isFinite_neg (x : Scalar) : Float32.isFinite (-x) = x.isFinite := by
  change (-x).form.isFinite = x.form.isFinite
  rw [form_neg]
  cases x.form <;> rfl

@[simp] theorem value_neg (x : Scalar) : value (-x) = -x.value := by
  rw [value, form_neg, formValue_neg, value]

@[simp] theorem isNaN_abs (x : Scalar) : x.abs.isNaN = x.isNaN := by
  change (form x.abs).isNaN = x.form.isNaN
  rw [form_abs]
  cases x.form <;> rfl

@[simp] theorem value_abs (x : Scalar) : value x.abs = |x.value| := by
  rw [value, value, form_abs]
  cases h : x.form with
  | notANumber => simp [UnpackedFloat.abs, formValue]
  | infinity s => cases s <;> simp [UnpackedFloat.abs]
  | zero s => simp [UnpackedFloat.abs]
  | finite s m e hm =>
    have hpos := magnitude_pos hm e
    cases s
    · rw [formValue_finite_neg, abs_neg, abs_of_pos hpos]
      exact formValue_finite_pos m e hm
    · rw [formValue_finite_pos, abs_of_pos hpos]
      exact formValue_finite_pos m e hm

/-- A magnitude and its negation are ordered bounds. -/
theorem neg_le_self {x : Scalar} (h : 0.0 ≤ x) : -x ≤ x := by
  obtain ⟨_, hx, hv⟩ := le_iff.mp h
  have h0 : value 0.0 = 0 := rfl
  refine le_iff.mpr ⟨by rw [isNaN_neg, hx], hx, ?_⟩
  rw [value_neg]
  linarith

/-! ## Literals -/

@[simp] theorem value_zero : value 0.0 = 0 := rfl

theorem form_one : form 1.0 = .finite .positive (2 ^ 23) (-23) (by decide) := rfl

@[simp] theorem value_one : value 1.0 = 1 := by
  rw [value, form_one, formValue_finite_pos]
  norm_num

/-! ## Ranges -/

/-- A number limited to a range lies in it. -/
theorem limit_mem {lo hi x : Scalar} (h : lo ≤ hi) (hx : x.isNaN = false) :
    lo ≤ limit lo hi x ∧ limit lo hi x ≤ hi := by
  obtain ⟨hlo, hhi, hv⟩ := le_iff.mp h
  unfold limit
  split_ifs with hl hu
  · exact ⟨le_iff.mpr ⟨hlo, hlo, le_rfl⟩, h⟩
  · exact ⟨h, le_iff.mpr ⟨hhi, hhi, le_rfl⟩⟩
  · exact ⟨le_of_not_lt hx hlo hl, le_of_not_lt hhi hx hu⟩

theorem clamp_eq_ok {lo hi : Scalar} (h : lo ≤ hi) (x : Scalar) :
    clamp lo hi x = .ok (limit lo hi x) := if_pos h

@[simp] theorem confine_eq (lo hi : Scalar) [IsRange lo hi] (x : Scalar) :
    confine lo hi x = limit lo hi x := rfl

theorem confine_mem (lo hi : Scalar) [IsRange lo hi] {x : Scalar} (hx : x.isNaN = false) :
    lo ≤ confine lo hi x ∧ confine lo hi x ≤ hi :=
  limit_mem IsRange.ordered hx

theorem orZero_isFinite (x : Scalar) : (orZero x).isFinite = true := by
  unfold orZero
  split_ifs with h
  · exact h
  · rfl

theorem isNaN_minNum {a b : Scalar} (h : a.isNaN = false ∨ b.isNaN = false) :
    (minNum a b).isNaN = false := by
  unfold minNum
  split_ifs with ha hlt
  · exact h.resolve_left (by rw [ha]; decide)
  · exact (lt_iff.mp hlt).1
  · exact Bool.eq_false_of_not_eq_true ha

theorem value_minNum {a b : Scalar} (ha : a.isNaN = false) (hb : b.isNaN = false) :
    value (minNum a b) = min a.value b.value := by
  unfold minNum
  rw [if_neg (by rw [ha]; decide)]
  split_ifs with h
  · exact (min_eq_right (lt_iff.mp h).2.2.le).symm
  · rw [lt_iff_value hb ha, not_lt] at h
    exact (min_eq_left h).symm

theorem le_maxNum {lo : Scalar} (h : lo.isNaN = false) (x : Scalar) : lo ≤ maxNum x lo := by
  have hself : lo ≤ lo := le_iff.mpr ⟨h, h, le_rfl⟩
  unfold maxNum
  split_ifs with hn hlt
  · exact hself
  · exact hself
  · exact le_of_not_lt (Bool.eq_false_of_not_eq_true hn) h hlt

/-- Anything at all is held in a range in this way, even what is not a number. -/
theorem minNum_maxNum_mem {lo hi : Scalar} (h : lo ≤ hi) (x : Scalar) :
    lo ≤ minNum (maxNum x lo) hi ∧ minNum (maxNum x lo) hi ≤ hi := by
  obtain ⟨hlo, hhi, -⟩ := le_iff.mp h
  have hmax := le_maxNum hlo x
  have hn : (maxNum x lo).isNaN = false := (le_iff.mp hmax).2.1
  unfold minNum
  rw [if_neg (by rw [hn]; decide)]
  split_ifs with hlt
  · exact ⟨h, le_iff.mpr ⟨hhi, hhi, le_rfl⟩⟩
  · exact ⟨hmax, le_of_not_lt hhi hn hlt⟩

end Quadrotor.Scalar

import Mathlib
import Quadrotor.Proofs.Scalar.Sign

/-!
# Scalars that are alike

Two scalars are alike if they compare equal, or if neither is a number. Scalars that are alike are
the same one, or both are zeros, so all that may still tell them apart is the sign of a zero. No
comparison sees it, and sums, products and quotients of operands that are alike are alike, as long
as it is not a divisor that differs. Rounding is symmetric: opposite operands have opposite results,
so what holds of sums on one side of zero holds on the other side as well.
-/

namespace Quadrotor.Scalar

open Float.Model (Format UnpackedFloat)
open Float.Model.UnpackedFloat

/-- The scalars compare equal, or neither is a number. -/
def Alike (x y : Scalar) : Prop := (x == y) = true ∨ (x.isNaN = true ∧ y.isNaN = true)

/-! ## The sign of a zero -/

theorem form_injective {x y : Scalar} (h : x.form = y.form) : x = y := by
  obtain ⟨⟨⟨v⟩, hv⟩⟩ := x
  obtain ⟨⟨⟨w⟩, hw⟩⟩ := y
  have hpack := congrArg (UnpackedFloat.pack .binary32) h
  have hvw : v = w :=
    (pack_unpack_of_valid hv).symm.trans (hpack.trans (pack_unpack_of_valid hw))
  subst hvw
  rfl

def IsZero (x : Scalar) : Prop := ∃ s, x.form = .zero s

theorem isZero_iff {x : Scalar} : x.IsZero ↔ x.isNaN = false ∧ x.value = 0 := by
  constructor
  · rintro ⟨s, hs⟩
    exact ⟨isNaN_eq_false.mpr (by rw [hs]; simp), by rw [value, hs, formValue_zero]⟩
  · rintro ⟨hn, h0⟩
    exact (value_eq_zero_iff hn).mp h0

theorem isZero_zero : IsZero 0.0 := ⟨.positive, rfl⟩

theorem beq_iff {x y : Scalar} : (x == y) = true ↔
    x.isNaN = false ∧ y.isNaN = false ∧ (x = y ∨ (x.IsZero ∧ y.IsZero)) := by
  have hdef : (x == y) = x.form.beq y.form := rfl
  rw [hdef, beq_iff_ne_notANumber_and_eq, isNaN_eq_false, isNaN_eq_false]
  refine and_congr_right fun _ => and_congr_right fun _ => ⟨?_, ?_⟩
  · rintro (h | ⟨hx, hy⟩ | ⟨hx, hy⟩)
    · exact Or.inl (form_injective h)
    · exact Or.inr ⟨⟨_, hx⟩, ⟨_, hy⟩⟩
    · exact Or.inr ⟨⟨_, hx⟩, ⟨_, hy⟩⟩
  · rintro (rfl | ⟨⟨s, hs⟩, ⟨t, ht⟩⟩)
    · exact Or.inl rfl
    · rw [hs, ht]
      cases s <;> cases t <;> simp

theorem beq_symm {x y : Scalar} (h : (x == y) = true) : (y == x) = true := by
  obtain ⟨hx, hy, hsame⟩ := beq_iff.mp h
  exact beq_iff.mpr ⟨hy, hx, hsame.imp Eq.symm And.symm⟩

theorem alike_iff {x y : Scalar} : Alike x y ↔ x = y ∨ (x.IsZero ∧ y.IsZero) := by
  rw [Alike, beq_iff]
  constructor
  · rintro (⟨-, -, h⟩ | ⟨hx, hy⟩)
    · exact h
    · exact Or.inl (form_injective ((isNaN_iff.mp hx).trans (isNaN_iff.mp hy).symm))
  · rintro (rfl | ⟨hx, hy⟩)
    · cases hn : x.isNaN with
      | true => exact Or.inr ⟨rfl, rfl⟩
      | false => exact Or.inl ⟨rfl, rfl, Or.inl rfl⟩
    · exact Or.inl ⟨(isZero_iff.mp hx).1, (isZero_iff.mp hy).1, Or.inr ⟨hx, hy⟩⟩

theorem form_div (x y : Scalar) :
    (x / y).form = repack (UnpackedFloat.div .binary32 x.form y.form) := rfl

theorem isNaN_div_left {x : Scalar} (hx : x.isNaN = true) (y : Scalar) : (x / y).isNaN = true := by
  have hdiv : UnpackedFloat.div .binary32 .notANumber y.form = .notANumber := by
    cases y.form <;> rfl
  rw [isNaN_iff, form_div, isNaN_iff.mp hx, hdiv, repack_notANumber]

protected theorem sub_eq_add_neg (x y : Scalar) : x - y = x + -y := form_injective (form_sub_eq x y)

protected theorem mul_comm (x y : Scalar) : x * y = y * x := form_injective (mul_comm_form x y)

protected theorem add_comm (x y : Scalar) : x + y = y + x := by
  have hforms : ∀ a b, UnpackedFloat.add .binary32 a b = UnpackedFloat.add .binary32 b a := by
    intro a b
    cases a with
    | notANumber => cases b <;> rfl
    | infinity s | zero s =>
      cases b with
      | infinity t | zero t => cases s <;> cases t <;> rfl
      | notANumber | finite => rfl
    | finite s m d hm =>
      cases b with
      | finite t n e hn => simp only [UnpackedFloat.add, Int.add_comm, min_comm]
      | notANumber | infinity t | zero t => rfl
  exact form_injective (by rw [form_add, form_add, hforms])

namespace IsZero

variable {x y : Scalar}

theorem add (hx : x.IsZero) (hy : y.IsZero) : (x + y).IsZero := by
  obtain ⟨s, hs⟩ := hx
  obtain ⟨t, ht⟩ := hy
  cases s <;> cases t <;> exact ⟨_, by rw [form_add, hs, ht]; rfl⟩

/-- Adding a zero changes nothing but maybe the sign of a zero. -/
theorem add_eq (hx : x.IsZero) (hy : ¬y.IsZero) : x + y = y := by
  obtain ⟨s, hs⟩ := hx
  have hform := form_isForm y
  refine form_injective ?_
  rw [form_add, hs]
  cases ht : y.form with
  | zero t => exact absurd ⟨t, ht⟩ hy
  | notANumber | infinity t | finite t n e hn =>
    rw [ht] at hform
    exact repack_isForm hform

end IsZero

namespace Alike

variable {x y z x' y' : Scalar}

theorem refl (x : Scalar) : Alike x x := alike_iff.mpr (Or.inl rfl)

theorem of_eq (h : x = y) : Alike x y := alike_iff.mpr (Or.inl h)

theorem of_isZero (hx : x.IsZero) (hy : y.IsZero) : Alike x y := alike_iff.mpr (Or.inr ⟨hx, hy⟩)

theorem symm (h : Alike x y) : Alike y x :=
  alike_iff.mpr ((alike_iff.mp h).imp Eq.symm And.symm)

theorem trans (h : Alike x y) (h' : Alike y z) : Alike x z := by
  rcases alike_iff.mp h with rfl | ⟨hx, hy⟩
  · exact h'
  · rcases alike_iff.mp h' with rfl | ⟨-, hz⟩
    · exact h
    · exact of_isZero hx hz

theorem isNaN_eq (h : Alike x y) : x.isNaN = y.isNaN := by
  rcases alike_iff.mp h with rfl | ⟨hx, hy⟩
  · rfl
  · rw [(isZero_iff.mp hx).1, (isZero_iff.mp hy).1]

theorem value_eq (h : Alike x y) : x.value = y.value := by
  rcases alike_iff.mp h with rfl | ⟨hx, hy⟩
  · rfl
  · rw [(isZero_iff.mp hx).2, (isZero_iff.mp hy).2]

theorem lt_iff (h : Alike x y) (h' : Alike x' y') : x < x' ↔ y < y' := by
  rw [Scalar.lt_iff, Scalar.lt_iff, h.isNaN_eq, h'.isNaN_eq, h.value_eq, h'.value_eq]

theorem isZero (h : Alike x y) (hx : x.IsZero) : y.IsZero := by
  rw [isZero_iff] at hx ⊢
  rwa [← h.isNaN_eq, ← h.value_eq]

/-! ## Operations on operands that are alike -/

theorem abs_eq (h : Alike x y) : x.abs = y.abs := by
  rcases alike_iff.mp h with rfl | ⟨⟨s, hs⟩, ⟨t, ht⟩⟩
  · rfl
  · exact form_injective (by rw [form_abs, form_abs, hs, ht]; rfl)

theorem add_left (h : Alike x y) (z : Scalar) : Alike (x + z) (y + z) := by
  rcases alike_iff.mp h with rfl | ⟨hx, hy⟩
  · exact refl _
  · by_cases hz : z.IsZero
    · exact of_isZero (hx.add hz) (hy.add hz)
    · rw [hx.add_eq hz, hy.add_eq hz]
      exact refl _

theorem add (h : Alike x y) (h' : Alike x' y') : Alike (x + x') (y + y') := by
  have hright := h'.add_left y
  rw [Scalar.add_comm, Scalar.add_comm y'] at hright
  exact (h.add_left x').trans hright

theorem mul_left (h : Alike x y) (z : Scalar) : Alike (x * z) (y * z) := by
  rcases alike_iff.mp h with rfl | ⟨⟨s, hs⟩, ⟨t, ht⟩⟩
  · exact refl _
  · cases hz : z.form with
    | notANumber | infinity u =>
      exact of_eq (form_injective (by rw [form_mul, form_mul, hs, ht, hz]; rfl))
    | zero u | finite u m e hm =>
      exact of_isZero ⟨s * u, by rw [form_mul, hs, hz]; exact repack_zero _⟩
        ⟨t * u, by rw [form_mul, ht, hz]; exact repack_zero _⟩

theorem mul (h : Alike x y) (h' : Alike x' y') : Alike (x * x') (y * y') := by
  have hright := h'.mul_left y
  rw [Scalar.mul_comm, Scalar.mul_comm y'] at hright
  exact (h.mul_left x').trans hright

/-- A divisor of the opposite sign would make the opposite infinity of a number. -/
theorem div_left (h : Alike x y) (z : Scalar) : Alike (x / z) (y / z) := by
  rcases alike_iff.mp h with rfl | ⟨⟨s, hs⟩, ⟨t, ht⟩⟩
  · exact refl _
  · cases hz : z.form with
    | notANumber | zero u =>
      exact of_eq (form_injective (by rw [form_div, form_div, hs, ht, hz]; rfl))
    | infinity u | finite u m e hm =>
      exact of_isZero ⟨s / u, by rw [form_div, hs, hz]; exact repack_zero _⟩
        ⟨t / u, by rw [form_div, ht, hz]; exact repack_zero _⟩

theorem limit (h : Alike x y) (lo hi : Scalar) :
    Alike (Scalar.limit lo hi x) (Scalar.limit lo hi y) := by
  simp only [Scalar.limit, h.lt_iff (refl lo), (refl hi).lt_iff h]
  split_ifs
  exacts [refl _, refl _, h]

end Alike

/-! ## Opposite operands -/

@[simp] protected theorem neg_neg (x : Scalar) : - -x = x := by
  refine form_injective ?_
  rw [form_neg, form_neg, neg_neg_form]

theorem abs_neg_eq (x : Scalar) : Float32.abs (-x) = x.abs := by
  refine form_injective ?_
  rw [form_abs, form_abs, form_neg]
  cases x.form <;> rfl

theorem abs_eq_self {x : Scalar} (hx : 0.0 < x) : x.abs = x := by
  have hsign := (formSign_of_value x.form).1 (lt_iff.mp hx).2.2
  refine form_injective ?_
  rw [form_abs]
  cases hform : x.form with
  | notANumber => rfl
  | zero s | infinity s | finite s =>
    rw [hform] at hsign
    change s = _ at hsign
    rw [hsign]
    rfl

theorem neg_lt_neg_iff_lt {x y : Scalar} : -x < -y ↔ y < x := by
  rw [lt_iff, lt_iff, isNaN_neg, isNaN_neg, value_neg, value_neg, neg_lt_neg_iff, and_left_comm]

/-- Numbers with the same value are alike. -/
theorem alike_of_value {x y : Scalar} (hx : x.isNaN = false) (hy : y.isNaN = false)
    (h : x.value = y.value) : Alike x y := by
  have hcompare := compare_forms (form_isForm x) (form_isForm y) (isNaN_eq_false.mp hx)
    (isNaN_eq_false.mp hy)
  have hvalues : compare (formValue x.form) (formValue y.form) = .eq := compare_eq_iff_eq.mpr h
  left
  change (x.form.compare y.form == some .eq) = true
  rw [hcompare, hvalues]
  rfl

/-- Two scalars that the same exact number is rounded to. -/
theorem alike_of_rounds {x y : Scalar} {q : ℚ} (hx : Rounds q x.form) (hy : Rounds q y.form) :
    Alike x y :=
  alike_of_value hx.isNaN hy.isNaN
    (le_antisymm (le_iff.mp (hx.le hy le_rfl)).2.2 (le_iff.mp (hy.le hx le_rfl)).2.2)

theorem neg_mul_sign (s t : Sign) : -s * t = -(s * t) ∧ -s / t = -(s / t) := by
  cases s <;> cases t <;> exact ⟨rfl, rfl⟩

theorem roundWithAccuracy_neg (s : Sign) (m : Nat) (e : Int) (acc : Accuracy) :
    roundWithAccuracy .binary32 (-s) m e acc = (roundWithAccuracy .binary32 s m e acc).neg := by
  unfold roundWithAccuracy
  dsimp only
  split_ifs <;> rfl

theorem repack_neg (u : UnpackedFloat) : repack u.neg = (repack u).neg := by
  cases u with
  | notANumber => rfl
  | infinity s =>
    rw [repack_infinity]
    exact repack_infinity (-s)
  | zero s =>
    rw [repack_zero]
    exact repack_zero (-s)
  | finite s m e hm =>
    unfold repack UnpackedFloat.neg UnpackedFloat.pack
    dsimp only
    unfold packedInfinity
    split_ifs <;> simp only [unpack_fields] <;> split_ifs <;> rfl

protected theorem neg_mul (x y : Scalar) : -x * y = -(x * y) := by
  have hforms : ∀ a b, UnpackedFloat.mul .binary32 a.neg b = (UnpackedFloat.mul .binary32 a b).neg := by
    intro a b
    cases a <;> cases b <;>
      simp only [UnpackedFloat.mul, UnpackedFloat.neg, (neg_mul_sign _ _).1]
    exact roundWithAccuracy_neg _ _ _ _
  refine form_injective ?_
  rw [form_mul, form_neg, hforms, repack_neg, form_neg, form_mul]

protected theorem neg_div (x y : Scalar) : -x / y = -(x / y) := by
  have hforms : ∀ a b, UnpackedFloat.div .binary32 a.neg b = (UnpackedFloat.div .binary32 a b).neg := by
    intro a b
    cases a <;> cases b <;>
      simp only [UnpackedFloat.div, UnpackedFloat.neg, (neg_mul_sign _ _).2]
    exact roundWithAccuracy_neg _ _ _ _
  refine form_injective ?_
  rw [form_div, form_neg, hforms, repack_neg, form_neg, form_div]

/-- The sum of opposites may be the other zero than the opposite of the sum. -/
theorem alike_neg_add (x y : Scalar) : Alike (-x + -y) (-(x + y)) := by
  by_cases hf : x.isFinite = true ∧ y.isFinite = true
  · have hneg := rounds_add (x := -x) (y := -y) (by rw [isFinite_neg]; exact hf.1)
      (by rw [isFinite_neg]; exact hf.2)
    rw [value_neg, value_neg, ← neg_add] at hneg
    refine alike_of_rounds hneg ?_
    rw [form_neg]
    exact (rounds_add hf.1 hf.2).neg
  · have hforms : ∀ a b : UnpackedFloat, ¬(a.isFinite = true ∧ b.isFinite = true) →
        UnpackedFloat.add .binary32 a.neg b.neg = (UnpackedFloat.add .binary32 a b).neg := by
      intro a b hab
      cases a with
      | notANumber => cases b <;> rfl
      | infinity s =>
        cases b with
        | infinity t => cases s <;> cases t <;> rfl
        | notANumber | zero t | finite t => rfl
      | zero s | finite s =>
        cases b with
        | notANumber | infinity t => rfl
        | zero t | finite t => exact absurd ⟨rfl, rfl⟩ hab
    refine .of_eq (form_injective ?_)
    rw [form_add, form_neg, form_neg, hforms x.form y.form hf, repack_neg, form_neg, form_add]

/-! ## Zeros among other operands -/

namespace IsZero

variable {x y : Scalar}

theorem neg (hx : x.IsZero) : Scalar.IsZero (-x) := by
  rw [isZero_iff, isNaN_neg, value_neg, neg_eq_zero]
  exact isZero_iff.mp hx

theorem sub (hx : x.IsZero) (hy : y.IsZero) : (x - y).IsZero := by
  rw [Scalar.sub_eq_add_neg]
  exact hx.add hy.neg

theorem mul (hx : x.IsZero) (hy : y.isFinite = true) : (x * y).IsZero := by
  have halike : Alike (0.0 * y) (x * y) := (Alike.of_isZero isZero_zero hx).mul_left y
  obtain ⟨hfinite, h0⟩ := zero_mul_eq hy
  exact halike.isZero (isZero_iff.mpr ⟨isNaN_of_isFinite hfinite, h0⟩)

theorem mul_left (hx : x.isFinite = true) (hy : y.IsZero) : (x * y).IsZero := by
  rw [Scalar.mul_comm]
  exact hy.mul hx

theorem div (hx : x.IsZero) (hy : isPositive y = true) : (x / y).IsZero := by
  obtain ⟨hfy, hpos⟩ := isPositive_iff.mp hy
  have hquotient := rounds_div (x := 0.0) rfl hfy (lt_iff.mp hpos).2.2.ne'
  rw [value_zero, zero_div] at hquotient
  have h0 := hquotient.faithful.value_eq isNaN_zero value_zero
  have halike : Alike (0.0 / y) (x / y) := (Alike.of_isZero isZero_zero hx).div_left y
  exact halike.isZero (isZero_iff.mpr ⟨hquotient.isNaN, h0⟩)

/-- Adding a zero makes no difference. -/
theorem alike_add (hx : x.IsZero) (y : Scalar) : Alike (x + y) y := by
  by_cases hy : y.IsZero
  · exact .of_isZero (hx.add hy) hy
  · exact .of_eq (hx.add_eq hy)

end IsZero

theorem isZero_limit {l x : Scalar} (hl : 0.0 < l) : (Scalar.limit (-l) l x).IsZero ↔ x.IsZero := by
  obtain ⟨-, hn, hv⟩ := lt_iff.mp hl
  rw [value_zero] at hv
  have hbound : ¬l.IsZero := fun h => hv.ne' (isZero_iff.mp h).2
  constructor
  · intro h
    unfold Scalar.limit at h
    split_ifs at h
    · exact absurd (by simpa using h.neg) hbound
    · exact absurd h hbound
    · exact h
  · intro h
    obtain ⟨hxn, hx0⟩ := isZero_iff.mp h
    rw [limit_eq_self]
    · exact h
    · rw [le_iff_value (by rwa [isNaN_neg]) hxn, value_neg, hx0]
      linarith
    · rw [le_iff_value hxn hn, hx0]
      exact hv.le

/-! ## Sums and products that stay on a side -/

section

variable {x y : Scalar}

theorem infinity_add {s : Sign} (hx : x.form = .infinity s) (y : Scalar) :
    (x + y).isNaN = true ∨ (x + y).form = .infinity s := by
  rw [isNaN_iff, form_add, hx]
  cases y.form with
  | notANumber => exact Or.inl (by cases s <;> rfl)
  | zero t | finite t => exact Or.inr (repack_infinity s)
  | infinity t =>
    cases s <;> cases t
    exacts [Or.inr (repack_infinity _), Or.inl rfl, Or.inl rfl, Or.inr (repack_infinity _)]

theorem not_add_lt (hy : y.isNaN = true ∨ 0.0 ≤ y) : ¬x + y < x := by
  intro hlt
  obtain ⟨hsum, hx, hv⟩ := lt_iff.mp hlt
  rw [← Bool.not_eq_true] at hsum
  have hy := hy.resolve_left fun hn => hsum (isNaN_add_right x hn)
  by_cases hfx : x.isFinite = true
  · by_cases hfy : y.isFinite = true
    · have hle : x ≤ x + y := (faithful_add hfx hfy).le_of_value_le hx
        (le_add_of_nonneg_right (value_nonneg hy))
      exact (le_iff.mp hle).2.2.not_gt hv
    · rw [value_infinity (form_infinity_add hfx (form_of_nonneg hy hfy))] at hv
      exact ((le_abs_self _).trans (abs_value_le hx)).not_gt hv
  · obtain ⟨s, hs⟩ := form_infinity hx hfx
    rcases infinity_add hs y with hn | hform
    · exact hsum hn
    · rw [value, value, hform, hs] at hv
      exact lt_irrefl _ hv

theorem not_lt_add (hy : y.isNaN = true ∨ y ≤ 0.0) : ¬x < x + y := by
  have hneg : Float32.isNaN (-y) = true ∨ 0.0 ≤ -y := by
    rw [isNaN_neg]
    refine hy.imp_right fun h => ?_
    obtain ⟨hn, -, hv⟩ := le_iff.mp h
    rw [nonneg_iff (by rwa [isNaN_neg]), value_neg]
    rw [value_zero] at hv
    exact neg_nonneg.mpr hv
  rw [← neg_lt_neg_iff_lt, ← (alike_neg_add x y).lt_iff (.refl (-x))]
  exact not_add_lt hneg

theorem isNaN_or_nonneg_infinity_mul (hx : x.form = .infinity .positive) (hy : 0.0 ≤ y) :
    (x * y).isNaN = true ∨ 0.0 ≤ x * y := by
  by_cases hfy : y.isFinite = true
  · rcases (value_nonneg hy).eq_or_lt with h0 | hpos
    · have hinfinite : ¬x.isFinite = true := by
        change ¬x.form.isFinite = true
        rw [hx]
        exact Bool.false_ne_true
      exact Or.inl ((isNaN_mul_finite_iff hfy).mpr (Or.inr ⟨hinfinite, h0.symm⟩))
    · have hlt : 0.0 < y := lt_iff.mpr ⟨rfl, (le_iff.mp hy).2.1, by rwa [value_zero]⟩
      exact Or.inr (nonneg_of_form (form_infinity_mul hx hlt hfy))
  · refine Or.inr (nonneg_of_form ?_)
    rw [form_mul, hx, form_of_nonneg hy hfy]
    exact repack_infinity _

theorem isNaN_or_nonneg_mul (hx : 0.0 ≤ x) (hy : 0.0 ≤ y) : (x * y).isNaN = true ∨ 0.0 ≤ x * y := by
  by_cases hfx : x.isFinite = true
  · by_cases hfy : y.isFinite = true
    · exact Or.inr (nonneg_mul_of_isFinite hx hy hfx hfy)
    · rw [Scalar.mul_comm]
      exact isNaN_or_nonneg_infinity_mul (form_of_nonneg hy hfy) hx
  · exact isNaN_or_nonneg_infinity_mul (form_of_nonneg hx hfx) hy

end

end Quadrotor.Scalar

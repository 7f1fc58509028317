import Mathlib
import Quadrotor.Radio.Rates
import Quadrotor.Proofs.Scalar.Alike

/-!
# The symmetry of stick rates

Opposite sticks ask for opposite rates, with any curves and any multipliers, accepted or not. Each
curve is built from the deflection, which changes its sign with the stick, and from its magnitude and
even powers, which do not; every product of a curve has the deflection in it an odd number of times.
What is infinite or no number on one side of the stick is so on the other side as well.
-/

namespace Quadrotor

namespace Scalar

/-- `x` and the negated `y` are alike. -/
def Opposite (x y : Scalar) : Prop := Alike x (-y)

namespace Opposite

variable {k l x y x' y' : Scalar}

theorem zero : Opposite 0.0 0.0 := .of_isZero isZero_zero ⟨_, rfl⟩

theorem add (h : Opposite x y) (h' : Opposite x' y') : Opposite (x + x') (y + y') :=
  (Alike.add h h').trans (alike_neg_add y y')

theorem mul (h : Opposite x y) (k : Scalar) : Opposite (x * k) (y * k) := by
  have hproduct := Alike.mul_left h k
  rwa [Scalar.neg_mul] at hproduct

theorem alike_mul (hk : Alike k l) (h : Opposite x y) : Opposite (k * x) (l * y) := by
  have hproduct := hk.mul h
  rwa [Scalar.mul_comm l, Scalar.neg_mul, Scalar.mul_comm y] at hproduct

theorem div (h : Opposite x y) (d : Scalar) : Opposite (x / d) (y / d) := by
  have hquotient := Alike.div_left h d
  rwa [Scalar.neg_div] at hquotient

/-- An even product. -/
theorem mul_opposite (h : Opposite x y) (h' : Opposite x' y') : Alike (x * x') (y * y') := by
  have hproduct := Alike.mul h h'
  rwa [Scalar.neg_mul, Scalar.mul_comm y, Scalar.neg_mul, Scalar.neg_neg, Scalar.mul_comm y'] at hproduct

theorem abs_eq (h : Opposite x y) : x.abs = y.abs := (Alike.abs_eq h).trans (abs_neg_eq y)

theorem limit (h : Opposite x y) {c : Scalar} (hc : -c ≤ c) :
    Opposite (Scalar.limit (-c) c x) (Scalar.limit (-c) c y) := by
  have hlow : x < -c ↔ c < y := (h.lt_iff (.refl _)).trans neg_lt_neg_iff_lt
  have hhigh : c < x ↔ y < -c := by
    have hneg := (Alike.refl c).lt_iff h
    rwa [← Scalar.neg_neg c, neg_lt_neg_iff_lt, Scalar.neg_neg] at hneg
  simp only [Scalar.limit, hlow, hhigh]
  split_ifs with habove hbelow hbelow
  · have hreversed := (lt_iff.mp habove).2.2.trans (lt_iff.mp hbelow).2.2
    exact absurd (le_iff.mp hc).2.2 hreversed.not_ge
  · exact .refl _
  · rw [Opposite, Scalar.neg_neg]
    exact .refl _
  · exact h

theorem signum (h : Opposite x y) (h0 : y.value ≠ 0) : Opposite x.signum y.signum := by
  have hvalue := h.value_eq
  rw [value_neg] at hvalue
  rcases lt_or_gt_of_ne h0 with hneg | hpos
  · rw [signum_of_neg hneg, signum_of_pos (by linarith), Opposite, Scalar.neg_neg]
    exact .refl _
  · rw [signum_of_pos hpos, signum_of_neg (by linarith)]
    exact .refl _

/-- A zero is only found outside a deadband whose width is no number. -/
theorem isNaN_outside {w : Scalar} (hy : y.value = 0) (hwidth : ¬w ≤ 0.0) (houtside : ¬y.abs ≤ w) :
    (y.abs - w).isNaN = true := by
  rw [Scalar.sub_eq_add_neg]
  cases hn : y.isNaN with
  | true => exact isNaN_add_left (by rwa [isNaN_abs]) _
  | false =>
    refine isNaN_add_right _ ?_
    rw [isNaN_neg, ← Bool.not_eq_false]
    intro hw
    rw [le_iff_value hw isNaN_zero, value_zero, not_le] at hwidth
    rw [le_iff_value (by rwa [isNaN_abs]) hw, value_abs, hy, abs_zero, not_le] at houtside
    exact hwidth.not_gt houtside

theorem deadband (h : Opposite x y) (w : Scalar) :
    Opposite (Scalar.deadband w x) (Scalar.deadband w y) := by
  simp only [Scalar.deadband, h.abs_eq]
  split_ifs with hnone hinside
  · exact h
  · exact zero
  · by_cases h0 : y.value = 0
    · have hrest := isNaN_outside h0 hnone hinside
      have hlost : ∀ s : Scalar, (s * (y.abs - w) / (1.0 - w)).isNaN = true := by
        intro s
        rw [Scalar.mul_comm]
        exact isNaN_div_left (isNaN_mul_left hrest s) _
      exact Or.inr ⟨hlost _, by rw [isNaN_neg]; exact hlost _⟩
    · exact ((h.signum h0).mul _).div _

theorem pow5 (h : Opposite x y) : Opposite (Scalar.pow5 x) (Scalar.pow5 y) := by
  have hsquare := h.mul_opposite h
  unfold Scalar.pow5
  dsimp only
  rw [Scalar.mul_comm x, Scalar.mul_comm y]
  exact alike_mul (hsquare.mul hsquare) h

end Opposite

end Scalar

open Scalar

theorem StickCurve.opposite_apply (curve : StickCurve) {x y : Scalar} (h : Opposite x y) :
    Opposite (curve.apply x) (curve.apply y) := by
  have hline : ∀ e : Scalar, Opposite (x * (1.0 - e)) (y * (1.0 - e)) := fun e => h.mul _
  cases curve with
  | expo maxRate e =>
    have hcube : Opposite (x * x * x) (y * y * y) := .alike_mul (h.mul_opposite h) h
    exact .alike_mul (.refl maxRate) ((hcube.mul e).add (hline e))
  | betaflight rcRate superRate e =>
    simp only [apply, h.abs_eq]
    have hbent := (((h.mul y.abs).mul y.abs).mul y.abs).mul e
    exact (Opposite.alike_mul (.refl (200.0 * rcRate)) (hbent.add (hline e))).mul _
  | actual rate e centre =>
    simp only [apply, h.abs_eq]
    have hbent : Opposite (pow5 x * e + x * (1.0 - e)) (pow5 y * e + y * (1.0 - e)) :=
      (h.pow5.mul e).add (hline e)
    exact (Opposite.alike_mul (.refl centre) h).add
      (.alike_mul (.refl (rate - centre)) (.alike_mul (.refl y.abs) hbent))

namespace StickRates

theorem opposite_setpoint (r : StickRates) (axis : Axis) (highRates : Bool) {x y : Scalar}
    (h : Opposite x y) : Opposite (r.setpoint axis highRates x) (r.setpoint axis highRates y) := by
  have hrange : (-1.0 : Scalar) ≤ 1.0 := IsRange.ordered
  have hdeflection := (h.limit hrange).deadband r.deadband
  exact (((r.curve axis).opposite_apply hdeflection).mul _).mul _

/-- The rates that opposite sticks ask for are opposite to each other, or neither is a number. -/
theorem setpoint_neg (r : StickRates) (axis : Axis) (highRates : Bool) (stick : Scalar) :
    Alike (r.setpoint axis highRates (-stick)) (-r.setpoint axis highRates stick) :=
  r.opposite_setpoint axis highRates (.refl (-stick))

end StickRates

end Quadrotor

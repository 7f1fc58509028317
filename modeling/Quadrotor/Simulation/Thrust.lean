import Quadrotor.Scalar

/-!
# Thrust of a motor

The static map from the duty of a motor to its thrust, a blend of a line and a square, and its
inverse.
-/

namespace Quadrotor

/-- The thrust of a motor over its duty. -/
structure ThrustCurve where
  /-- Thrust at full duty [N]. -/
  maxForce : Scalar
  /-- Share of the square. -/
  curvature : Scalar
  deriving BEq, Repr, Inhabited

namespace ThrustCurve

/-- A curve whose curvature is held within `[0, 1]`. -/
def new (maxForce curvature : Scalar) : ThrustCurve :=
  ⟨maxForce, Scalar.confine 0.0 1.0 curvature⟩

/-- The thrust [N] at a duty, which is held within `[0, 1]`. -/
def force (c : ThrustCurve) (duty : Scalar) : Scalar :=
  let d := Scalar.confine 0.0 1.0 duty
  c.maxForce * ((1.0 - c.curvature) * d + c.curvature * d * d)

/-- The curvature below which a curve counts as a line. -/
def straight : Scalar := 1e-6

/-- The duty of a thrust [N], held within the range of the curve. -/
def duty (c : ThrustCurve) (force : Scalar) : Scalar :=
  let f := Scalar.confine 0.0 1.0 (force / c.maxForce)
  if c.curvature < straight then f
  else
    let linear := 1.0 - c.curvature
    (-linear + (linear * linear + 4.0 * c.curvature * f).sqrt) / (2.0 * c.curvature)

end ThrustCurve

end Quadrotor

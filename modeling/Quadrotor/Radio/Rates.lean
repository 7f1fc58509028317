import Quadrotor.Axes
import Quadrotor.Error

/-!
# Stick rates

From a stick deflection in `[-1, 1]` to a rotation rate. Three families of curves are in use; each
is odd in the deflection, and its expo moves the response from the centre to the ends.
-/

namespace Quadrotor

/-- The response of one axis; rates in degrees per second. -/
inductive StickCurve where
  /-- A blend of a line and a cube with the given rate at full deflection. -/
  | expo (maxRate expo : Scalar)
  /-- A blend of a line and a fourth power, boosted towards full deflection. -/
  | betaflight (rcRate superRate expo : Scalar)
  /-- A given rate at full deflection and a given slope at the centre. -/
  | actual (rate expo centre : Scalar)
  deriving BEq, Repr, Inhabited

namespace StickCurve

/-- What the divisor of a boost is confined to. -/
instance boostRange : Scalar.IsRange 0.01 1.0 := ⟨by decide⟩

/-- The rate for a deflection. -/
def apply (curve : StickCurve) (x : Scalar) : Scalar :=
  match curve with
  | expo maxRate e => maxRate * (x * x * x * e + x * (1.0 - e))
  | betaflight rcRate superRate e =>
    let a := x.abs
    let shaped := x * a * a * a * e + x * (1.0 - e)
    let boost := 1.0 / Scalar.confine 0.01 1.0 (1.0 - a * superRate)
    200.0 * rcRate * shaped * boost
  | actual rate e centre =>
    centre * x + (rate - centre) * (x.abs * (Scalar.pow5 x * e + x * (1.0 - e)))

/-- Refuses a curve that is not finite and rising; `name` is the one it is reported under. -/
def check (curve : StickCurve) (name : String) : Check :=
  match curve with
  | expo maxRate e => do
    require (Scalar.isPositive maxRate) (.rate name)
    require (Scalar.inUnit e) (.expo name)
  | betaflight rcRate superRate e => do
    require (Scalar.isPositive rcRate && Scalar.within 0.0 1.0 superRate) (.rate name)
    require (Scalar.inUnit e) (.expo name)
  | actual rate e centre => do
    require (Scalar.isPositive rate && !decide (rate < centre)) (.rate name)
    require (Scalar.inUnit e) (.expo name)

end StickCurve

/-- The response of all sticks. -/
structure StickRates where
  roll : StickCurve := .expo 720.0 0.0
  pitch : StickCurve := .expo 720.0 0.0
  yaw : StickCurve := .expo 900.0 0.0
  /-- Multiplier while the high rates are switched off. -/
  lowRatesMultiplier : Scalar := 0.7
  /-- Deflection around the centre that counts as none. -/
  deadband : Scalar := 0.002
  deriving BEq, Repr, Inhabited

namespace StickRates

/-- The curve of an axis. -/
def curve (r : StickRates) : Axis → StickCurve
  | .roll => r.roll
  | .pitch => r.pitch
  | .yaw => r.yaw

/-- The rate [rad/s] that a stick asks for. -/
def setpoint (r : StickRates) (axis : Axis) (highRates : Bool) (stick : Scalar) : Scalar :=
  let deflection := Scalar.deadband r.deadband (Scalar.confine (-1.0) 1.0 stick)
  let multiplier := if highRates then 1.0 else r.lowRatesMultiplier
  (r.curve axis).apply deflection * multiplier * Scalar.degree

/-- Refuses rates that a stick cannot be mapped with. -/
def check (r : StickRates) : Check := do
  r.roll.check "rates.roll"
  r.pitch.check "rates.pitch"
  r.yaw.check "rates.yaw"
  require (decide (0.0 < r.lowRatesMultiplier) && decide (r.lowRatesMultiplier ≤ 1.0))
    (.threshold "rates.low_rates_multiplier")
  require (Scalar.within 0.0 0.5 r.deadband) (.threshold "rates.deadband")

end StickRates

end Quadrotor

import Quadrotor.Error
import Quadrotor.Vector.Rotation

/-!
# Attitude

The direction of gravity in the body frame, carried along with the gyroscope and pulled slowly
towards the accelerometer, which bounds the drift. At rest and level the accelerometer reads one g
upward. Whatever a sample does to the direction, `heal` ends the update with a usable one.
-/

namespace Quadrotor

/-- How the accelerometer is trusted. -/
structure AttitudeConfig where
  /-- Time constant of the pull [s]. -/
  tau : Scalar := 10.0
  /-- Distance from 1 g at which the accelerometer counts for nothing. -/
  trustBand : Scalar := 0.05
  /-- The least magnitude [g] that is looked at. -/
  accMin : Scalar := 0.7
  /-- The largest magnitude [g] that is looked at. -/
  accMax : Scalar := 1.3
  /-- The longest step [s] that is integrated at once. -/
  maxStep : Scalar := 0.004
  deriving BEq, Repr, Inhabited

/-- Refuses an estimate without a time constant, a band or a range. -/
def AttitudeConfig.check (c : AttitudeConfig) : Check := do
  require (Scalar.isPositive c.tau && decide (0.0 < c.maxStep)) (.threshold "estimator.tau")
  require (Scalar.isPositive c.trustBand) (.threshold "estimator.acc_trust_band")
  require (decide (c.accMin < c.accMax) && decide (0.0 ≤ c.accMin)) (.threshold "estimator.acc_range")

/-- What a tick knows about the motion of the vehicle. -/
structure Estimate where
  /-- Body rates [rad/s]. -/
  rates : Triple Scalar := .fill 0.0
  /-- Roll and pitch [rad], where an axis is leveled. -/
  attitude : Option (Tilt Scalar) := none
  deriving BEq, Repr, Inhabited

/-- The running estimate. -/
structure Attitude where
  config : AttitudeConfig
  /-- The upward direction in the body frame. -/
  gravity : Vec3 := .up
  /-- An accelerometer reading has been taken over as it was. -/
  started : Bool := false
  deriving Repr, Inhabited

namespace Attitude

/-- The step [s] to integrate over. -/
def step (c : AttitudeConfig) (dt : Scalar) : Checked Scalar :=
  if dt.isFinite then Scalar.clamp 0.0 c.maxStep dt else .ok 0.0

/-- The direction seen from a body that has turned with the given rates. A direction that is fixed in
the world turns the opposite way. -/
def propagate (gravity : Vec3) (rates : Triple Scalar) (dt : Scalar) : Vec3 :=
  if rates.all Float32.isFinite then Vec3.rotate (Vec3.scale (Vec3.neg rates) dt) gravity else gravity

/-- The share of an accelerometer reading of the given magnitude. -/
def trust (c : AttitudeConfig) (magnitude : Scalar) : Scalar :=
  Scalar.confine 0.0 1.0 (1.0 - (magnitude - 1.0).abs / c.trustBand)

/-- The estimate pulled towards an accelerometer reading [g]; the first usable one is taken over. -/
def correct (a : Attitude) (acc : Vec3) (dt : Scalar) : Attitude :=
  let magnitude := Vec3.norm acc
  if a.config.accMin ≤ magnitude ∧ magnitude ≤ a.config.accMax then
    let measured := Vec3.reduce acc magnitude
    if a.started then
      let share := trust a.config magnitude * dt / (a.config.tau + dt)
      { a with gravity := Vec3.add (Vec3.scale a.gravity (1.0 - share)) (Vec3.scale measured share) }
    else { a with gravity := measured, started := true }
  else a

/-- The direction of `v`, or upward where `v` is too short or not finite. -/
def heal (v : Vec3) : Vec3 :=
  let length := Vec3.norm v
  if 1e-3 < length ∧ length.isFinite then Vec3.reduce v length else .up

/-- Roll and pitch [rad]. -/
def angles (a : Attitude) : Tilt Scalar := Vec3.tilt a.gravity

/-- One more sample, `dt` seconds after the one before; angles are produced only while leveling. -/
def update (a : Attitude) (rates : Triple Scalar) (acc : Option Vec3) (dt : Scalar)
    (leveling : Bool) : Checked (Attitude × Estimate) := do
  let dt ← step a.config dt
  let a := { a with gravity := propagate a.gravity rates dt }
  let a := match acc with
    | some acc => a.correct acc dt
    | none => a
  let a := { a with gravity := heal a.gravity }
  return (a, { rates := rates, attitude := if leveling then some a.angles else none })

end Attitude

end Quadrotor

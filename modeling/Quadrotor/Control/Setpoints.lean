import Quadrotor.Control.AnglePid
import Quadrotor.Radio.Rates
import Quadrotor.Status

/-!
# Rate setpoints

From sticks and attitude to the rates that the controllers are to hold. An axis is flown by rate, by
angle, or by a blend of both that hands over to rates as the stick is deflected or the vehicle tilts.
Without an attitude there is nothing to level against, and every axis is flown by rate.
-/

namespace Quadrotor

/-- How leveled axes behave. -/
structure LevelConfig where
  /-- Angle at full deflection [deg]. -/
  maxAngle : Scalar := 66.0
  /-- Largest rate setpoint of an angle controller [deg/s]. -/
  maxRate : Scalar := 230.0
  /-- Tilt at which a blended axis is flown by rate alone [deg]. -/
  transition : Scalar := 55.0
  /-- Multiplier of the controller outputs while leveling. -/
  attenuation : Scalar := 0.90
  anglePid : AnglePidConfig := {}
  deriving BEq, Repr, Inhabited

/-- Refuses angles and rates that are not positive, or too large. -/
def LevelConfig.check (c : LevelConfig) : Check := do
  require (Scalar.isPositive c.maxAngle && decide (c.maxAngle < 90.0)) (.threshold "level.max_angle")
  require (Scalar.isPositive c.maxRate) (.rate "level.max_rate")
  require (Scalar.isPositive c.transition) (.threshold "level.horizon_transition")
  require (decide (0.0 < c.attenuation) && decide (c.attenuation ≤ 1.0)) (.threshold "level.attenuation")
  require (Scalar.isPositive c.anglePid.derivativeCutoff) (.cutoff c.anglePid.derivativeCutoff)

/-- How one axis is flown. -/
inductive AxisMode where
  | rate
  | level
  | blend
  deriving DecidableEq, Repr, Inhabited

/-- How a flight mode flies roll and pitch; yaw is always flown by rate. -/
def FlightMode.axisModes : FlightMode → Tilt AxisMode
  | .acro => ⟨.rate, .rate⟩
  | .angle => ⟨.level, .level⟩
  | .horizon => ⟨.blend, .blend⟩
  | .race => ⟨.level, .rate⟩
  | .raceHorizon => ⟨.blend, .rate⟩

/-- What the setpoints of a tick depend on. -/
structure SetpointInput where
  sticks : Triple Scalar
  mode : FlightMode
  /-- Estimated roll and pitch [rad], if there is an estimate. -/
  attitude : Option (Tilt Scalar)
  /-- Roll and pitch [rad] to hold with centred sticks. -/
  trims : Tilt Scalar
  highRates : Bool
  deriving BEq, Repr, Inhabited

/-- The setpoints of a run of ticks. -/
structure Setpoints where
  rates : StickRates
  level : LevelConfig
  pids : Tilt AnglePid
  deriving Repr, Inhabited

namespace Setpoints

/-- No ticks so far, and one to come every `period` seconds. -/
def new (rates : StickRates) (level : LevelConfig) (period : Scalar) : Setpoints where
  rates := rates
  level := level
  pids := .fill (AnglePid.new level.anglePid period (some (level.maxRate * Scalar.degree)))

/-- The angle controllers without their memory. -/
def reset (s : Setpoints) : Setpoints := { s with pids := s.pids.map AnglePid.reset }

/-- The rates that the sticks ask for by themselves. -/
def stickRates (r : StickRates) (sticks : Triple Scalar) (highRates : Bool) : Triple Scalar :=
  .ofFn fun axis => r.setpoint axis highRates (sticks.get axis)

/-- The share of the stick's own rate in a blended axis. -/
def rateShare (c : LevelConfig) (sticks : Triple Scalar) (attitude : Tilt Scalar) : Scalar :=
  let deflection := Scalar.maxNum sticks.x.abs sticks.y.abs
  let tilt := Scalar.maxNum attitude.roll.abs attitude.pitch.abs / (c.transition * Scalar.degree)
  Scalar.confine 0.0 1.0 (Scalar.maxNum deflection tilt)

/-- One axis for one tick: its angle controller afterwards, and its setpoint. -/
def axisSetpoint (c : LevelConfig) (pid : AnglePid) (mode : AxisMode)
    (stick trim attitude stickRate share : Scalar) : Checked (AnglePid × Scalar) :=
  match mode with
  | .rate => .ok (pid.reset, stickRate)
  | .level => pid.update (stick * c.maxAngle * Scalar.degree + trim - attitude)
  | .blend => do
    let (pid, level) ← pid.update (stick * c.maxAngle * Scalar.degree + trim - attitude)
    return (pid, level * (1.0 - share) + stickRate * share)

/-- One more tick: the state afterwards, and the rate setpoints [rad/s]. -/
def update (s : Setpoints) (input : SetpointInput) : Checked (Setpoints × Triple Scalar) :=
  let sticks := input.sticks.map (Scalar.limitOrZero (-1.0) 1.0)
  let plain := stickRates s.rates sticks input.highRates
  match input.attitude with
  | none => .ok (s.reset, plain)
  | some attitude => do
    let share := rateShare s.level sticks attitude
    let modes := input.mode.axisModes
    let (roll, x) ← axisSetpoint s.level s.pids.roll modes.roll sticks.x input.trims.roll
      attitude.roll plain.x share
    let (pitch, y) ← axisSetpoint s.level s.pids.pitch modes.pitch sticks.y input.trims.pitch
      attitude.pitch plain.y share
    return ({ s with pids := ⟨roll, pitch⟩ }, ⟨x, y, plain.z⟩)

end Setpoints

end Quadrotor

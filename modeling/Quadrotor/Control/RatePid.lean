import Quadrotor.Filter.Conditioner
import Quadrotor.Status

/-!
# Rate controller of one axis

The innermost controller of the vehicle: from a rate setpoint and a measured rate to a normalised
motor correction. The derivative acts on the filtered measurement alone, so a step of the setpoint
never kicks it. The integral is frozen while the output saturates in the direction of the error,
slowed while the setpoint runs away from its own average, drained on the ground, and always limited.
-/

namespace Quadrotor

/-- The gains of one axis; the derivative gain is in seconds. -/
structure Gains where
  kp : Scalar
  ki : Scalar
  kd : Scalar
  deriving BEq, Repr, Inhabited

/-- All gains are finite and not negative. -/
def Gains.isValid (g : Gains) : Bool :=
  Scalar.isNonneg g.kp && Scalar.isNonneg g.ki && Scalar.isNonneg g.kd

/-- How integration is slowed while the setpoint moves. -/
structure WindupProtection where
  /-- Distance of the setpoint from its average at which integration stops [rad/s]. -/
  threshold : Scalar
  /-- Cutoff of the average [Hz]. -/
  cutoff : Scalar
  deriving BEq, Repr, Inhabited

/-- The structure of one controller, fixed in flight. -/
structure RatePidConfig where
  /-- Largest magnitude of the integral. -/
  integralLimit : Scalar
  /-- Output magnitude from which the integral is no longer pushed outward. -/
  outputLimit : Scalar
  /-- Decay of the integral on the ground [1/s]. -/
  groundLeak : Scalar
  derivative : DerivativeFilter
  windup : Option WindupProtection
  deriving BEq, Repr, Inhabited

namespace RatePidConfig

/-- Refuses limits and cutoffs that are not finite, or not positive where they divide. -/
def check (c : RatePidConfig) : Check := do
  require (Scalar.isNonneg c.integralLimit && Scalar.isNonneg c.outputLimit &&
    Scalar.isNonneg c.groundLeak) (.threshold "rate_control.limits")
  require (Scalar.isPositive c.derivative.cutoff) (.cutoff c.derivative.cutoff)
  match c.windup with
  | none => .ok ()
  | some w => do
    require (Scalar.isPositive w.threshold) (.threshold "rate_control.windup_threshold")
    require (Scalar.isPositive w.cutoff) (.cutoff w.cutoff)

end RatePidConfig

/-- What the axes share in a tick. -/
structure PidContext where
  /-- Multiplier of the outputs. -/
  outputScale : Scalar := 1.0
  /-- The vehicle has not lifted off. -/
  onGround : Bool := true
  deriving BEq, Repr, Inhabited

/-- The controller of one axis. -/
structure RatePid where
  gains : Gains
  config : RatePidConfig
  /-- Tick period [s]. -/
  period : Scalar
  integral : Scalar := 0.0
  /-- The latest filtered measurement. -/
  prevMeasurement : Option Scalar := none
  /-- The latest output before scaling. -/
  prevOutput : Scalar := 0.0
  terms : PidTerms := {}
  derivativeFilter : List (Lowpass Scalar)
  /-- The average of the setpoint, where integration is protected by it. -/
  average : Option (WindupProtection × Lowpass Scalar)
  deriving Repr, Inhabited

namespace RatePid

/-- A controller that has seen nothing. -/
def new (gains : Gains) (config : RatePidConfig) (period : Scalar) : RatePid :=
  { gains := gains
    config := config
    period := period
    derivativeFilter := config.derivative.build period
    average := config.windup.map fun w => (w, Lowpass.ofCutoff w.cutoff period) }

/-- The previous output saturates in the direction of the error. -/
def saturated (p : RatePid) (error : Scalar) : Bool :=
  (decide (p.config.outputLimit ≤ p.prevOutput) && decide (0.0 < error)) ||
    (decide (p.prevOutput ≤ -p.config.outputLimit) && decide (error < 0.0))

/-- The average of the setpoint after one more value, and the share of integration it leaves. -/
def relax (average : Option (WindupProtection × Lowpass Scalar)) (setpoint : Scalar) :
    Option (WindupProtection × Lowpass Scalar) × Scalar :=
  match average with
  | none => (none, 1.0)
  | some (w, f) =>
    let f := f.update setpoint
    let deviation := (setpoint - f.y).abs
    (some (w, f), Scalar.confine 0.0 1.0 (1.0 - deviation / w.threshold))

/-- The integral before it is limited. -/
def accumulate (p : RatePid) (error relax : Scalar) (onGround : Bool) : Scalar :=
  let i := if p.saturated error then p.integral
    else p.integral + p.gains.ki * error * relax * p.period
  if onGround then i * Scalar.maxNum (1.0 - p.config.groundLeak * p.period) 0.0 else i

/-- One more tick: the controller after it, and its output. -/
def update (p : RatePid) (setpoint measurement : Scalar) (context : PidContext) :
    Checked (RatePid × Scalar) := do
  let error := setpoint - measurement
  let proportional := p.gains.kp * error
  let (derivativeFilter, filtered) := Lowpass.updateAll p.derivativeFilter measurement
  let derivative := -p.gains.kd * (filtered - p.prevMeasurement.getD filtered) / p.period
  let (average, relax) := relax p.average setpoint
  let integral ← Scalar.clamp (-p.config.integralLimit) p.config.integralLimit
    (p.accumulate error relax context.onGround)
  let output := proportional + integral + derivative
  return ({ p with
    integral := integral
    prevMeasurement := some filtered
    prevOutput := output
    terms := ⟨proportional * context.outputScale, integral * context.outputScale,
      derivative * context.outputScale⟩
    derivativeFilter := derivativeFilter
    average := average }, output * context.outputScale)

/-- The controller without its integral and its memory of saturation. -/
def resetIntegral (p : RatePid) : RatePid := { p with integral := 0.0, prevOutput := 0.0 }

end RatePid

end Quadrotor

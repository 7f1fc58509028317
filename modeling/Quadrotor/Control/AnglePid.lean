import Quadrotor.Filter.Lowpass

/-!
# Angle controller of one axis

The outer controller of a leveled axis: from an angle error to a rate setpoint of limited magnitude.
The error is integrated only while the proportional and derivative parts leave room for it.
-/

namespace Quadrotor

/-- The gains of the angle controllers. -/
structure AnglePidConfig where
  kp : Scalar := 10.0
  ki : Scalar := 0.0
  kd : Scalar := 0.01
  /-- Cutoff of the derivative filter [Hz]. -/
  derivativeCutoff : Scalar := 50.0
  deriving BEq, Repr, Inhabited

/-- The controller of one axis. -/
structure AnglePid where
  config : AnglePidConfig
  /-- Tick period [s]. -/
  period : Scalar
  /-- Largest magnitude of the output, if it is limited. -/
  limit : Option Scalar
  integral : Scalar := 0.0
  prevError : Option Scalar := none
  derivativeFilter : Lowpass Scalar
  deriving Repr, Inhabited

namespace AnglePid

/-- A controller that has seen nothing. The sign of a limit does not matter. -/
def new (config : AnglePidConfig) (period : Scalar) (limit : Option Scalar) : AnglePid :=
  { config := config
    period := period
    limit := limit.map Float32.abs
    derivativeFilter := Lowpass.ofCutoff config.derivativeCutoff period }

/-- The controller without its integral and its memory of the error. -/
def reset (p : AnglePid) : AnglePid := { p with integral := 0.0, prevError := none }

/-- The proportional and derivative parts leave room within the limit. -/
def inRange (p : AnglePid) (pd : Scalar) : Bool :=
  match p.limit with
  | none => true
  | some l => decide (-l < pd) && decide (pd < l)

/-- A value held within the limit. -/
def limited (p : AnglePid) (x : Scalar) : Checked Scalar :=
  match p.limit with
  | none => .ok x
  | some l => Scalar.clamp (-l) l x

/-- One more tick: the controller after it, and its output. -/
def update (p : AnglePid) (error : Scalar) : Checked (AnglePid × Scalar) := do
  let filter := p.derivativeFilter.update
    (p.config.kd * (error - p.prevError.getD error) / p.period)
  let pd := p.config.kp * error + filter.y
  let integral := if p.inRange pd then p.integral + p.config.ki * error * p.period else p.integral
  let output ← p.limited (pd + integral)
  return ({ p with integral := integral, prevError := some error, derivativeFilter := filter },
    output)

end AnglePid

end Quadrotor

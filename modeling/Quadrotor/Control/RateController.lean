import Quadrotor.Control.RatePid

/-!
# Rate controllers

The controllers of the three axes side by side. They share the context of a tick, and their outputs
are attenuated while an axis is leveled.
-/

namespace Quadrotor

/-- The structure of the three controllers. -/
abbrev RateControlConfig := Triple RatePidConfig

namespace RateControlConfig

/-- Roll and pitch as they are flown without further tuning. -/
def tiltAxis : RatePidConfig where
  integralLimit := 1.7
  outputLimit := 0.8
  groundLeak := 20.0
  derivative := .secondOrder 100.0
  windup := some ⟨0.1, 10.0⟩

/-- Yaw as it is flown without further tuning. -/
def yawAxis : RatePidConfig where
  integralLimit := 0.5
  outputLimit := 0.4
  groundLeak := 20.0
  derivative := .secondOrder 100.0
  windup := none

/-- The controllers as they are flown without further tuning. -/
def standard : RateControlConfig := ⟨tiltAxis, tiltAxis, yawAxis⟩

/-- The same controllers with another derivative filter. -/
def withDerivative (c : RateControlConfig) (d : DerivativeFilter) : RateControlConfig :=
  c.map fun axis => { axis with derivative := d }

/-- Refuses a controller that `RatePidConfig.check` refuses, the first one in order. -/
def check (c : RateControlConfig) : Check := c.toList.forM RatePidConfig.check

end RateControlConfig

/-- The controllers of the three axes. -/
structure RateController where
  pids : Triple RatePid
  context : PidContext := {}
  /-- Multiplier of the outputs while leveling. -/
  attenuation : Scalar
  deriving Repr, Inhabited

namespace RateController

/-- Controllers that have seen nothing. -/
def new (config : RateControlConfig) (gains : Triple Gains) (attenuation period : Scalar) :
    RateController where
  pids := Triple.zipWith (fun c g => RatePid.new g c period) config gains
  attenuation := attenuation

/-- The controllers with other gains; what they remember stays. -/
def withGains (r : RateController) (gains : Triple Gains) : RateController :=
  { r with pids := Triple.zipWith (fun p g => { p with gains := g }) r.pids gains }

/-- The controllers ready for a tick. A scale that is not finite counts as one. -/
def prepare (r : RateController) (outputScale : Scalar) (onGround : Bool) : RateController :=
  { r with context := ⟨if outputScale.isFinite then outputScale else 1.0, onGround⟩ }

/-- The context of one axis in the given mode. -/
def contextIn (r : RateController) (mode : FlightMode) : PidContext :=
  if mode.isLeveling then
    { r.context with outputScale := r.context.outputScale * r.attenuation }
  else r.context

/-- One more tick of one axis. -/
def updateAxis (r : RateController) (axis : Axis) (mode : FlightMode) (setpoint measured : Scalar) :
    Checked (RateController × Scalar) := do
  let (pid, output) ← (r.pids.get axis).update setpoint measured (r.contextIn mode)
  return ({ r with pids := r.pids.set axis pid }, output)

/-- One more tick of all axes. -/
def update (r : RateController) (mode : FlightMode) (setpoints measured : Triple Scalar) :
    Checked (RateController × Triple Scalar) := do
  let (r, x) ← r.updateAxis .roll mode setpoints.x measured.x
  let (r, y) ← r.updateAxis .pitch mode setpoints.y measured.y
  let (r, z) ← r.updateAxis .yaw mode setpoints.z measured.z
  return (r, ⟨x, y, z⟩)

/-- The controllers without their integrals, as after every change of the arming state. -/
def reset (r : RateController) : RateController := { r with pids := r.pids.map RatePid.resetIntegral }

end RateController

end Quadrotor

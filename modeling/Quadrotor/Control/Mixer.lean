import Quadrotor.Control.Airframe
import Quadrotor.Error
import Quadrotor.Status

/-!
# Mixer

From throttle and axis commands to the duty of each motor. Where a motor would exceed its range, all
motors are lowered or raised together to keep the commanded torques, and what is still clipped is
carried into the next tick. A disabled motor has duty zero, and an enabled one at least the least
duty it spins at.
-/

namespace Quadrotor

/-- Limits of the mixer; a stage without a limit is switched off. -/
structure MixerConfig where
  /-- Lower all motors by at most this much when one exceeds full duty. -/
  lowerMax : Option Scalar := some 0.10
  /-- Raise all motors by at most this much when one is below zero. -/
  raiseMax : Option Scalar := some 0.2
  /-- Throttle that must be exceeded once after arming before motors are raised. -/
  raiseThrottle : Scalar := 0.10
  /-- Carry at most this much of the clipped duty into the next tick. -/
  carryMax : Option Scalar := some 0.2
  /-- The least duty of an enabled motor. -/
  motorMin : Scalar := 0.05
  deriving BEq, Repr, Inhabited

/-- Refuses a least duty outside `[0, 1)` and limits outside `[0, 1]`. -/
def MixerConfig.check (c : MixerConfig) : Check := do
  require (Scalar.within 0.0 1.0 c.motorMin) (.threshold "mixer.motor_min")
  require ([c.lowerMax, c.raiseMax, c.carryMax].all fun limit =>
    match limit with
    | none => true
    | some l => Scalar.inUnit l) (.threshold "mixer.limits")

/-- The mixer between ticks. -/
structure Mixer where
  config : MixerConfig
  /-- The sign with which each motor answers to each axis. -/
  table : PerMotor (Triple Scalar)
  yawInverted : Bool := false
  /-- The throttle has been high enough since arming to raise motors. -/
  raiseLatched : Bool := false
  /-- Clipped duty to be made up for. -/
  carry : PerMotor Scalar := .fill 0.0
  deriving Repr, Inhabited

namespace Mixer

/-- The mixer of an airframe, before any tick. -/
def new (config : MixerConfig) (airframe : Airframe) : Mixer :=
  { config := config, table := airframe.signTable }

/-- The duty that a motor would need. -/
def demand (throttle : Scalar) (commands signs : Triple Scalar) : Scalar :=
  throttle + signs.x * commands.x + signs.y * commands.y + signs.z * commands.z

/-- The largest of four duties. -/
def greatest (d : PerMotor Scalar) : Scalar := d.toList.foldl Scalar.maxNum (-Scalar.largest)

/-- The least of four duties. -/
def least (d : PerMotor Scalar) : Scalar := d.toList.foldl Scalar.minNum Scalar.largest

/-- Duties lowered together, given the largest of them. -/
def lower (limit : Option Scalar) (greatest : Scalar) (d : PerMotor Scalar) : PerMotor Scalar :=
  match limit with
  | none => d
  | some l => if 1.0 < greatest then d.map (· - Scalar.minNum (greatest - 1.0) l) else d

/-- Duties raised together, given the least demand. -/
def raise (limit : Option Scalar) (latched : Bool) (least : Scalar) (d : PerMotor Scalar) :
    PerMotor Scalar :=
  match limit with
  | none => d
  | some l => if latched ∧ least < 0.0 then d.map (· + Scalar.minNum (-least) l) else d

/-- One motor's duty with its carry added, and the carry that is left. -/
def carryOver (limit duty carry : Scalar) : Checked (Scalar × Scalar) := do
  let duty := duty + carry
  return (duty, ← Scalar.clamp 0.0 limit (duty - 1.0))

/-- A function that may abort, applied to every motor in order. -/
def eachMotor {α β : Type} (f : α → Checked β) (m : PerMotor α) : Checked (PerMotor β) := do
  let a ← f m.backLeft
  let b ← f m.frontLeft
  let c ← f m.backRight
  let d ← f m.frontRight
  return ⟨a, b, c, d⟩

/-- Duties with the carry added, and the carry that is left. -/
def carryAll (limit : Option Scalar) (d carry : PerMotor Scalar) :
    Checked (PerMotor Scalar × PerMotor Scalar) :=
  match limit with
  | none => .ok (d, carry)
  | some l => do
    let both ← eachMotor (fun p => carryOver l p.1 p.2) (PerMotor.zipWith Prod.mk d carry)
    return (both.map Prod.fst, both.map Prod.snd)

/-- One more tick: the mixer after it, and the duty of each motor. -/
def mix (m : Mixer) (commands : Triple Scalar) (throttle : Scalar) (state : ArmingState) :
    Checked (Mixer × PerMotor Scalar) :=
  if state.motorsEnabled then do
    let throttle := Scalar.orZero throttle
    let commands := commands.map Scalar.orZero
    let commands := if m.yawInverted then { commands with z := -commands.z } else commands
    let latched := m.raiseLatched || decide (m.config.raiseThrottle < throttle)
    let demands := m.table.map (demand throttle commands)
    let lowered := lower m.config.lowerMax (greatest demands) demands
    let raised := raise m.config.raiseMax latched (least demands) lowered
    let (duties, carry) ← carryAll m.config.carryMax raised m.carry
    let motors ← eachMotor (Scalar.clamp m.config.motorMin 1.0) duties
    return ({ m with raiseLatched := latched, carry := carry }, motors)
  else .ok ({ m with raiseLatched := false, carry := .fill 0.0 }, .fill 0.0)

end Mixer

end Quadrotor

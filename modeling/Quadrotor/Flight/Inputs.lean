import Quadrotor.Axes
import Quadrotor.Flight.Watch
import Quadrotor.Radio.Channels
import Quadrotor.Time

/-!
# Tick inputs

What arrives from outside between two ticks: motion samples, radio frames and battery readings. Each
of them comes through a watch, so a tick sees the latest message of a producer, and sees it once.
-/

namespace Quadrotor

/-- A reading of the motion sensor. -/
structure MotionSample where
  /-- Time of the reading [µs]. -/
  time : Time
  /-- Body rates [rad/s]. -/
  gyro : Triple Scalar
  /-- Specific force [g], where it was read too. -/
  acc : Option (Triple Scalar) := none
  /-- The sensor vouches for the reading. -/
  valid : Bool := true
  deriving BEq, Repr, Inhabited

/-- The reading is vouched for and made of finite numbers. -/
def MotionSample.isUsable (s : MotionSample) : Bool :=
  s.valid && s.gyro.all Float32.isFinite &&
    match s.acc with
    | some acc => acc.all Float32.isFinite
    | none => true

/-- What a tick is given. -/
structure TickInputs where
  sample : Option MotionSample := none
  radio : Option RadioFrame := none
  /-- Voltage of the battery cell [V]. -/
  voltage : Option Scalar := none
  /-- The tick before ran past its period. -/
  overran : Bool := false
  deriving BEq, Repr, Inhabited

/-- The usable motion sample of a tick. -/
def TickInputs.usableSample (i : TickInputs) : Option MotionSample :=
  i.sample.filter MotionSample.isUsable

/-- The channels of a frame of a healthy link. -/
def TickInputs.healthyChannels (i : TickInputs) : Option Channels :=
  match i.radio with
  | some frame => if frame.linkOk then some frame.channels else none
  | none => none

/-- The producers' ends. -/
structure Producers where
  motion : Watch MotionSample := {}
  radio : Watch RadioFrame := {}
  battery : Watch Scalar := {}
  deriving Inhabited

/-- The ticks' ends. -/
structure InputPorts where
  motion : Watch.Reader := {}
  radio : Watch.Reader := {}
  battery : Watch.Reader := {}
  deriving DecidableEq, Repr, Inhabited

/-- Everything that has changed since the ports were last polled. -/
def InputPorts.poll (ports : InputPorts) (producers : Producers) (overran : Bool) :
    InputPorts × TickInputs :=
  let (motion, sample) := producers.motion.changed ports.motion
  let (radio, frame) := producers.radio.changed ports.radio
  let (battery, voltage) := producers.battery.changed ports.battery
  (⟨motion, radio, battery⟩, ⟨sample, frame, voltage, overran⟩)

end Quadrotor

import Quadrotor.Axes

/-!
# Status

What the flight core reports about itself: the arming state, the flight mode, the reasons that keep
it from arming or make it land, and the events of a tick.
-/

namespace Quadrotor

/-- Whether the motors may spin, and on whose authority. -/
inductive ArmingState where
  | disarmed
  | armed
  /-- Descending without a pilot. -/
  | failsafeLanding
  deriving DecidableEq, Repr, Inhabited

/-- The motors may spin. -/
def ArmingState.motorsEnabled : ArmingState → Bool
  | .disarmed => false
  | .armed | .failsafeLanding => true

/-- All states. -/
def ArmingState.all : List ArmingState := [.disarmed, .armed, .failsafeLanding]

/-- The name of a state, as a listing shows it. -/
def ArmingState.name : ArmingState → String
  | .disarmed => "Disarmed"
  | .armed => "Armed"
  | .failsafeLanding => "FailsafeLanding"

/-- Why the vehicle was disarmed. -/
inductive DisarmReason where
  | uninitialized
  | userCommand
  | landingComplete
  deriving DecidableEq, Repr, Inhabited

/-- The name of a reason, as a listing shows it. -/
def DisarmReason.name : DisarmReason → String
  | .uninitialized => "Uninitialized"
  | .userCommand => "UserCommand"
  | .landingComplete => "LandingComplete"

/-- Why the vehicle lands by itself. -/
inductive FailsafeReason where
  | linkLoss
  | sensorLoss
  | lowVoltage
  deriving DecidableEq, Repr, Inhabited

/-- The name of a reason, as a listing shows it. -/
def FailsafeReason.name : FailsafeReason → String
  | .linkLoss => "LinkLoss"
  | .sensorLoss => "SensorLoss"
  | .lowVoltage => "LowVoltage"

/-- How the sticks are understood. -/
inductive FlightMode where
  /-- Sticks command rates on all axes. -/
  | acro
  /-- Roll and pitch sticks command angles. -/
  | angle
  /-- Angles near the centre and near level, rates beyond. -/
  | horizon
  /-- Roll commands an angle, pitch a rate. -/
  | race
  /-- Roll as in `horizon`, pitch a rate. -/
  | raceHorizon
  deriving DecidableEq, Repr, Inhabited

/-- All modes. -/
def FlightMode.all : List FlightMode := [.acro, .angle, .horizon, .race, .raceHorizon]

/-- The name of a mode, as a listing shows it. -/
def FlightMode.name : FlightMode → String
  | .acro => "Acro"
  | .angle => "Angle"
  | .horizon => "Horizon"
  | .race => "Race"
  | .raceHorizon => "RaceHorizon"

/-- Some axis is flown by its angle. -/
def FlightMode.isLeveling : FlightMode → Bool
  | .acro => false
  | .angle | .horizon | .race | .raceHorizon => true

/-- The reasons for which the vehicle does not arm. -/
structure Blockers where
  /-- No fresh sensor data. -/
  noSensor : Bool := false
  /-- The throttle is not low. -/
  highThrottle : Bool := false
  /-- The radio link is lost. -/
  linkLost : Bool := false
  /-- The battery was below the cutoff when it was first read. -/
  lowBattery : Bool := false
  /-- The sticks are being checked. -/
  stickCheck : Bool := false
  /-- The arm switch has to be released first. -/
  switchLatched : Bool := false
  deriving DecidableEq, Repr, Inhabited

namespace Blockers

/-- Nothing keeps the vehicle from arming. -/
def isEmpty (b : Blockers) : Bool := b == {}

/-- The reasons as a bit set, in the order of the fields. -/
def bits (b : Blockers) : Nat :=
  b.noSensor.toNat + 2 * b.highThrottle.toNat + 4 * b.linkLost.toNat + 8 * b.lowBattery.toNat +
    16 * b.stickCheck.toNat + 32 * b.switchLatched.toNat

end Blockers

/-- What a completed stick gesture asks for. -/
inductive GestureAction where
  | toggleLvc
  | toggleYawInversion
  | saveParams
  | stickCheckOn
  | stickCheckOff
  | nextTerm
  | nextAxis
  | increaseGain
  | decreaseGain
  deriving DecidableEq, Repr, Inhabited

/-- All actions. -/
def GestureAction.all : List GestureAction :=
  [.toggleLvc, .toggleYawInversion, .saveParams, .stickCheckOn, .stickCheckOff, .nextTerm, .nextAxis,
    .increaseGain, .decreaseGain]

/-- The name of an action, as a listing shows it. -/
def GestureAction.name : GestureAction → String
  | .toggleLvc => "ToggleLvc"
  | .toggleYawInversion => "ToggleYawInversion"
  | .saveParams => "SaveParams"
  | .stickCheckOn => "StickCheckOn"
  | .stickCheckOff => "StickCheckOff"
  | .nextTerm => "NextTerm"
  | .nextAxis => "NextAxis"
  | .increaseGain => "IncreaseGain"
  | .decreaseGain => "DecreaseGain"

/-- An occurrence worth telling the pilot. -/
inductive Event where
  | armed
  | disarmed (reason : DisarmReason)
  | armingRejected (blockers : Blockers)
  | failsafeLanding (reason : FailsafeReason)
  | lvcActive
  | lowBattery
  | batteryOk
  | gestureMatched (action : GestureAction)
  | saveComplete
  | saveFailed
  /-- Stored parameters could not be read and the defaults are in use. -/
  | loadFailed
  | fullStickTravel
  | tickOverrun
  deriving DecidableEq, Repr, Inhabited

/-- The name of an event. -/
def Event.name : Event → String
  | .armed => "Armed"
  | .disarmed _ => "Disarmed"
  | .armingRejected _ => "ArmingRejected"
  | .failsafeLanding _ => "FailsafeLanding"
  | .lvcActive => "LvcActive"
  | .lowBattery => "LowBattery"
  | .batteryOk => "BatteryOk"
  | .gestureMatched _ => "GestureMatched"
  | .saveComplete => "SaveComplete"
  | .saveFailed => "SaveFailed"
  | .loadFailed => "LoadFailed"
  | .fullStickTravel => "FullStickTravel"
  | .tickOverrun => "TickOverrun"

/-- An event with its detail, as a listing shows it. -/
def Event.listing (e : Event) : String :=
  match e with
  | .disarmed reason => s!"{e.name}({reason.name})"
  | .armingRejected blockers => s!"{e.name}(ArmingBlocker({blockers.bits}))"
  | .failsafeLanding reason => s!"{e.name}({reason.name})"
  | .gestureMatched action => s!"{e.name}({action.name})"
  | _ => e.name

/-- The most events that one tick reports. -/
def Event.capacity : Nat := 8

/-- `events` with one more, dropped where the capacity is used up. -/
def Event.push (events : List Event) (e : Event) : List Event :=
  if events.length < Event.capacity then events ++ [e] else events

/-- The contributions to a rate controller's output. -/
structure PidTerms where
  proportional : Scalar := 0.0
  integral : Scalar := 0.0
  derivative : Scalar := 0.0
  deriving BEq, Repr, Inhabited

end Quadrotor

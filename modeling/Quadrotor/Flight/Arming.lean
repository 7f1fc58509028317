import Quadrotor.Error
import Quadrotor.Filter.Lowpass
import Quadrotor.Flight.Counter
import Quadrotor.Status

/-!
# Arming

The state machine that decides whether the motors may spin and which throttle they get. It arms only
when nothing blocks it, lands by itself when the link, the sensor or the battery fails, and ends a
landing when the pilot takes over or the throttle has run out.
-/

namespace Quadrotor

/-- Limits of the state machine. -/
structure ArmingConfig where
  /-- Throttle below which the vehicle may be armed and counts as on the ground. -/
  safeThrottle : Scalar := 0.10
  /-- Ticks without a healthy link after which it is lost. -/
  linkTimeout : UInt32 := 1000
  /-- Ticks without a usable sample after which the sensor is lost. -/
  sensorTimeout : UInt32 := 50
  /-- Decay of the throttle in a landing [1/s]. -/
  landingRate : Scalar := 0.25
  /-- Least throttle while the idle-up switch is on. -/
  idleThrottle : Scalar := 0.05
  deriving BEq, Repr, Inhabited

/-- Refuses timeouts of no ticks, throttles outside `[0, 1)` and a landing that does not descend. -/
def ArmingConfig.check (c : ArmingConfig) : Check := do
  require (c.linkTimeout != 0 && c.sensorTimeout != 0) .zeroTimeout
  require (Scalar.within 0.0 1.0 c.safeThrottle) (.threshold "flight_state.throttle_safety")
  require (Scalar.isPositive c.landingRate) (.threshold "flight_state.landing_rate")
  require (Scalar.within 0.0 1.0 c.idleThrottle) (.threshold "flight_state.idle_throttle")

/-- A source of data that has gone silent, and for how many ticks. -/
inductive Fault where
  | link (ticks : UInt32)
  | sensor (ticks : UInt32)
  deriving DecidableEq, Repr, Inhabited

/-- The name of the fault, without its window. -/
def Fault.kind : Fault → String
  | link _ => "Link"
  | sensor _ => "Sensor"

/-- The sentence that reports the fault. -/
def Fault.message : Fault → String
  | link ticks => s!"No fresh, healthy link within {ticks} ticks."
  | sensor ticks => s!"No fresh, valid sensor sample within {ticks} ticks."

/-- What the state machine looks at in a tick. -/
structure ArmingInput where
  armSwitch : Bool := false
  idleUp : Bool := false
  /-- The throttle stick. -/
  throttle : Scalar := 0.0
  /-- A frame of a healthy link has arrived. -/
  linkFresh : Bool := true
  /-- A usable sample has arrived. -/
  sensorFresh : Bool := true
  /-- The low-voltage cutoff applies. -/
  lvc : Bool := false
  /-- The low-voltage cutoff is heeded. -/
  lvcEnabled : Bool := true
  /-- The battery was below the cutoff when it was first read. -/
  startupLow : Bool := false
  /-- Additional decay of the throttle in a landing [1/s]. -/
  landingDecay : Scalar := 0.0
  deriving BEq, Repr, Inhabited

/-- What the state machine decides in a tick. -/
structure ArmingOutput where
  state : ArmingState
  /-- The throttle for the mixer. -/
  throttle : Scalar
  /-- The vehicle counts as on the ground. -/
  onGround : Bool
  /-- The state is not the one of the tick before. -/
  transition : Bool
  deriving BEq, Repr, Inhabited

/-- Ticks since something fresh, up to a timeout. -/
structure Staleness where
  ticks : UInt32
  timeout : UInt32
  deriving DecidableEq, Repr, Inhabited

namespace Staleness

/-- Nothing has arrived yet. -/
def new (timeout : UInt32) : Staleness := ⟨timeout, timeout⟩

/-- One more tick. -/
def update (s : Staleness) (fresh : Bool) : Staleness :=
  { s with ticks := if fresh then 0 else min (Counter.up s.ticks) s.timeout }

/-- Nothing has arrived within the timeout. -/
def lost (s : Staleness) : Bool := decide (s.timeout ≤ s.ticks)

end Staleness

/-- The state machine between ticks. -/
structure Arming where
  config : ArmingConfig
  /-- Tick period [s]. -/
  period : Scalar
  state : ArmingState := .disarmed
  link : Staleness
  sensor : Staleness
  /-- The link was lost in the tick before. -/
  linkWasLost : Bool := true
  /-- The arm switch has to be released before it counts. -/
  switchLatched : Bool := false
  /-- The sticks are being checked. -/
  stickCheck : Bool := false
  /-- The arm switch in the tick before. -/
  prevArmSwitch : Bool := false
  /-- The low-voltage cutoff in the tick before. -/
  prevLvc : Bool := false
  /-- The throttle in use. -/
  throttle : Scalar := 0.0
  deriving Repr, Inhabited

namespace Arming

/-- The state machine before any tick. -/
def new (config : ArmingConfig) (period : Scalar) : Arming :=
  { config := config
    period := period
    link := Staleness.new config.linkTimeout
    sensor := Staleness.new config.sensorTimeout }

/-- What blocks arming, given the throttle stick. -/
def blockers (a : Arming) (throttle : Scalar) (startupLow : Bool) : Blockers where
  noSensor := a.sensor.lost
  highThrottle := !decide (throttle < a.config.safeThrottle)
  linkLost := a.link.lost
  lowBattery := startupLow
  stickCheck := a.stickCheck
  switchLatched := a.switchLatched

/-- What is silent at present; the link goes before the sensor. -/
def fault (a : Arming) : Option Fault :=
  if a.link.lost then some (.link a.link.ticks)
  else if a.sensor.lost then some (.sensor a.sensor.ticks)
  else none

/-- The arm switch, which means nothing without a link. -/
def effectiveSwitch (a : Arming) (input : ArmingInput) : Bool := input.armSwitch && !a.link.lost

/-- The tick's data are noted: freshness, and whether the arm switch has to be released. A switch
that is on when the link comes up does not count until it has been off. -/
def observe (a : Arming) (input : ArmingInput) : Arming :=
  let a := { a with
    link := a.link.update input.linkFresh
    sensor := a.sensor.update input.sensorFresh }
  let lost := a.link.lost
  let switch := a.effectiveSwitch input
  let latched := a.switchLatched || (a.linkWasLost && !lost && switch)
  { a with linkWasLost := lost, switchLatched := latched && (switch || lost) }

/-- The reason to land, if there is one; the link goes first, then the sensor, then the battery. -/
def failsafeReason (a : Arming) (input : ArmingInput) : Option FailsafeReason :=
  if a.link.lost then some .linkLoss
  else if a.sensor.lost then some .sensorLoss
  else if input.lvc && input.lvcEnabled then some .lowVoltage
  else none

/-- The state machine disarmed. -/
def disarm (a : Arming) : Arming := { a with state := .disarmed, throttle := 0.0 }

/-- A tick that starts disarmed. -/
def whileDisarmed (a : Arming) (input : ArmingInput) (stick : Scalar) : Arming × Option Event :=
  let switch := a.effectiveSwitch input
  let blockers := a.blockers stick input.startupLow
  if switch && blockers.isEmpty then ({ a with state := .armed }, some .armed)
  else if switch && !a.prevArmSwitch then (a, some (.armingRejected blockers))
  else (a, none)

/-- A tick that starts armed. -/
def whileArmed (a : Arming) (input : ArmingInput) : Arming × Option Event :=
  match a.failsafeReason input with
  | some reason => ({ a with state := .failsafeLanding }, some (.failsafeLanding reason))
  | none =>
    if a.effectiveSwitch input then (a, none) else (a.disarm, some (.disarmed .userCommand))

/-- The throttle of a landing after one more tick. -/
def decayed (a : Arming) (input : ArmingInput) : Scalar :=
  let decay := (a.config.landingRate + Scalar.maxNum input.landingDecay 0.0) * a.period
  Scalar.maxNum (a.throttle - decay) 0.0

/-- A tick that starts in a landing. A landing that ends by itself leaves the arm switch latched
unless it is known to be off. -/
def whileLanding (a : Arming) (input : ArmingInput) : Arming × Option Event :=
  let a := { a with throttle := a.decayed input }
  let switch := a.effectiveSwitch input
  if input.linkFresh && !switch then (a.disarm, some (.disarmed .userCommand))
  else if a.throttle ≤ 0.0 then
    ({ a.disarm with switchLatched := switch || a.link.lost }, some (.disarmed .landingComplete))
  else (a, none)

/-- A tick in whichever state it starts. -/
def transition (a : Arming) (input : ArmingInput) (stick : Scalar) : Arming × Option Event :=
  match a.state with
  | .disarmed => a.whileDisarmed input stick
  | .armed => a.whileArmed input
  | .failsafeLanding => a.whileLanding input

/-- The throttle in use once the state is decided. A landing keeps its own. -/
def usedThrottle (a : Arming) (input : ArmingInput) (stick : Scalar) : Scalar :=
  match a.state with
  | .armed =>
    if input.idleUp then (Line.through 0.0 1.0 a.config.idleThrottle 1.0).value stick else stick
  | .disarmed => 0.0
  | .failsafeLanding => a.throttle

/-- The throttle that tells whether the vehicle is on the ground. A landing is airborne until its own
throttle is low. -/
def groundThrottle (a : Arming) (stick : Scalar) : Scalar :=
  match a.state with
  | .failsafeLanding => a.throttle
  | .disarmed | .armed => stick

/-- One more tick: the state machine after it, its decision, and the events in order. -/
def update (a : Arming) (input : ArmingInput) : Arming × ArmingOutput × List Event :=
  let stick := Scalar.limitOrZero 0.0 1.0 input.throttle
  let observed := a.observe input
  let lvcEvents : List Event := if input.lvc && !a.prevLvc then [.lvcActive] else []
  let (moved, event) := observed.transition input stick
  let next := { moved with
    prevLvc := input.lvc
    prevArmSwitch := observed.effectiveSwitch input
    throttle := moved.usedThrottle input stick }
  let output : ArmingOutput :=
    { state := next.state
      throttle := next.throttle
      onGround := decide (next.groundThrottle stick < next.config.safeThrottle)
      transition := next.state != a.state }
  (next, output, lvcEvents ++ event.toList)

end Arming

end Quadrotor

import Quadrotor.Filter.Attitude
import Quadrotor.Filter.Conditioner
import Quadrotor.Flight.Config
import Quadrotor.Flight.Inputs
import Quadrotor.Storage.Store
import Quadrotor.Tuning.Table

/-!
# The flight core

One tick of the flight core takes in what has arrived, decides on the arming state, works off stick
gestures while disarmed, and gives each motor its duty. A tick is a chain of stages, each of which
changes its own part of the state:

* `receive` keeps the channels of the latest healthy frame,
* `applyParams` hands changed parameters to the controllers and the mixer,
* `sense` conditions a motion sample and updates the estimate,
* `monitor` takes in a battery reading,
* `decide` steps the arming state machine,
* `listen` looks for gestures,
* `command` computes the commands of the axes, and the mixer turns them into duties.

Saving is left to `idle`, between ticks.
-/

namespace Quadrotor

/-- What a tick produces. -/
structure TickOutput where
  /-- Duty of each motor. -/
  motors : PerMotor Scalar
  state : ArmingState
  mode : FlightMode
  /-- What has happened, in order. -/
  events : List Event
  deriving BEq, Repr, Inhabited

/-- The flight core between ticks. -/
structure FlightCore where
  config : FlightConfig
  conditioner : Conditioner
  attitude : Attitude
  setpoints : Setpoints
  controller : RateController
  mixer : Mixer
  battery : BatteryMonitor
  arming : Arming
  gestures : Gestures
  /-- The sticks at full throw, while their travel is checked. -/
  travel : Option TravelCheck := none
  table : TuningTable
  /-- The parameter generation and the profile that the controllers hold. -/
  applied : Option (UInt32 × Profile) := none
  /-- A save has been asked for. -/
  savePending : Bool := false
  /-- A failure to load is still to be reported. -/
  loadFailed : Bool := false
  /-- The channels of the latest healthy frame. -/
  channels : Channels := {}
  /-- The throttle in use. -/
  throttle : Scalar := 0.0
  /-- Conditioned body rates [rad/s]. -/
  gyro : Triple Scalar := .fill 0.0
  estimate : Estimate := {}
  /-- Time of the latest usable sample [µs]. -/
  lastSample : Option Time := none
  deriving Inhabited

/-- The event of a change of the low battery warning. -/
def WarningChange.event : WarningChange → Event
  | .raised => .lowBattery
  | .cleared => .batteryOk

namespace FlightCore

/-! ## Start -/

/-- The parameter set itself where it is valid, and the default set otherwise. -/
def validOrDefault (params : TuningParams) : TuningParams := if params.isValid then params else {}

/-- The flight core before any tick, whatever its configuration. -/
def build (config : FlightConfig) (params : TuningParams) : FlightCore :=
  let period := config.period
  { config := config
    conditioner := Conditioner.new config.filters.resolve period
    attitude := { config := config.attitude }
    setpoints := Setpoints.new config.rates config.level period
    controller := RateController.new config.controllers ((validOrDefault params).gains .a)
      config.level.attenuation period
    mixer := Mixer.new config.mixer Airframe.standard
    battery := BatteryMonitor.new config.battery period
    arming := Arming.new config.arming period
    gestures := { config := config.gesture }
    table := { params := validOrDefault params } }

/-- The flight core before any tick. No core comes of an invalid configuration, so the vehicle cannot
be armed with one. -/
def new (config : FlightConfig) (params : TuningParams) : Except ConfigError FlightCore := do
  config.validate
  return build config params

/-- The parameter set to start with, given what loading it came to, and whether loading failed. That
nothing is stored is no failure. -/
def initialParams : Except StoreError TuningParams → TuningParams × Bool
  | .ok params => (params, false)
  | .error .useDefaults => ({}, false)
  | .error _ => ({}, true)

/-- The flight core with the stored parameters, or with the default ones where there are none. -/
def boot {σ : Type} [ParamStore σ] (config : FlightConfig) (store : σ) :
    Except ConfigError FlightCore × σ :=
  let (loaded, store) := ParamStore.load store
  let (params, failed) := initialParams loaded
  ((new config params).map fun core => { core with loadFailed := failed }, store)

/-! ## Stages -/

/-- The radio: keeps the channels of a healthy frame, in range, and tells whether there was one. -/
def receive (c : FlightCore) (input : TickInputs) : FlightCore × Bool :=
  match input.healthyChannels with
  | some channels => ({ c with channels := channels.sanitized }, true)
  | none => (c, false)

/-- The profile that the switches select. -/
def profileOf (switches : Switches Bool) : Profile := if switches.profileB then .b else .a

/-- The controllers and the mixer hold the present parameters of a profile, taken over only when
either of the two has changed. -/
def applyParams (c : FlightCore) (profile : Profile) : FlightCore :=
  if c.applied = some (c.table.generation, profile) then c
  else
    { c with
      controller := c.controller.withGains (c.table.params.gains profile)
      mixer := { c.mixer with yawInverted := c.table.params.yawInverted }
      applied := some (c.table.generation, profile) }

/-- Time [s] since the sample before; one period for the first. A clock that runs backwards counts as
standing still. -/
def sampleStep (c : FlightCore) (time : Time) : Scalar :=
  match c.lastSample with
  | some last => (Time.since time last).seconds
  | none => c.config.period

/-- The accelerometer: offsets taken away, and filtered. -/
def conditionAcc (c : FlightCore) (dt : Scalar) (acc : Option (Triple Scalar)) :
    FlightCore × Option (Triple Scalar) :=
  match acc with
  | none => (c, none)
  | some acc =>
    let (conditioner, filtered) :=
      c.conditioner.filterAcc dt (Triple.zipWith (· - ·) acc c.table.params.accOffsets)
    ({ c with conditioner := conditioner }, some filtered)

/-- The motion sensor: conditions a sample and updates the estimate. -/
def sense (c : FlightCore) (sample : Option MotionSample) (leveling : Bool) :
    Checked FlightCore :=
  match sample with
  | none => .ok c
  | some sample => do
    let dt := c.sampleStep sample.time
    let (conditioner, gyro) := c.conditioner.filterGyro dt sample.gyro
    let c := { c with lastSample := some sample.time, conditioner := conditioner, gyro := gyro }
    let (c, acc) := c.conditionAcc dt sample.acc
    let (attitude, estimate) ← c.attitude.update gyro acc dt leveling
    return { c with attitude := attitude, estimate := estimate }

/-- The battery: takes in a reading, made under the throttle in use. -/
def monitor (c : FlightCore) (voltage : Option Scalar) : FlightCore × List Event :=
  match voltage with
  | none => (c, [])
  | some voltage =>
    let (battery, change) := c.battery.update voltage c.throttle
    ({ c with battery := battery }, (change.map WarningChange.event).toList)

/-- What the arming state machine is told. -/
def armingInput (c : FlightCore) (switches : Switches Bool) (linkFresh sensorFresh : Bool) :
    ArmingInput where
  armSwitch := switches.arming
  idleUp := switches.idleUp
  throttle := c.channels.throttle
  linkFresh := linkFresh
  sensorFresh := sensorFresh
  lvc := c.battery.state.cutoff
  lvcEnabled := c.table.params.lvcEnabled
  startupLow := c.battery.startupLow
  landingDecay := c.battery.landingDecay

/-- The arming state: steps the state machine, and drops the memory of the controllers whenever the
state changes. -/
def decide (c : FlightCore) (input : ArmingInput) : FlightCore × ArmingOutput × List Event :=
  let (arming, output, events) := c.arming.update input
  let c := { c with arming := arming, throttle := output.throttle }
  let c := if output.transition then
      { c with controller := c.controller.reset, setpoints := c.setpoints.reset }
    else c
  (c, output, events)

/-- The check of the stick travel, while there is one. -/
def checkTravel (c : FlightCore) : FlightCore × List Event :=
  match c.travel with
  | none => (c, [])
  | some before =>
    let now := TravelCheck.ofChannels c.channels
    ({ c with travel := some now }, if before.reached now then [.fullStickTravel] else [])

/-- The profile that gain gestures act on. -/
def tunedProfile (c : FlightCore) : Profile :=
  match c.applied with
  | some (_, profile) => profile
  | none => .a

/-- Carries out what is left to do after a gesture. -/
def carryOut (c : FlightCore) : ActionOutcome → FlightCore
  | .changed | .selected => c
  | .saveRequested => { c with savePending := true }
  | .stickCheck active =>
    { c with
      arming := { c.arming with stickCheck := active }
      travel := if active then some {} else none }

/-- Looks for gestures while disarmed. Sticks of a lost link or without a sensor are not live. -/
def listen (c : FlightCore) : Checked (FlightCore × List Event) := do
  let (c, travelled) := c.checkTravel
  let (gestures, action) ← c.gestures.update c.channels c.arming.fault.isNone
  let c := { c with gestures := gestures }
  match action with
  | none => return (c, travelled)
  | some action =>
    let (table, outcome) := c.table.apply action c.tunedProfile
    return ({ c with table := table }.carryOut outcome, travelled ++ [.gestureMatched action])

/-- Gestures are entered only while disarmed. -/
def listenIn (c : FlightCore) (state : ArmingState) : Checked (FlightCore × List Event) :=
  match state with
  | .disarmed => c.listen
  | .armed | .failsafeLanding => .ok ({ c with gestures := c.gestures.reset }, [])

/-- The sticks that are flown by; in a landing without a pilot they count as centred. -/
def flownSticks (c : FlightCore) : ArmingState → Triple Scalar
  | .failsafeLanding => .fill 0.0
  | .armed | .disarmed => c.channels.sticks

/-- The commands of the axes; none while the motors are disabled. -/
def command (c : FlightCore) (switches : Switches Bool) (decision : ArmingOutput) :
    Checked (FlightCore × Triple Scalar) :=
  if decision.state.motorsEnabled then do
    let mode := switches.mode
    let (setpoints, rates) ← c.setpoints.update
      { sticks := c.flownSticks decision.state
        mode := mode
        attitude := c.estimate.attitude
        trims := c.table.params.trims
        highRates := switches.highRates }
    let controller := c.controller.prepare c.battery.state.outputScale decision.onGround
    let (controller, commands) ← controller.update mode rates c.gyro
    return ({ c with setpoints := setpoints, controller := controller }, commands)
  else .ok (c, .fill 0.0)

/-- What is reported ahead of everything that a tick does. -/
def pendingEvents (c : FlightCore) (overran : Bool) : List Event :=
  (if c.loadFailed then [.loadFailed] else []) ++ (if overran then [.tickOverrun] else [])

/-- One tick: the flight core after it, and what it produces. -/
def tick (c : FlightCore) (input : TickInputs) : Checked (FlightCore × TickOutput) := do
  let pending := c.pendingEvents input.overran
  let (c, linkFresh) := { c with loadFailed := false }.receive input
  let switches := c.config.switches.resolve c.channels
  let c := c.applyParams (profileOf switches)
  let sample := input.usableSample
  let c ← c.sense sample switches.mode.isLeveling
  let (c, batteryEvents) := c.monitor input.voltage
  let (c, decision, armingEvents) :=
    c.decide (c.armingInput switches linkFresh sample.isSome)
  let (c, gestureEvents) ← c.listenIn decision.state
  let (c, commands) ← c.command switches decision
  let (mixer, motors) ← c.mixer.mix commands decision.throttle decision.state
  let events := pending ++ batteryEvents ++ armingEvents ++ gestureEvents
  return ({ c with mixer := mixer },
    { motors := motors
      state := decision.state
      mode := switches.mode
      events := events.foldl Event.push [] })

/-! ## Between ticks -/

/-- Saves the parameters if that has been asked for, and tells how it went. A save that fails is not
tried again. -/
def idle {σ : Type} [ParamStore σ] (c : FlightCore) (store : σ) :
    Checked (FlightCore × σ × Option (Except StoreError Unit)) :=
  if c.savePending then do
    let (outcome, store) ← ParamStore.save store c.table.params
    return ({ c with savePending := false }, store, some outcome)
  else .ok (c, store, none)

/-- The event that reports a save. -/
def savedEvent : Except StoreError Unit → Event
  | .ok () => .saveComplete
  | .error _ => .saveFailed

end FlightCore

end Quadrotor

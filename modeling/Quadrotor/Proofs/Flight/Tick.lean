import Mathlib
import Quadrotor.Flight.Core
import Quadrotor.Proofs.Checks
import Quadrotor.Proofs.Flight.ArmingStep

/-!
# The stages of a tick

A tick succeeds if its stages do, and then the core after it is what the last stage leaves. The
stages that cannot fail are named here; for each stage there is one statement of which parts of the
core it can change, so that whatever else a proof follows through a tick comes through unchanged.
-/

namespace Quadrotor.FlightCore

/-! ## The stages that cannot fail -/

/-- The core once the radio has been read. -/
def received (c : FlightCore) (input : TickInputs) : FlightCore :=
  ({ c with loadFailed := false }.receive input).1

/-- The switches in a tick. -/
def switchesIn (c : FlightCore) (input : TickInputs) : Switches Bool :=
  (c.received input).config.switches.resolve (c.received input).channels

/-- The core once its controllers hold the present parameters. -/
def prepared (c : FlightCore) (input : TickInputs) : FlightCore :=
  (c.received input).applyParams (profileOf (c.switchesIn input))

/-- The core once the battery has been read, from what the motion sensor has left. -/
def monitored (sensed : FlightCore) (input : TickInputs) : FlightCore × List Event :=
  sensed.monitor input.voltage

/-- What the arming state machine is told in a tick. -/
def armingInputIn (c sensed : FlightCore) (input : TickInputs) : ArmingInput :=
  (sensed.monitored input).1.armingInput (c.switchesIn input) input.healthyChannels.isSome
    input.usableSample.isSome

/-- The core once the arming state is decided. -/
def decided (c sensed : FlightCore) (input : TickInputs) :
    FlightCore × ArmingOutput × List Event :=
  (sensed.monitored input).1.decide (c.armingInputIn sensed input)

/-- What is reported in a tick, before the capacity of the report is taken into account. -/
def eventsIn (c sensed : FlightCore) (listened : FlightCore × List Event) (input : TickInputs) :
    List Event :=
  c.pendingEvents input.overran ++ (sensed.monitored input).2 ++ (c.decided sensed input).2.2 ++
    listened.2

/-- The outcomes of the stages that can fail: the core after the motion sensor, after the gestures
with their events, and after the controllers with their commands, and the mixer with its duties. -/
structure Stages (c : FlightCore) (input : TickInputs) (sensed : FlightCore)
    (listened : FlightCore × List Event) (commanded : FlightCore × Triple Scalar)
    (mixed : Mixer × PerMotor Scalar) : Prop where
  sense : (c.prepared input).sense input.usableSample (c.switchesIn input).mode.isLeveling
    = .ok sensed
  listen : (c.decided sensed input).1.listenIn (c.decided sensed input).2.1.state = .ok listened
  command : listened.1.command (c.switchesIn input) (c.decided sensed input).2.1 = .ok commanded
  mix : commanded.1.mixer.mix commanded.2 (c.decided sensed input).2.1.throttle
    (c.decided sensed input).2.1.state = .ok mixed

/-- The output of a tick with the given outcomes of its stages. -/
def outputOf (c : FlightCore) (input : TickInputs) (sensed : FlightCore)
    (listened : FlightCore × List Event) (mixed : Mixer × PerMotor Scalar) : TickOutput where
  motors := mixed.2
  state := (c.decided sensed input).2.1.state
  mode := (c.switchesIn input).mode
  events := (c.eventsIn sensed listened input).foldl Event.push []

theorem receive_fresh (c : FlightCore) (input : TickInputs) :
    (c.receive input).2 = input.healthyChannels.isSome := by
  unfold receive
  cases input.healthyChannels <;> rfl

/-- A tick succeeds exactly when its stages do. -/
theorem tick_eq_ok {c : FlightCore} {input : TickInputs} {next : FlightCore} {out : TickOutput} :
    c.tick input = .ok (next, out) ↔ ∃ sensed listened commanded mixed,
      Stages c input sensed listened commanded mixed ∧
      next = { commanded.1 with mixer := mixed.1 } ∧
      out = c.outputOf input sensed listened mixed := by
  have hfresh := receive_fresh { c with loadFailed := false } input
  unfold tick
  simp only [bind_eq_ok]
  constructor
  · rintro ⟨sensed, hsense, listened, hlisten, commanded, hcommand, mixed, hmix, hres⟩
    rw [hfresh] at hlisten hcommand hmix hres
    obtain ⟨rfl, rfl⟩ := Prod.mk.inj (Except.ok.inj hres)
    exact ⟨sensed, listened, commanded, mixed, ⟨hsense, hlisten, hcommand, hmix⟩, rfl, rfl⟩
  · rintro ⟨sensed, listened, commanded, mixed, ⟨hsense, hlisten, hcommand, hmix⟩, rfl, rfl⟩
    refine ⟨sensed, hsense, listened, ?_⟩
    rw [hfresh]
    exact ⟨hlisten, commanded, hcommand, mixed, hmix, rfl⟩

/-! ## What each stage can change -/

theorem attitude_update_config {a b : Attitude} {rates : Triple Scalar} {acc : Option Vec3}
    {dt : Scalar} {leveling : Bool} {e : Estimate}
    (h : a.update rates acc dt leveling = .ok (b, e)) : b.config = a.config := by
  have hcorrect : ∀ (a : Attitude) (acc : Vec3) (dt : Scalar), (a.correct acc dt).config = a.config := by
    intro a acc dt
    simp only [Attitude.correct]
    split_ifs <;> rfl
  obtain ⟨s, _, hb⟩ := bind_eq_ok.mp h
  rw [← (Prod.mk.inj (Except.ok.inj hb)).1]
  cases acc with
  | none => rfl
  | some acc => exact hcorrect _ acc s

theorem look_config (g : Gestures) (roll pitch : Scalar) : (g.look roll pitch).1.config = g.config := by
  unfold Gestures.look
  split_ifs
  · rfl
  · cases g.config.symbol? roll pitch with
    | none => rfl
    | some s =>
      simp only [Gestures.enter]
      cases GestureAction.ofSymbols? (Gestures.remember g.history s) <;> rfl
  · rfl

theorem gestures_update_config {g : Gestures} {channels : Channels} {live : Bool}
    {r : Gestures × Option GestureAction} (h : g.update channels live = .ok r) :
    r.1.config = g.config := by
  unfold Gestures.update at h
  simp only at h
  split_ifs at h
  all_goals rw [← Except.ok.inj h]
  · exact look_config _ _ _
  · rfl
  · rfl

theorem received_eq (c : FlightCore) (input : TickInputs) :
    c.received input = { c with
      loadFailed := false
      channels := (input.healthyChannels.map Channels.sanitized).getD c.channels } := by
  unfold received receive
  cases input.healthyChannels <;> rfl

theorem applyParams_frame (c : FlightCore) (profile : Profile) :
    ∃ controller inverted applied, c.applyParams profile =
      { c with
        controller := controller
        mixer := { c.mixer with yawInverted := inverted }
        applied := applied } ∧
      (controller = c.controller ∨ ∃ gains, controller = c.controller.withGains gains) := by
  unfold applyParams
  split_ifs
  · exact ⟨_, _, _, rfl, Or.inl rfl⟩
  · exact ⟨_, _, _, rfl, Or.inr ⟨_, rfl⟩⟩

theorem conditionAcc_frame (c : FlightCore) (dt : Scalar) (acc : Option (Triple Scalar)) :
    ∃ conditioner, (c.conditionAcc dt acc).1 = { c with conditioner := conditioner } := by
  cases acc with
  | none => exact ⟨c.conditioner, rfl⟩
  | some acc => exact ⟨_, rfl⟩

theorem sense_frame {c d : FlightCore} {sample : Option MotionSample} {leveling : Bool}
    (h : c.sense sample leveling = .ok d) :
    ∃ conditioner attitude gyro estimate lastSample, d =
      { c with
        conditioner := conditioner
        attitude := attitude
        gyro := gyro
        estimate := estimate
        lastSample := lastSample } ∧ attitude.config = c.attitude.config := by
  cases sample with
  | none =>
    rw [← Except.ok.inj h]
    exact ⟨_, _, _, _, _, rfl, rfl⟩
  | some sample =>
    unfold sense at h
    simp only [bind_eq_ok] at h
    obtain ⟨⟨attitude, estimate⟩, hupdate, hd⟩ := h
    obtain ⟨conditioner, hcond⟩ := conditionAcc_frame
      { c with
        lastSample := some sample.time
        conditioner := (c.conditioner.filterGyro (c.sampleStep sample.time) sample.gyro).1
        gyro := (c.conditioner.filterGyro (c.sampleStep sample.time) sample.gyro).2 }
      (c.sampleStep sample.time) sample.acc
    have hconfig := attitude_update_config hupdate
    rw [hcond] at hd hconfig
    rw [← Except.ok.inj hd]
    exact ⟨_, _, _, _, _, rfl, hconfig⟩

theorem monitor_frame (c : FlightCore) (voltage : Option Scalar) :
    ∃ battery, (c.monitor voltage).1 = { c with battery := battery } := by
  cases voltage with
  | none => exact ⟨c.battery, rfl⟩
  | some v => exact ⟨_, rfl⟩

theorem decide_frame (c : FlightCore) (input : ArmingInput) :
    ∃ controller setpoints, (c.decide input).1 =
      { c with
        arming := c.arming.after input
        throttle := (c.decide input).2.1.throttle
        controller := controller
        setpoints := setpoints } ∧
      (controller = c.controller ∨ controller = c.controller.reset) ∧
      (setpoints = c.setpoints ∨ setpoints = c.setpoints.reset) := by
  unfold decide Arming.after
  simp only
  split_ifs
  · exact ⟨_, _, rfl, Or.inr rfl, Or.inr rfl⟩
  · exact ⟨_, _, rfl, Or.inl rfl, Or.inl rfl⟩

theorem checkTravel_frame (c : FlightCore) :
    ∃ travel, c.checkTravel.1 = { c with travel := travel } := by
  unfold checkTravel
  cases c.travel with
  | none => exact ⟨c.travel, rfl⟩
  | some before => exact ⟨_, rfl⟩

theorem carryOut_frame (c : FlightCore) (outcome : ActionOutcome) :
    ∃ stickCheck travel savePending, c.carryOut outcome =
      { c with
        arming := { c.arming with stickCheck := stickCheck }
        travel := travel
        savePending := savePending } := by
  cases outcome <;> exact ⟨_, _, _, rfl⟩

theorem listen_frame {c : FlightCore} {r : FlightCore × List Event} (h : c.listen = .ok r) :
    ∃ stickCheck travel gestures table savePending, r.1 =
      { c with
        arming := { c.arming with stickCheck := stickCheck }
        travel := travel
        gestures := gestures
        table := table
        savePending := savePending } ∧ gestures.config = c.gestures.config := by
  obtain ⟨travel, htravel⟩ := checkTravel_frame c
  unfold listen at h
  simp only [bind_eq_ok, htravel] at h
  obtain ⟨⟨gestures, action⟩, hupdate, hr⟩ := h
  have hconfig := gestures_update_config hupdate
  cases action with
  | none =>
    rw [← Except.ok.inj hr]
    exact ⟨_, _, _, _, _, rfl, hconfig⟩
  | some action =>
    have hr' := Except.ok.inj hr
    simp only at hr'
    obtain ⟨stickCheck, travel', savePending, hcarry⟩ := carryOut_frame
      { c with
        travel := travel
        gestures := gestures
        table := (c.table.apply action c.tunedProfile).1 }
      (c.table.apply action c.tunedProfile).2
    rw [← hr']
    exact ⟨stickCheck, travel', gestures, _, savePending, hcarry, hconfig⟩

theorem listenIn_frame {c : FlightCore} {state : ArmingState} {r : FlightCore × List Event}
    (h : c.listenIn state = .ok r) :
    ∃ stickCheck travel gestures table savePending, r.1 =
      { c with
        arming := { c.arming with stickCheck := stickCheck }
        travel := travel
        gestures := gestures
        table := table
        savePending := savePending } ∧ gestures.config = c.gestures.config := by
  cases state with
  | disarmed => exact listen_frame h
  | armed | failsafeLanding =>
    rw [← Except.ok.inj h]
    exact ⟨_, _, _, _, _, rfl, rfl⟩

theorem command_frame {c : FlightCore} {switches : Switches Bool} {decision : ArmingOutput}
    {r : FlightCore × Triple Scalar} (h : c.command switches decision = .ok r) :
    ∃ setpoints controller, r.1 = { c with setpoints := setpoints, controller := controller } := by
  unfold command at h
  split_ifs at h with hon
  · simp only [bind_eq_ok] at h
    obtain ⟨⟨setpoints, rates⟩, _, ⟨controller, commands⟩, _, hr⟩ := h
    rw [← Except.ok.inj hr]
    exact ⟨_, _, rfl⟩
  · rw [← Except.ok.inj h]
    exact ⟨_, _, rfl⟩

/-! ## What a tick can change -/

variable {c : FlightCore} {input : TickInputs} {sensed : FlightCore}
  {listened : FlightCore × List Event} {commanded : FlightCore × Triple Scalar}
  {mixed : Mixer × PerMotor Scalar}

/-- Up to the motion sensor, a tick changes the channels, what the controllers hold, and what the
sensor tells. -/
theorem Stages.sensed_eq (h : Stages c input sensed listened commanded mixed) :
    ∃ controller inverted applied conditioner attitude gyro estimate lastSample, sensed =
      { c.received input with
        controller := controller
        mixer := { c.mixer with yawInverted := inverted }
        applied := applied
        conditioner := conditioner
        attitude := attitude
        gyro := gyro
        estimate := estimate
        lastSample := lastSample } := by
  obtain ⟨controller, inverted, applied, hprepared, -⟩ :=
    applyParams_frame (c.received input) (profileOf (c.switchesIn input))
  obtain ⟨conditioner, attitude, gyro, estimate, lastSample, hsensed, -⟩ := sense_frame h.sense
  have hmixer : (c.received input).mixer = c.mixer := by rw [received_eq]
  rw [hsensed, prepared, hprepared, hmixer]
  exact ⟨_, _, _, _, _, _, _, _, rfl⟩

/-- The decision changes the battery, the arming state and what depends on them. -/
theorem decided_eq (c sensed : FlightCore) (input : TickInputs) :
    ∃ battery throttle controller setpoints, (c.decided sensed input).1 =
      { sensed with
        battery := battery
        arming := sensed.arming.after (c.armingInputIn sensed input)
        throttle := throttle
        controller := controller
        setpoints := setpoints } ∧
      (controller = sensed.controller ∨ controller = sensed.controller.reset) := by
  obtain ⟨battery, hmonitored⟩ := monitor_frame sensed input.voltage
  obtain ⟨controller, setpoints, hdecided, hcontroller, -⟩ :=
    decide_frame (sensed.monitored input).1 (c.armingInputIn sensed input)
  rw [monitored, hmonitored] at hcontroller
  rw [decided, hdecided, monitored, hmonitored]
  exact ⟨_, _, controller, _, rfl, hcontroller⟩

/-- From there on, it changes the battery and the arming state, what depends on them, and what the
gestures ask for. -/
theorem Stages.commanded_eq (h : Stages c input sensed listened commanded mixed) :
    ∃ stickCheck throttle controller setpoints travel gestures table savePending, commanded.1 =
      { sensed with
        battery := (sensed.monitored input).1.battery
        arming := { sensed.arming.after (c.armingInputIn sensed input) with
          stickCheck := stickCheck }
        throttle := throttle
        controller := controller
        setpoints := setpoints
        travel := travel
        gestures := gestures
        table := table
        savePending := savePending } := by
  obtain ⟨battery, hmonitored⟩ := monitor_frame sensed input.voltage
  obtain ⟨controller, setpoints, hdecided, -, -⟩ :=
    decide_frame (sensed.monitored input).1 (c.armingInputIn sensed input)
  obtain ⟨stickCheck, travel, gestures, table, savePending, hlistened, -⟩ :=
    listenIn_frame h.listen
  obtain ⟨setpoints', controller', hcommanded⟩ := command_frame h.command
  rw [hcommanded, hlistened, decided, hdecided, monitored, hmonitored]
  exact ⟨_, _, _, _, _, _, _, _, rfl⟩

theorem Stages.mixer_config (h : Stages c input sensed listened commanded mixed) :
    commanded.1.mixer.config = c.mixer.config := by
  obtain ⟨_, _, _, _, _, _, _, _, hcommanded⟩ := h.commanded_eq
  obtain ⟨_, _, _, _, _, _, _, _, hsensed⟩ := h.sensed_eq
  rw [hcommanded, hsensed]

end Quadrotor.FlightCore

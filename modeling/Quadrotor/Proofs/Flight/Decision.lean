import Mathlib
import Quadrotor.Proofs.Flight.Events

/-!
# The arming state machine within a tick

A tick of the flight core makes one step of the arming state machine, on an input that is drawn from
the tick's own inputs: freshness as it was brought, the arm switch of the channels in use, and the
battery as it is after the tick's reading.
-/

namespace Quadrotor

/-- The tick brings a frame of a healthy link. -/
def TickInputs.bringsFrame (i : TickInputs) : Bool := i.radio.any fun frame => frame.linkOk

/-- The numbers of a sample: those of the gyro, and those of the accelerometer if it has been read. -/
def MotionSample.values (s : MotionSample) : List Scalar :=
  s.gyro.toList ++ (s.acc.map Triple.toList).getD []

/-- The tick brings a sample that is vouched for and made of finite numbers. -/
def TickInputs.bringsSample (i : TickInputs) : Bool :=
  i.sample.any fun s => s.valid && s.values.all Float32.isFinite

theorem MotionSample.isUsable_eq (s : MotionSample) :
    s.isUsable = (s.valid && s.values.all Float32.isFinite) := by
  unfold isUsable values
  rw [List.all_append, ← Bool.and_assoc, Triple.all_toList]
  cases s.acc with
  | none => rfl
  | some acc =>
    rw [Option.map_some, Option.getD_some, Triple.all_toList]

theorem TickInputs.healthyChannels_isSome (i : TickInputs) :
    i.healthyChannels.isSome = i.bringsFrame := by
  unfold healthyChannels bringsFrame
  cases i.radio with
  | none => rfl
  | some frame => cases h : frame.linkOk <;> simp [h]

theorem TickInputs.usableSample_isSome (i : TickInputs) :
    i.usableSample.isSome = i.bringsSample := by
  unfold usableSample bringsSample
  cases i.sample with
  | none => rfl
  | some s =>
    rw [Option.any_some, ← s.isUsable_eq]
    cases h : s.isUsable <;> simp [Option.filter, h]

namespace FlightCore

/-- The channels in use after a tick that finds `channels` in use. -/
def heldChannels (channels : Channels) (input : TickInputs) : Channels :=
  (input.healthyChannels.map Channels.sanitized).getD channels

/-- A tick from `c` with its outcome, as the arming state machine takes part in it. -/
structure Decides (c : FlightCore) (input : TickInputs) (next : FlightCore) (out : TickOutput)
    (told : ArmingInput) : Prop where
  config : next.config = c.config
  channels : next.channels = heldChannels c.channels input
  armSwitch : told.armSwitch = (c.config.switches.resolve next.channels).arming
  linkFresh : told.linkFresh = input.bringsFrame
  sensorFresh : told.sensorFresh = input.bringsSample
  lvc : told.lvc = next.battery.state.cutoff
  lvcEnabled : told.lvcEnabled = c.table.params.lvcEnabled
  arming : ∃ stickCheck, next.arming = { c.arming.after told with stickCheck := stickCheck }
  state : out.state = (c.arming.after told).state
  events : ∀ e, e.isArming = true → (e ∈ out.events ↔ e ∈ (c.arming.update told).2.2)

theorem Decides.arming_state {c next : FlightCore} {input : TickInputs} {out : TickOutput}
    {told : ArmingInput} (h : Decides c input next out told) : next.arming.state = out.state := by
  obtain ⟨stickCheck, harming⟩ := h.arming
  rw [harming, h.state]

/-- A tick makes a step of the state machine on the input that its stages put together. -/
theorem Stages.decides {c : FlightCore} {input : TickInputs} {sensed : FlightCore}
    {listened : FlightCore × List Event} {commanded : FlightCore × Triple Scalar}
    {mixed : Mixer × PerMotor Scalar} (hstages : Stages c input sensed listened commanded mixed) :
    Decides c input { commanded.1 with mixer := mixed.1 } (c.outputOf input sensed listened mixed)
      (c.armingInputIn sensed input) := by
  obtain ⟨stickCheck, _, _, _, _, _, _, _, hcommanded⟩ := hstages.commanded_eq
  obtain ⟨_, _, _, _, _, _, _, _, hsensed⟩ := hstages.sensed_eq
  obtain ⟨battery, hmonitored⟩ := monitor_frame sensed input.voltage
  have harming : (sensed.monitored input).1.arming = c.arming := by
    rw [monitored, hmonitored, hsensed, received_eq]
  have htable : (sensed.monitored input).1.table = c.table := by
    rw [monitored, hmonitored, hsensed, received_eq]
  have hsensedArming : sensed.arming = c.arming := by rw [hsensed, received_eq]
  have hdecided : (c.decided sensed input).2 = (c.arming.update (c.armingInputIn sensed input)).2 := by
    rw [← harming]
    rfl
  refine ⟨?_, ?_, ?_, ?_, ?_, ?_, ?_, ?_, ?_, ?_⟩
  · rw [hcommanded, hsensed, received_eq]
  · rw [hcommanded, hsensed, received_eq]
    rfl
  · have hchannels : commanded.1.channels = (c.received input).channels := by
      rw [hcommanded, hsensed]
    have hconfig : (c.received input).config = c.config := by rw [received_eq]
    change (c.switchesIn input).arming = _
    rw [switchesIn, hchannels, hconfig]
  · exact input.healthyChannels_isSome
  · exact input.usableSample_isSome
  · rw [hcommanded]
    rfl
  · change (sensed.monitored input).1.table.params.lvcEnabled = _
    rw [htable]
  · refine ⟨stickCheck, ?_⟩
    rw [hcommanded, hsensedArming]
  · change (c.decided sensed input).2.1.state = _
    rw [hdecided, Arming.output_state]
  · intro e he
    rw [hstages.mem_events_iff he, hdecided]

/-- Every tick makes a step of the state machine. -/
theorem exists_decides {c next : FlightCore} {input : TickInputs} {out : TickOutput}
    (h : c.tick input = .ok (next, out)) : ∃ told, Decides c input next out told := by
  obtain ⟨sensed, listened, commanded, mixed, hstages, rfl, rfl⟩ := tick_eq_ok.mp h
  exact ⟨_, hstages.decides⟩

end FlightCore

end Quadrotor

import Mathlib
import Quadrotor.Proofs.Flight.Decision
import Quadrotor.Proofs.Flight.Freshness
import Quadrotor.Proofs.Flight.Run

/-!
# How an armed flight ends

What becomes of a tick that starts armed is told by what the ticks have brought so far: the vehicle
lands when the link has been silent for the length of its timeout, else when the sensor has, else
when the battery is down; else the arm switch decides. The windows count back from the tick itself,
so a fault ends the flight in the very tick that completes the silence.
-/

namespace Quadrotor.FlightCore

open Staleness

section History

variable (config : FlightConfig) (ticks : List RunTick)

/-- The link was fresh at tick `i`. -/
def linkFreshAt (i : Nat) : Bool := ticks[i]?.any fun r => r.input.bringsFrame

/-- The sensor was fresh at tick `i`. -/
def sensorFreshAt (i : Nat) : Bool := ticks[i]?.any fun r => r.input.bringsSample

/-- The link was fresh within its timeout, up to tick `t`. -/
def LinkHeldAt (t : Nat) : Prop := FreshWithin config.arming.linkTimeout (linkFreshAt ticks) t

/-- The sensor was fresh within its timeout, up to tick `t`. -/
def SensorHeldAt (t : Nat) : Prop :=
  FreshWithin config.arming.sensorTimeout (sensorFreshAt ticks) t

/-- The state in which tick `t` starts: the one reported by the tick before. -/
def startState : Nat → ArmingState
  | 0 => .disarmed
  | t + 1 => (ticks[t]?.map fun r => r.output.state).getD .disarmed

/-- The channels in use ahead of tick `t`: those of the latest healthy frame, in range. -/
def channelsAt (t : Nat) : Channels :=
  (ticks.take t).foldl (fun channels r => heldChannels channels r.input) {}

/-- The arm switch at tick `t`. -/
def armSwitchAt (t : Nat) : Bool :=
  (config.switches.resolve (channelsAt ticks (t + 1))).arming

/-- The low-voltage cutoff applies in a tick, and is heeded. -/
def CutOff (r : RunTick) : Prop :=
  r.after.battery.state.cutoff = true ∧ r.before.table.params.lvcEnabled = true

/-- There is no reason to land at tick `t`. -/
def FaultlessAt (r : RunTick) (t : Nat) : Prop :=
  LinkHeldAt config ticks t ∧ SensorHeldAt config ticks t ∧ ¬CutOff r

/-- The tick ends in a landing and reports the reason. -/
def LandsFor (reason : FailsafeReason) (out : TickOutput) : Prop :=
  out.state = .failsafeLanding ∧ Event.failsafeLanding reason ∈ out.events

/-- What becomes of an armed flight at tick `t`. -/
structure ArmedOutcome (r : RunTick) (t : Nat) : Prop where
  link_loss : LandsFor .linkLoss r.output ↔ ¬LinkHeldAt config ticks t
  sensor_loss : LandsFor .sensorLoss r.output ↔
    LinkHeldAt config ticks t ∧ ¬SensorHeldAt config ticks t
  low_voltage : LandsFor .lowVoltage r.output ↔
    LinkHeldAt config ticks t ∧ SensorHeldAt config ticks t ∧ CutOff r
  disarmed : r.output.state = .disarmed ↔
    FaultlessAt config ticks r t ∧ armSwitchAt config ticks t = false
  armed : r.output.state = .armed ↔
    FaultlessAt config ticks r t ∧ armSwitchAt config ticks t = true

/-! ## What the core knows of the history -/

/-- Ahead of tick `t` the counters tell the freshness windows, and the state and the channels are
those that the history gives. -/
structure Follows (t : Nat) (c : FlightCore) : Prop where
  config_eq : c.config = config
  link_timeout : c.arming.link.timeout = config.arming.linkTimeout
  link : c.arming.link.Counts (linkFreshAt ticks) t
  sensor_timeout : c.arming.sensor.timeout = config.arming.sensorTimeout
  sensor : c.arming.sensor.Counts (sensorFreshAt ticks) t
  state_eq : c.arming.state = startState ticks t
  channels_eq : c.channels = channelsAt ticks t

variable {config ticks}

theorem follows_build (params : TuningParams) : Follows config ticks 0 (build config params) where
  config_eq := rfl
  link_timeout := rfl
  link := counts_new _ _
  sensor_timeout := rfl
  sensor := counts_new _ _
  state_eq := rfl
  channels_eq := rfl

variable {t : Nat} {r : RunTick} {told : ArmingInput}

theorem channelsAt_succ (hr : ticks[t]? = some r) :
    channelsAt ticks (t + 1) = heldChannels (channelsAt ticks t) r.input := by
  unfold channelsAt
  rw [List.take_add_one, hr, List.foldl_append]
  rfl

theorem linkFreshAt_eq (hr : ticks[t]? = some r) (hfresh : told.linkFresh = r.input.bringsFrame) :
    linkFreshAt ticks t = told.linkFresh := by
  rw [linkFreshAt, hr, hfresh]
  rfl

theorem sensorFreshAt_eq (hr : ticks[t]? = some r)
    (hfresh : told.sensorFresh = r.input.bringsSample) :
    sensorFreshAt ticks t = told.sensorFresh := by
  rw [sensorFreshAt, hr, hfresh]
  rfl

theorem Follows.link_after (h : Follows config ticks t r.before) (hr : ticks[t]? = some r)
    (hfresh : told.linkFresh = r.input.bringsFrame) :
    (r.before.arming.after told).link.Counts (linkFreshAt ticks) (t + 1) := by
  rw [Arming.after_link, ← linkFreshAt_eq hr hfresh]
  exact h.link.update

theorem Follows.sensor_after (h : Follows config ticks t r.before) (hr : ticks[t]? = some r)
    (hfresh : told.sensorFresh = r.input.bringsSample) :
    (r.before.arming.after told).sensor.Counts (sensorFreshAt ticks) (t + 1) := by
  rw [Arming.after_sensor, ← sensorFreshAt_eq hr hfresh]
  exact h.sensor.update

/-- A tick keeps up with the history. -/
theorem Follows.tick (h : Follows config ticks t r.before) (hr : ticks[t]? = some r)
    (htick : r.before.tick r.input = .ok (r.after, r.output)) :
    Follows config ticks (t + 1) r.after := by
  obtain ⟨told, hd⟩ := exists_decides htick
  obtain ⟨stickCheck, harming⟩ := hd.arming
  constructor
  · rw [hd.config, h.config_eq]
  · rw [harming]
    change (r.before.arming.after told).link.timeout = _
    rw [Arming.after_link]
    exact h.link_timeout
  · rw [harming]
    exact h.link_after hr hd.linkFresh
  · rw [harming]
    change (r.before.arming.after told).sensor.timeout = _
    rw [Arming.after_sensor]
    exact h.sensor_timeout
  · rw [harming]
    exact h.sensor_after hr hd.sensorFresh
  · rw [harming, startState, hr]
    exact hd.state.symm
  · rw [hd.channels, h.channels_eq, channelsAt_succ hr]

theorem Follows.link_lost_iff (h : Follows config ticks t r.before) (hr : ticks[t]? = some r)
    (hfresh : told.linkFresh = r.input.bringsFrame) :
    (r.before.arming.after told).link.lost = true ↔ ¬LinkHeldAt config ticks t := by
  rw [Arming.after_link, ← linkFreshAt_eq hr hfresh]
  exact h.link.lost_update_iff h.link_timeout

theorem Follows.sensor_lost_iff (h : Follows config ticks t r.before) (hr : ticks[t]? = some r)
    (hfresh : told.sensorFresh = r.input.bringsSample) :
    (r.before.arming.after told).sensor.lost = true ↔ ¬SensorHeldAt config ticks t := by
  rw [Arming.after_sensor, ← sensorFreshAt_eq hr hfresh]
  exact h.sensor.lost_update_iff h.sensor_timeout

/-! ## The outcome -/

/-- A tick that ends armed has heard from the link and from the sensor within their timeouts. -/
theorem Follows.held_of_armed (h : Follows config ticks t r.before) (hr : ticks[t]? = some r)
    (htick : r.before.tick r.input = .ok (r.after, r.output)) (harmed : r.output.state = .armed) :
    LinkHeldAt config ticks t ∧ SensorHeldAt config ticks t := by
  obtain ⟨told, hd⟩ := exists_decides htick
  rw [hd.state] at harmed
  obtain ⟨hlink, hsensor⟩ := Arming.held_of_after_armed harmed
  rw [← Bool.not_eq_true, h.link_lost_iff hr hd.linkFresh, not_not] at hlink
  rw [← Bool.not_eq_true, h.sensor_lost_iff hr hd.sensorFresh, not_not] at hsensor
  exact ⟨hlink, hsensor⟩

/-- A tick that starts armed ends as the history says. -/
theorem Follows.armedOutcome (h : Follows config ticks t r.before) (hr : ticks[t]? = some r)
    (htick : r.before.tick r.input = .ok (r.after, r.output))
    (hstart : startState ticks t = .armed) : ArmedOutcome config ticks r t := by
  obtain ⟨told, hd⟩ := exists_decides htick
  have hs : r.before.arming.state = .armed := h.state_eq.trans hstart
  obtain ⟨observed, hobs⟩ : ∃ o, o = r.before.arming.observe told := ⟨_, rfl⟩
  have hlink : observed.link.lost = true ↔ ¬LinkHeldAt config ticks t := by
    rw [hobs, ← h.link_lost_iff hr hd.linkFresh, Arming.after_link]
    rfl
  have hsensor : observed.sensor.lost = true ↔ ¬SensorHeldAt config ticks t := by
    rw [hobs, ← h.sensor_lost_iff hr hd.sensorFresh, Arming.after_sensor]
    rfl
  have hcut : (told.lvc && told.lvcEnabled) = true ↔ CutOff r := by
    rw [hd.lvc, hd.lvcEnabled, Bool.and_eq_true]
    rfl
  have hlands : ∀ reason, LandsFor reason r.output ↔
      observed.failsafeReason told = some reason := by
    intro reason
    rw [LandsFor, hd.state, hd.events _ rfl, hobs]
    exact Arming.landing_event_iff hs told reason
  obtain ⟨hfirst, hsecond, hthird, hnone⟩ := Arming.failsafeReason_iff observed told
  rw [hlink] at hfirst
  rw [← Bool.not_eq_true, hlink, not_not, hsensor] at hsecond
  rw [← Bool.not_eq_true, hlink, not_not, ← Bool.not_eq_true, hsensor, not_not, hcut] at hthird
  rw [← Bool.not_eq_true, hlink, not_not, ← Bool.not_eq_true, hsensor, not_not,
    ← Bool.not_eq_true, hcut] at hnone
  -- A lost link masks the switch, but then there is a reason to land and nobody looks at it.
  have hswitch : observed.link.lost = false →
      observed.effectiveSwitch told = armSwitchAt config ticks t := by
    intro hheld
    rw [Arming.effectiveSwitch, hheld, Bool.not_false, Bool.and_true, hd.armSwitch, hd.channels,
      h.channels_eq, h.config_eq, armSwitchAt, channelsAt_succ hr]
  have hstate := (Arming.after_of_armed hs told).2
  rw [← hd.state, ← hobs] at hstate
  refine ⟨(hlands _).trans hfirst, (hlands _).trans hsecond, (hlands _).trans hthird, ?_, ?_⟩
  all_goals
    rw [FaultlessAt, ← hnone, hstate]
    cases hreason : observed.failsafeReason told with
    | some reason => simp
    | none =>
      have hheld : observed.link.lost = false := by
        rw [← Bool.not_eq_true, hlink, not_not]
        exact (hnone.mp hreason).1
      rw [← hswitch hheld]
      cases observed.effectiveSwitch told <;> simp

end History

/-- Faults end an armed flight in the tick that completes them, for every run of a validated
configuration; so no tick that ends armed is one by which a window has passed in silence. -/
theorem armed_outcome_of_run (config : FlightConfig) (h : config.validate = .ok ())
    (params : TuningParams) (inputs : List TickInputs) :
    ∃ core ticks, new config params = .ok core ∧ core.run inputs = .ok ticks ∧
      ∀ t r, ticks[t]? = some r →
        (startState ticks t = .armed → ArmedOutcome config ticks r t) ∧
        (r.output.state = .armed → LinkHeldAt config ticks t ∧ SensorHeldAt config ticks t) := by
  obtain ⟨ticks, hrun⟩ := (sound_build h params).run inputs
  refine ⟨build config params, ticks, new_eq_ok.mpr ⟨h, rfl⟩, hrun, fun t r hr => ?_⟩
  obtain ⟨hfollows, htick⟩ := run_invariant (Follows config ticks)
    (fun t r hr hf htick => hf.tick hr htick) (follows_build params) (n := 0) hrun
    (Nat.zero_le t) hr
  exact ⟨hfollows.armedOutcome hr htick, hfollows.held_of_armed hr htick⟩

/-- The link comes up with the arm switch off, the switch goes on, and then no frame arrives. -/
def briefFlight : List TickInputs :=
  let sample : MotionSample := { time := 1000, gyro := .fill 0.0, acc := some ⟨0.0, 0.0, 1.0⟩ }
  [{ sample := some sample, radio := some { linkOk := true } },
    { sample := some sample
      radio := some { linkOk := true, channels := ({} : Channels).withAux 0 true } },
    { sample := some sample }]

/-- The state that a tick ends in, and whether the link was fresh in it. -/
def RunTick.seen (r : RunTick) : ArmingState × Bool := (r.output.state, r.input.bringsFrame)

/-- With a link timeout of one tick, the brief flight ends in its third tick for loss of the link. -/
theorem armed_outcome_of_briefFlight :
    FlightConfig.validate { arming := { linkTimeout := 1 } } = .ok () ∧
    ∃ ticks r, (build { arming := { linkTimeout := 1 } } {}).run briefFlight = .ok ticks ∧
      ticks[2]? = some r ∧ startState ticks 2 = .armed ∧ LandsFor .linkLoss r.output := by
  have hvalid : FlightConfig.validate { arming := { linkTimeout := 1 } } = .ok () := rfl
  refine ⟨hvalid, ?_⟩
  obtain ⟨core, ticks, hnew, hrun, hall⟩ :=
    armed_outcome_of_run { arming := { linkTimeout := 1 } } hvalid {} briefFlight
  rw [(new_eq_ok.mp hnew).2] at hrun
  have hseen : ((build { arming := { linkTimeout := 1 } } {}).run briefFlight).toOption.map
      (List.map RunTick.seen)
      = some [(.disarmed, true), (.armed, true), (.failsafeLanding, false)] := by
    decide +kernel
  rw [hrun] at hseen
  have hticks : ticks.map RunTick.seen
      = [(.disarmed, true), (.armed, true), (.failsafeLanding, false)] :=
    Option.some_inj.mp hseen
  have hat : ∀ t : Nat, ticks[t]?.map RunTick.seen
      = [(ArmingState.disarmed, true), (.armed, true), (.failsafeLanding, false)][t]? := by
    intro t
    rw [← hticks, List.getElem?_map]
  obtain ⟨r1, hr1, hs1⟩ := Option.map_eq_some_iff.mp (hat 1)
  obtain ⟨r2, hr2, hs2⟩ := Option.map_eq_some_iff.mp (hat 2)
  have hstart : startState ticks 2 = .armed := by
    rw [startState, hr1]
    exact (Prod.mk.inj hs1).1
  refine ⟨ticks, r2, hrun, hr2, hstart, ((hall 2 r2 hr2).1 hstart).link_loss.mpr ?_⟩
  rintro ⟨i, hi, hlast, hfresh⟩
  have hi2 : i = 2 := by
    change 2 < i + 1 at hlast
    omega
  rw [hi2, linkFreshAt, hr2] at hfresh
  change r2.input.bringsFrame = true at hfresh
  rw [(Prod.mk.inj hs2).2] at hfresh
  cases hfresh

end Quadrotor.FlightCore

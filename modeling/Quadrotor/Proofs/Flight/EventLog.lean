import Mathlib
import Quadrotor.Proofs.Flight.ArmingCondition
import Quadrotor.Proofs.Flight.Failsafe
import Quadrotor.Proofs.Flight.Session

/-!
# What the reports of a session tell

A report leaves nothing out. So whoever reads the reports of a session can follow the arming state
without seeing the state machine, and learns of every refusal to arm, and of the reasons, in the tick
in which the arm switch asks for it.
-/

namespace Quadrotor

/-- The arming state once an event is known. -/
def Event.leadsTo (state : ArmingState) : Event → ArmingState
  | .armed => .armed
  | .failsafeLanding _ => .failsafeLanding
  | .disarmed _ => .disarmed
  | .armingRejected _ | .lvcActive | .lowBattery | .batteryOk | .gestureMatched _ | .saveComplete
  | .saveFailed | .loadFailed | .fullStickTravel | .tickOverrun => state

/-- Only decisions lead to another state. -/
theorem foldl_leadsTo_filter (events : List Event) (state : ArmingState) :
    (events.filter Event.isDecision).foldl Event.leadsTo state =
      events.foldl Event.leadsTo state := by
  induction events generalizing state with
  | nil => rfl
  | cons e events ih => cases e <;> exact ih _

theorem Part.filter_isDecision {n : Nat} {events : List Event} (h : Part false n events) :
    events.filter Event.isDecision = [] := by
  refine List.filter_eq_nil_iff.mpr fun e he hdecision => ?_
  have harming := Event.isArming_of_isDecision hdecision
  rw [h.kind e he] at harming
  cases harming

namespace Arming

/-- What the state machine decides in a tick, if that is worth a report. -/
def decision (a : Arming) (input : ArmingInput) : Option Event :=
  ((a.observe input).transition input (Scalar.limitOrZero 0.0 1.0 input.throttle)).2

theorem update_decisions (a : Arming) (input : ArmingInput) :
    (a.update input).2.2.filter Event.isDecision = (a.decision input).toList := by
  have hlvc : (if input.lvc && !a.prevLvc then [Event.lvcActive] else []).filter Event.isDecision
      = [] := by
    split_ifs <;> rfl
  have hdecision := transition_isDecision (a.observe input) input
    (Scalar.limitOrZero 0.0 1.0 input.throttle)
  change (_ ++ (a.decision input).toList).filter _ = _
  rw [List.filter_append, hlvc, List.nil_append]
  exact List.filter_eq_self.mpr fun e he => hdecision e (Option.mem_toList.mp he)

/-- The decision of a tick leads from the state before it to the state after it. -/
theorem decision_leadsTo (a : Arming) (input : ArmingInput) :
    (a.decision input).toList.foldl Event.leadsTo a.state = (a.after input).state := by
  cases hs : a.state with
  | disarmed =>
    have ho : (a.observe input).state = .disarmed := hs
    unfold decision after update
    simp only [transition, ho, whileDisarmed]
    split_ifs
    exacts [rfl, ho.symm, ho.symm]
  | armed =>
    have ho : (a.observe input).state = .armed := hs
    unfold decision after update
    simp only [transition, ho, whileArmed]
    cases (a.observe input).failsafeReason input with
    | some reason => rfl
    | none =>
      simp only
      split_ifs
      exacts [ho.symm, rfl]
  | failsafeLanding =>
    have ho : (a.observe input).state = .failsafeLanding := hs
    unfold decision after update
    simp only [transition, ho, whileLanding]
    split_ifs <;> rfl

/-- Arming is refused in the ticks that stay disarmed though the switch has just asked for it. -/
theorem decision_eq_rejected_iff (a : Arming) (input : ArmingInput) (b : Blockers) :
    a.decision input = some (.armingRejected b) ↔
      a.state = .disarmed ∧ (a.after input).state = .disarmed ∧
        (a.observe input).effectiveSwitch input = true ∧ a.prevArmSwitch = false ∧
        b = (a.observe input).blockers (Scalar.limitOrZero 0.0 1.0 input.throttle)
          input.startupLow := by
  have hprev : (a.observe input).prevArmSwitch = a.prevArmSwitch := rfl
  unfold decision
  cases hs : a.state with
  | disarmed =>
    have ho : (a.observe input).state = .disarmed := hs
    rw [(after_of_disarmed hs input).2]
    simp only [transition, ho, whileDisarmed, hprev]
    cases hswitch : (a.observe input).effectiveSwitch input <;>
      cases hempty : ((a.observe input).blockers (Scalar.limitOrZero 0.0 1.0 input.throttle)
        input.startupLow).isEmpty <;>
      cases a.prevArmSwitch <;> simp [eq_comm]
  | armed =>
    have ho : (a.observe input).state = .armed := hs
    simp only [transition, ho, whileArmed]
    cases (a.observe input).failsafeReason input with
    | some reason => simp
    | none =>
      simp only
      split_ifs <;> simp
  | failsafeLanding =>
    have ho : (a.observe input).state = .failsafeLanding := hs
    simp only [transition, ho, whileLanding]
    split_ifs <;> simp

theorem after_prevArmSwitch (a : Arming) (input : ArmingInput) :
    (a.after input).prevArmSwitch = (a.observe input).effectiveSwitch input := rfl

end Arming

namespace FlightCore

/-! ## The state machine in a tick of a run -/

/-- What the arming state machine is told in a tick. -/
def RunTick.told (r : RunTick) : ArmingInput :=
  { r.after.armingInput (r.before.config.switches.resolve r.after.channels) r.input.bringsFrame
      r.input.bringsSample with
    lvcEnabled := r.before.table.params.lvcEnabled }

/-- The tick as an observer of the arming state machine notes it. -/
def RunTick.noted (r : RunTick) : Arming.Tick :=
  ⟨r.told, r.before.arming.stickCheck, r.before.arming.state, r.output.state⟩

/-- The report of a tick holds all that its stages have to report, in order, and has room left. -/
def RunTick.Complete (r : RunTick) : Prop :=
  ∃ sensed listened commanded mixed, Stages r.before r.input sensed listened commanded mixed ∧
    r.output.events = r.before.eventsIn sensed listened r.input ∧
    r.output.events.length < Event.capacity

section Tick

variable {c next : FlightCore} {input : TickInputs} {out : TickOutput} {sensed : FlightCore}
  {listened : FlightCore × List Event} {commanded : FlightCore × Triple Scalar}
  {mixed : Mixer × PerMotor Scalar}

theorem Stages.told_eq (h : Stages c input sensed listened commanded mixed) :
    RunTick.told ⟨c, input, { commanded.1 with mixer := mixed.1 }, out⟩ =
      c.armingInputIn sensed input := by
  obtain ⟨_, _, _, _, _, _, _, _, hcommanded⟩ := h.commanded_eq
  obtain ⟨_, _, _, _, _, _, _, _, hsensed⟩ := h.sensed_eq
  obtain ⟨battery, hmonitored⟩ := monitor_frame sensed input.voltage
  have hbattery : commanded.1.battery = (sensed.monitored input).1.battery := by rw [hcommanded]
  have hchannels : commanded.1.channels = (sensed.monitored input).1.channels := by
    rw [hcommanded, monitored, hmonitored]
  have htable : c.table = (sensed.monitored input).1.table := by
    rw [monitored, hmonitored, hsensed, received_eq]
  have hswitches : c.config.switches.resolve commanded.1.channels = c.switchesIn input := by
    rw [switchesIn, hcommanded, hsensed, received_eq]
  simp only [RunTick.told, armingInputIn, armingInput, hbattery, hswitches, ← hchannels, ← htable,
    input.healthyChannels_isSome, input.usableSample_isSome]

theorem decides_told (h : c.tick input = .ok (next, out)) :
    Decides c input next out (RunTick.told ⟨c, input, next, out⟩) := by
  obtain ⟨sensed, listened, commanded, mixed, hstages, rfl, rfl⟩ := tick_eq_ok.mp h
  rw [hstages.told_eq]
  exact hstages.decides

theorem complete_of_tick (h : c.tick input = .ok (next, out)) :
    RunTick.Complete ⟨c, input, next, out⟩ := by
  obtain ⟨sensed, listened, commanded, mixed, hstages, rfl, rfl⟩ := tick_eq_ok.mp h
  refine ⟨sensed, listened, commanded, mixed, hstages, hstages.events_eq, ?_⟩
  have h1 := (part_pending c input.overran).length_le
  have h2 : (sensed.monitored input).2.length ≤ 1 := (part_monitor sensed input.voltage).length_le
  have h3 : (c.decided sensed input).2.2.length ≤ 2 := (Arming.part_update _ _).length_le
  have h4 := (part_listenIn hstages.listen).length_le
  change (c.outputOf input sensed listened mixed).events.length < 8
  rw [hstages.events_eq]
  simp only [eventsIn, List.length_append]
  omega

/-- The decision of the state machine is the only one in the report of the tick. -/
theorem decisions_of_tick (h : c.tick input = .ok (next, out)) :
    out.events.filter Event.isDecision =
      (c.arming.decision (RunTick.told ⟨c, input, next, out⟩)).toList := by
  obtain ⟨sensed, listened, commanded, mixed, hstages, rfl, rfl⟩ := tick_eq_ok.mp h
  have harming : (sensed.monitored input).1.arming = c.arming := by
    obtain ⟨_, _, _, _, _, _, _, _, hsensed⟩ := hstages.sensed_eq
    obtain ⟨battery, hmonitored⟩ := monitor_frame sensed input.voltage
    rw [monitored, hmonitored, hsensed, received_eq]
  have hdecided : (c.decided sensed input).2.2 =
      (c.arming.update (c.armingInputIn sensed input)).2.2 := by
    rw [← harming]
    rfl
  have hmonitor : (sensed.monitored input).2.filter Event.isDecision = [] :=
    (part_monitor sensed input.voltage).filter_isDecision
  rw [hstages.told_eq, hstages.events_eq, ← Arming.update_decisions, ← hdecided]
  simp only [eventsIn, List.filter_append, (part_pending c input.overran).filter_isDecision,
    hmonitor, (part_listenIn hstages.listen).filter_isDecision, List.nil_append, List.append_nil]

end Tick

/-! ## What the reports have to agree with -/

section History

variable (config : FlightConfig) (ticks : List RunTick)

/-- The arm switch counts at tick `t`: it is on, and the link is not lost. -/
def SwitchOnAt (t : Nat) : Prop := armSwitchAt config ticks t = true ∧ LinkHeldAt config ticks t

/-- These are the reasons that stand against arming at tick `t`. -/
structure InForce (r : RunTick) (t : Nat) (b : Blockers) : Prop where
  no_sensor : b.noSensor = true ↔ ¬SensorHeldAt config ticks t
  high_throttle : b.highThrottle = true ↔ ¬Scalar.limitOrZero 0.0 1.0
    (channelsAt ticks (t + 1)).throttle < config.arming.safeThrottle
  link_lost : b.linkLost = true ↔ ¬LinkHeldAt config ticks t
  low_battery : b.lowBattery = r.after.battery.startupLow
  stick_check : b.stickCheck = r.before.arming.stickCheck
  switch_latched : b.switchLatched = true ↔
    ¬Arming.SwitchFreeAt config.arming (ticks.map RunTick.noted) t

/-- All that has been reported so far. -/
def reported : List Event := ticks.flatMap fun r => r.output.events

/-- What the reports of a session tell. -/
structure Logged (c : FlightCore) : Prop where
  complete : ∀ r ∈ ticks, r.Complete
  /-- A tick reports one decision at most. -/
  single : ∀ r ∈ ticks, (r.output.events.filter Event.isDecision).length ≤ 1
  /-- Whoever reads the reports knows the arming state. -/
  replayed : ∀ t r, ticks[t]? = some r →
    (reported (ticks.take (t + 1))).foldl Event.leadsTo .disarmed = r.output.state
  /-- A refusal is reported exactly where the switch asks in vain, with the reasons in force. -/
  rejected : ∀ t r, ticks[t]? = some r → ∀ b, .armingRejected b ∈ r.output.events ↔
    startState ticks t = .disarmed ∧ r.output.state = .disarmed ∧ SwitchOnAt config ticks t ∧
      (∀ s, t = s + 1 → ¬SwitchOnAt config ticks s) ∧ InForce config ticks r t b
  /-- The session goes on, whatever arrives. -/
  continues : ∀ input, ∃ next out, c.tick input = .ok (next, out)

/-- Ahead of tick `t` the state machine knows what there is to know of the ticks. -/
structure Knows (t : Nat) (c : FlightCore) : Prop where
  follows : Follows config ticks t c
  tracks : Arming.Tracks config.arming (ticks.map RunTick.noted) c.arming c.arming.stickCheck t
  switch : c.arming.prevArmSwitch = true ↔ ∃ s, t = s + 1 ∧ SwitchOnAt config ticks s

variable {config ticks}

theorem knows_build (params : TuningParams) (failed : Bool) :
    Knows config ticks 0 { build config params with loadFailed := failed } where
  follows :=
    have h := follows_build params
    ⟨h.config_eq, h.link_timeout, h.link, h.sensor_timeout, h.sensor, h.state_eq, h.channels_eq⟩
  tracks := Arming.tracks_new config.period
  switch := iff_of_false Bool.false_ne_true fun ⟨_, ht, _⟩ => Nat.succ_ne_zero _ ht.symm

variable {t : Nat} {r : RunTick}

theorem Knows.pending {c : FlightCore} (h : Knows config ticks t c) (pending : Bool) :
    Knows config ticks t { c with savePending := pending } :=
  have hf := h.follows
  ⟨⟨hf.config_eq, hf.link_timeout, hf.link, hf.sensor_timeout, hf.sensor, hf.state_eq,
    hf.channels_eq⟩, h.tracks, h.switch⟩

theorem Follows.switchOn_iff {told : ArmingInput} (h : Follows config ticks t r.before)
    (hr : ticks[t]? = some r) (hd : Decides r.before r.input r.after r.output told) :
    (r.before.arming.observe told).effectiveSwitch told = true ↔ SwitchOnAt config ticks t := by
  have hswitch : told.armSwitch = armSwitchAt config ticks t := by
    rw [hd.armSwitch, hd.channels, h.channels_eq, h.config_eq, armSwitchAt, channelsAt_succ hr]
  have hlink : (r.before.arming.after told).link.lost = false ↔ LinkHeldAt config ticks t := by
    rw [← Bool.not_eq_true, h.link_lost_iff hr hd.linkFresh, not_not]
  rw [Arming.observe_effectiveSwitch, Bool.and_eq_true, Bool.not_eq_true', hswitch, hlink,
    SwitchOnAt]

theorem noted_of_tick (hr : ticks[t]? = some r)
    (hd : Decides r.before r.input r.after r.output r.told) :
    (ticks.map RunTick.noted)[t]? = some ⟨r.told, r.before.arming.stickCheck,
      r.before.arming.state, (r.before.arming.after r.told).state⟩ := by
  rw [List.getElem?_map, hr, Option.map_some, RunTick.noted, hd.state]

theorem Knows.tick (h : Knows config ticks t r.before) (hr : ticks[t]? = some r)
    (htick : r.before.tick r.input = .ok (r.after, r.output)) :
    Knows config ticks (t + 1) r.after := by
  have hd : Decides r.before r.input r.after r.output r.told := decides_told htick
  obtain ⟨stickCheck, harming⟩ := hd.arming
  refine ⟨h.follows.tick hr htick, ?_, ?_⟩
  · rw [harming]
    exact (h.tracks.tick (noted_of_tick hr hd)).stickCheck stickCheck
  · rw [harming]
    change (r.before.arming.after r.told).prevArmSwitch = true ↔ _
    rw [Arming.after_prevArmSwitch, h.follows.switchOn_iff hr hd]
    exact ⟨fun hon => ⟨t, rfl, hon⟩, fun ⟨s, hs, hon⟩ => Nat.succ.inj hs ▸ hon⟩

theorem Session.knows {c : FlightCore} (h : Session config ticks c) (hr : ticks[t]? = some r) :
    Knows config ticks t r.before :=
  h.ahead knows_build (fun _ _ hr hk htick => hk.tick hr htick) (fun pending hk => hk.pending pending)
    hr

/-! ## Refusals -/

/-- The link in the notes is the link of the ticks. -/
theorem noted_linkHeldAt : Arming.LinkHeldAt config.arming (ticks.map RunTick.noted) t ↔
    LinkHeldAt config ticks t := by
  have hfresh : Arming.linkFreshAt (ticks.map RunTick.noted) = linkFreshAt ticks := by
    funext i
    rw [Arming.linkFreshAt, List.getElem?_map, Option.any_map]
    rfl
  rw [Arming.LinkHeldAt, hfresh, LinkHeldAt]

/-- The reasons in force are determined. -/
theorem InForce.unique {b b' : Blockers} (h : InForce config ticks r t b)
    (h' : InForce config ticks r t b') : b = b' := by
  have h1 := Bool.eq_iff_iff.mpr (h.no_sensor.trans h'.no_sensor.symm)
  have h2 := Bool.eq_iff_iff.mpr (h.high_throttle.trans h'.high_throttle.symm)
  have h3 := Bool.eq_iff_iff.mpr (h.link_lost.trans h'.link_lost.symm)
  have h4 := h.low_battery.trans h'.low_battery.symm
  have h5 := h.stick_check.trans h'.stick_check.symm
  have h6 := Bool.eq_iff_iff.mpr (h.switch_latched.trans h'.switch_latched.symm)
  cases b
  cases b'
  simp_all

/-- Where the switch asks for it, the blockers that the state machine finds are those in force. -/
theorem Knows.inForce_blockers (h : Knows config ticks t r.before) (hr : ticks[t]? = some r)
    (hd : Decides r.before r.input r.after r.output r.told)
    (hstart : r.before.arming.state = .disarmed) (hon : SwitchOnAt config ticks t) :
    InForce config ticks r t ((r.before.arming.observe r.told).blockers
      (Scalar.limitOrZero 0.0 1.0 r.told.throttle) r.told.startupLow) := by
  have hlink : (r.before.arming.after r.told).link.lost = true ↔ ¬LinkHeldAt config ticks t :=
    h.follows.link_lost_iff hr hd.linkFresh
  have hsensor : (r.before.arming.after r.told).sensor.lost = true ↔ ¬SensorHeldAt config ticks t :=
    h.follows.sensor_lost_iff hr hd.sensorFresh
  have hchannels : r.after.channels = channelsAt ticks (t + 1) := by
    rw [hd.channels, h.follows.channels_eq, channelsAt_succ hr]
  have hconfig : r.before.arming.config = config.arming := h.tracks.config_eq
  have hheld : (r.before.arming.after r.told).link.lost = false :=
    Bool.eq_false_iff.mpr fun hlost => hlink.mp hlost hon.2
  have hswitch : r.told.armSwitch = true := by
    have heffective := (h.follows.switchOn_iff hr hd).mpr hon
    rw [Arming.observe_effectiveSwitch, Bool.and_eq_true] at heffective
    exact heffective.1
  have hlatch := h.tracks.observe_latch hstart (noted_linkHeldAt.mpr hon.2) hheld hswitch
  refine ⟨?_, ?_, ?_, rfl, rfl, ?_⟩
  · rw [← hsensor, Arming.after_sensor]
    rfl
  · rw [← hchannels, ← hconfig]
    exact (Bool.not_eq_true' _).to_iff.trans decide_eq_false_iff_not
  · rw [← hlink, Arming.after_link]
    rfl
  · rw [← hlatch, Bool.not_eq_false]
    rfl

theorem Knows.rejected_iff (h : Knows config ticks t r.before) (hr : ticks[t]? = some r)
    (htick : r.before.tick r.input = .ok (r.after, r.output)) (b : Blockers) :
    .armingRejected b ∈ r.output.events ↔
      startState ticks t = .disarmed ∧ r.output.state = .disarmed ∧ SwitchOnAt config ticks t ∧
        (∀ s, t = s + 1 → ¬SwitchOnAt config ticks s) ∧ InForce config ticks r t b := by
  have hd : Decides r.before r.input r.after r.output r.told := decides_told htick
  have hprev : r.before.arming.prevArmSwitch = false ↔
      ∀ s, t = s + 1 → ¬SwitchOnAt config ticks s := by
    rw [← Bool.not_eq_true, h.switch]
    simp
  have hmem : .armingRejected b ∈ r.output.events ↔
      r.before.arming.decision r.told = some (.armingRejected b) := by
    rw [← Option.mem_toList, ← decisions_of_tick htick, List.mem_filter]
    exact (and_iff_left rfl).symm
  rw [hmem, Arming.decision_eq_rejected_iff, ← hd.state, h.follows.state_eq,
    h.follows.switchOn_iff hr hd, hprev]
  refine and_congr_right fun hstart => and_congr_right fun _ => and_congr_right fun hon =>
    and_congr_right fun _ => ?_
  have hforce := h.inForce_blockers hr hd (h.follows.state_eq.trans hstart) hon
  constructor
  · rintro rfl
    exact hforce
  · exact fun hb => hb.unique hforce

end History

/-! ## Sessions -/

/-- Following the reports up to a tick leads to the state in which the tick starts. -/
theorem Session.replay {config : FlightConfig} {ticks : List RunTick} {c : FlightCore}
    (h : Session config ticks c) {t : Nat} (ht : t ≤ ticks.length) :
    (reported (ticks.take t)).foldl Event.leadsTo .disarmed = startState ticks t := by
  induction t with
  | zero => rfl
  | succ t ih =>
    have hr : ticks[t]? = some ticks[t] := List.getElem?_eq_getElem ht
    have htick := (h.before hr).2
    have hd := decides_told htick
    have hstate := (h.knows hr).follows.state_eq
    rw [List.take_add_one, hr, reported, List.flatMap_append, List.foldl_append, ← reported,
      ih (Nat.le_of_succ_le ht), ← hstate]
    change (List.flatMap _ [ticks[t]]).foldl _ _ = _
    rw [List.flatMap_singleton, ← foldl_leadsTo_filter, decisions_of_tick htick,
      Arming.decision_leadsTo, startState, hr]
    exact hd.state.symm

/-- The reports of a session leave nothing out: they tell the arming state after every tick, and every
refusal to arm with its reasons, however the session goes. -/
theorem logged_of_session (config : FlightConfig) {ticks : List RunTick} {c : FlightCore}
    (h : Session config ticks c) : Logged config ticks c := by
  have hticks : ∀ r ∈ ticks, r.before.tick r.input = .ok (r.after, r.output) := by
    intro r hmem
    obtain ⟨t, hr⟩ := List.getElem?_of_mem hmem
    exact (h.before hr).2
  refine ⟨fun r hmem => complete_of_tick (hticks r hmem), fun r hmem => ?_, fun t r hr => ?_,
    fun t r hr => (h.knows hr).rejected_iff hr (h.before hr).2, fun input => ?_⟩
  · rw [decisions_of_tick (hticks r hmem)]
    exact Option.length_toList_le
  · rw [h.replay (List.getElem?_eq_some_iff.mp hr).1, startState, hr]
    rfl
  · obtain ⟨next, out, htick, -⟩ := h.sound.tick input
    exact ⟨next, out, htick⟩

/-- The link comes up with the arm switch on, the switch goes off and on again, and then no frame
arrives. -/
def earlySwitch : List TickInputs :=
  let sample : MotionSample := { time := 1000, gyro := .fill 0.0, acc := some ⟨0.0, 0.0, 1.0⟩ }
  let frame (on : Bool) : RadioFrame :=
    { linkOk := true, channels := ({} : Channels).withAux 0 on }
  [{ sample := some sample, radio := some (frame true) },
    { sample := some sample, radio := some (frame false) },
    { sample := some sample, radio := some (frame true) },
    { sample := some sample }]

/-- The switch that was on too early is refused, and reported as what has to be released. -/
theorem logged_of_earlySwitch : ∃ ticks c r,
    Session { arming := { linkTimeout := 1 } } ticks c ∧
      reported ticks = [.armingRejected { switchLatched := true }, .armed,
        .failsafeLanding .linkLoss] ∧
      ticks[0]? = some r ∧
      InForce { arming := { linkTimeout := 1 } } ticks r 0 { switchLatched := true } := by
  have hvalid : FlightConfig.validate { arming := { linkTimeout := 1 } } = .ok () := rfl
  obtain ⟨ticks, c, hrun, hsession⟩ := Session.exists_run hvalid {} earlySwitch
  have hlogged := logged_of_session { arming := { linkTimeout := 1 } } hsession
  have hevents : ((build { arming := { linkTimeout := 1 } } {}).run earlySwitch).toOption.map
      (List.map fun r => r.output.events) = some [[.armingRejected { switchLatched := true }], [],
        [.armed], [.failsafeLanding .linkLoss]] := by
    decide +kernel
  rw [hrun] at hevents
  have hticks : (ticks.map fun r => r.output.events) =
      [[.armingRejected { switchLatched := true }], [], [.armed], [.failsafeLanding .linkLoss]] :=
    Option.some_inj.mp hevents
  have hfirst : ticks[0]?.map (fun r => r.output.events) =
      some [.armingRejected { switchLatched := true }] := by
    rw [← List.getElem?_map, hticks]
    rfl
  obtain ⟨r, hr, hreport⟩ := Option.map_eq_some_iff.mp hfirst
  have hrejected : .armingRejected { switchLatched := true } ∈ r.output.events := by
    rw [hreport]
    exact List.mem_singleton_self _
  refine ⟨ticks, c, r, hsession, ?_, hr, ((hlogged.rejected 0 r hr _).mp hrejected).2.2.2.2⟩
  rw [reported, List.flatMap_def, hticks]
  rfl

end FlightCore

end Quadrotor

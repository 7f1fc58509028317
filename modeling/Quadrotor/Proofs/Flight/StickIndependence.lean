import Mathlib
import Quadrotor.Proofs.Flight.Landing
import Quadrotor.Proofs.Flight.Listening

/-!
# The sticks in a landing

A landing that the vehicle has started by itself does not look at the sticks. Two runs from one core
in such a landing whose inputs differ in the sticks alone, the throttle included, cannot be told
apart by what they put out, up to and including the tick that ends the landing.
-/

namespace Quadrotor

/-! ## The arming state machine -/

namespace Arming

theorem usedThrottle_congr {a : Arming} (h : a.state ≠ .armed) (i j : ArmingInput) (s t : Scalar) :
    a.usedThrottle i s = a.usedThrottle j t := by
  unfold usedThrottle
  cases hs : a.state with
  | armed => exact absurd hs h
  | disarmed | failsafeLanding => rfl

/-- In a landing, all that the throttle stick has a say in is whether the vehicle counts as on the
ground once the landing has ended. -/
theorem update_withThrottle {a : Arming} (h : a.state = .failsafeLanding) (input : ArmingInput)
    (x : Scalar) : ∃ ground, a.update { input with throttle := x } =
      ((a.update input).1, { (a.update input).2.1 with onGround := ground }, (a.update input).2.2) ∧
      ((a.update input).2.1.state = .failsafeLanding → ground = (a.update input).2.1.onGround) := by
  obtain ⟨stick, hstick⟩ : ∃ stick, stick = Scalar.limitOrZero 0.0 1.0 input.throttle := ⟨_, rfl⟩
  obtain ⟨other, hother⟩ : ∃ other, other = Scalar.limitOrZero 0.0 1.0 x := ⟨_, rfl⟩
  obtain ⟨⟨moved, event⟩, hmoved⟩ : ∃ r, (a.observe input).transition input stick = r := ⟨_, rfl⟩
  have hobserve : a.observe { input with throttle := x } = a.observe input := rfl
  have ho : (a.observe input).state = .failsafeLanding := h
  have hmoved' : (a.observe input).transition { input with throttle := x } other = (moved, event) := by
    rw [← hmoved]
    simp only [transition, ho]
    rfl
  have hstate : moved.state ≠ .armed := by
    have hne := after_ne_armed_of_landing h input
    rw [← moved_state, Arming.moved, ← hstick, hmoved] at hne
    exact hne
  have hused := usedThrottle_congr hstate { input with throttle := x } input other stick
  unfold update
  simp only [hobserve, ← hstick, ← hother, hmoved, hmoved', hused]
  refine ⟨_, rfl, fun hland => ?_⟩
  simp only [groundThrottle, hland]

end Arming

/-! ## Inputs that differ in the sticks -/

/-- The two frames differ in the sticks at most. -/
structure RadioFrame.SameButSticks (f g : RadioFrame) : Prop where
  linkOk : g.linkOk = f.linkOk
  aux : g.channels.aux = f.channels.aux

/-- The two inputs differ in the sticks of a frame at most. -/
structure TickInputs.SameButSticks (i j : TickInputs) : Prop where
  sample : j.sample = i.sample
  voltage : j.voltage = i.voltage
  overran : j.overran = i.overran
  radio : Option.Rel RadioFrame.SameButSticks i.radio j.radio

theorem TickInputs.SameButSticks.healthyChannels {i j : TickInputs} (h : i.SameButSticks j) :
    Option.Rel (fun a b : Channels => b.aux = a.aux) i.healthyChannels j.healthyChannels := by
  have hradio := h.radio
  unfold TickInputs.healthyChannels
  generalize i.radio = f, j.radio = g at hradio ⊢
  cases hradio with
  | none => exact .none
  | some hframe =>
    simp only [hframe.linkOk]
    split_ifs
    · exact .some hframe.aux
    · exact .none

theorem Switches.resolve_congr (s : Switches SwitchSource) {a b : Channels} (h : b.aux = a.aux) :
    s.resolve b = s.resolve a := by
  have hon : ∀ source : SwitchSource, source.isOn b = source.isOn a := by
    intro source
    cases source with
    | channel index => simp only [SwitchSource.isOn, Channels.auxOn, h]
    | alwaysOn | alwaysOff => rfl
  simp only [resolve, hon]

namespace FlightCore

/-! ## The stages with other channels -/

/-- The core with other channels. -/
def withChannels (c : FlightCore) (channels : Channels) : FlightCore := { c with channels := channels }

variable {c : FlightCore} {channels : Channels} {i j : TickInputs}

theorem heldChannels_aux (haux : channels.aux = c.channels.aux) (hsame : i.SameButSticks j) :
    (heldChannels channels j).aux = (heldChannels c.channels i).aux := by
  have hhealthy := hsame.healthyChannels
  unfold heldChannels
  generalize i.healthyChannels = a, j.healthyChannels = b at hhealthy ⊢
  cases hhealthy with
  | none => exact haux
  | some h => simp [Channels.sanitized, h]

theorem received_withChannels :
    (c.withChannels channels).received j = (c.received i).withChannels (heldChannels channels j) := by
  rw [received_eq, received_eq]
  rfl

theorem switchesIn_withChannels (haux : channels.aux = c.channels.aux) (hsame : i.SameButSticks j) :
    (c.withChannels channels).switchesIn j = c.switchesIn i := by
  have hreceived : (c.received i).channels = heldChannels c.channels i := by
    rw [received_eq]
    rfl
  unfold switchesIn
  rw [received_withChannels (i := i)]
  refine Switches.resolve_congr _ ?_
  rw [hreceived]
  exact heldChannels_aux haux hsame

theorem applyParams_withChannels (c : FlightCore) (channels : Channels) (profile : Profile) :
    (c.withChannels channels).applyParams profile =
      (c.applyParams profile).withChannels channels := by
  unfold applyParams
  have happlied : (c.withChannels channels).applied = c.applied := rfl
  have htable : (c.withChannels channels).table = c.table := rfl
  rw [happlied, htable]
  split_ifs <;> rfl

theorem sense_withChannels {d : FlightCore} {sample : Option MotionSample} {leveling : Bool}
    (h : c.sense sample leveling = .ok d) :
    (c.withChannels channels).sense sample leveling = .ok (d.withChannels channels) := by
  cases sample with
  | none =>
    rw [← Except.ok.inj h]
    rfl
  | some sample =>
    unfold sense at h ⊢
    simp only [bind_eq_ok] at h ⊢
    obtain ⟨updated, hupdate, hd⟩ := h
    rw [← Except.ok.inj hd]
    cases hacc : sample.acc <;> rw [hacc] at hupdate <;> exact ⟨updated, hupdate, rfl⟩

theorem monitor_withChannels (c : FlightCore) (channels : Channels) (voltage : Option Scalar) :
    (c.withChannels channels).monitor voltage =
      ((c.monitor voltage).1.withChannels channels, (c.monitor voltage).2) := by
  cases voltage <;> rfl

theorem decide_withChannels (hland : c.arming.state = .failsafeLanding) (channels : Channels)
    (told : ArmingInput) (x : Scalar) : ∃ ground,
      (c.withChannels channels).decide { told with throttle := x } =
        ((c.decide told).1.withChannels channels, { (c.decide told).2.1 with onGround := ground },
          (c.decide told).2.2) ∧
      ((c.decide told).2.1.state = .failsafeLanding → ground = (c.decide told).2.1.onGround) := by
  obtain ⟨ground, hupdate, hground⟩ := Arming.update_withThrottle hland told x
  refine ⟨ground, ?_, hground⟩
  have harming : (c.withChannels channels).arming = c.arming := rfl
  unfold decide
  simp only [harming, hupdate]
  split_ifs <;> rfl

theorem command_withChannels {switches : Switches Bool} {decision : ArmingOutput}
    (hland : decision.state = .failsafeLanding) {r : FlightCore × Triple Scalar}
    (h : c.command switches decision = .ok r) :
    (c.withChannels channels).command switches decision = .ok (r.1.withChannels channels, r.2) := by
  unfold command at h ⊢
  simp only [hland, flownSticks, ArmingState.motorsEnabled, if_true, bind_eq_ok] at h ⊢
  obtain ⟨set, hset, updated, hupdate, hr⟩ := h
  rw [← Except.ok.inj hr]
  exact ⟨set, hset, updated, hupdate, rfl⟩

theorem decided_withChannels {sensed : FlightCore} (hland : sensed.arming.state = .failsafeLanding)
    (haux : channels.aux = c.channels.aux) (hsame : i.SameButSticks j) (held : Channels) :
    ∃ ground, (c.withChannels channels).decided (sensed.withChannels held) j =
        ((c.decided sensed i).1.withChannels held,
          { (c.decided sensed i).2.1 with onGround := ground }, (c.decided sensed i).2.2) ∧
      ((c.decided sensed i).2.1.state = .failsafeLanding →
        ground = (c.decided sensed i).2.1.onGround) := by
  obtain ⟨battery, hmonitored⟩ := monitor_frame sensed i.voltage
  have hmonitored' : (sensed.withChannels held).monitored j =
      ((sensed.monitored i).1.withChannels held, (sensed.monitored i).2) := by
    rw [monitored, hsame.voltage, monitor_withChannels]
    rfl
  have hfresh : j.healthyChannels.isSome = i.healthyChannels.isSome := by
    have hhealthy := hsame.healthyChannels
    generalize i.healthyChannels = a, j.healthyChannels = b at hhealthy ⊢
    cases hhealthy <;> rfl
  have htold : (c.withChannels channels).armingInputIn (sensed.withChannels held) j =
      { c.armingInputIn sensed i with throttle := held.throttle } := by
    unfold armingInputIn
    rw [hmonitored', switchesIn_withChannels haux hsame, hfresh, TickInputs.usableSample,
      hsame.sample]
    rfl
  have hland' : (sensed.monitored i).1.arming.state = .failsafeLanding := by
    rw [monitored, hmonitored]
    exact hland
  unfold decided
  rw [hmonitored', htold]
  exact decide_withChannels hland' held _ _

/-! ## Two ticks -/

variable {sensed : FlightCore} {listened : FlightCore × List Event}
  {commanded : FlightCore × Triple Scalar} {mixed : Mixer × PerMotor Scalar}

theorem Stages.sensed_withChannels {sensed' : FlightCore} {listened' : FlightCore × List Event}
    {commanded' : FlightCore × Triple Scalar} {mixed' : Mixer × PerMotor Scalar}
    (h : Stages c i sensed listened commanded mixed)
    (h' : Stages (c.withChannels channels) j sensed' listened' commanded' mixed')
    (haux : channels.aux = c.channels.aux) (hsame : i.SameButSticks j) :
    sensed' = sensed.withChannels (heldChannels channels j) := by
  have hprepared : (c.withChannels channels).prepared j =
      (c.prepared i).withChannels (heldChannels channels j) := by
    unfold prepared
    rw [received_withChannels (i := i), switchesIn_withChannels haux hsame,
      applyParams_withChannels]
  have hsense := h'.sense
  rw [hprepared, switchesIn_withChannels haux hsame, TickInputs.usableSample, hsame.sample] at hsense
  exact (Except.ok.inj ((sense_withChannels h.sense).symm.trans hsense)).symm

/-- The outputs of two ticks agree once the duties, the decisions and the events of gestures do. -/
theorem outputOf_withChannels {held : Channels} {listened' : FlightCore × List Event}
    {mixed' : Mixer × PerMotor Scalar} (haux : channels.aux = c.channels.aux)
    (hsame : i.SameButSticks j)
    (hstate : ((c.withChannels channels).decided (sensed.withChannels held) j).2.1.state =
      (c.decided sensed i).2.1.state)
    (hevents : ((c.withChannels channels).decided (sensed.withChannels held) j).2.2 =
      (c.decided sensed i).2.2)
    (hlistened : listened'.2 = listened.2) (hmixed : mixed'.2 = mixed.2) :
    (c.withChannels channels).outputOf j (sensed.withChannels held) listened' mixed' =
      c.outputOf i sensed listened mixed := by
  unfold outputOf eventsIn
  rw [hstate, hevents, hlistened, hmixed, switchesIn_withChannels haux hsame, hsame.overran,
    monitored, hsame.voltage, monitor_withChannels]
  rfl

theorem Stages.arming_eq (h : Stages c i sensed listened commanded mixed) :
    sensed.arming = c.arming := by
  obtain ⟨_, _, _, _, _, _, _, _, hsensed⟩ := h.sensed_eq
  rw [hsensed, received_eq]

/-- In a landing that goes on, the stages after the decision are the same but for the channels. -/
theorem Stages.landing_withChannels {held : Channels} {listened' : FlightCore × List Event}
    {commanded' : FlightCore × Triple Scalar} {mixed' : Mixer × PerMotor Scalar}
    (h : Stages c i sensed listened commanded mixed)
    (h' : Stages (c.withChannels channels) j (sensed.withChannels held) listened' commanded' mixed')
    (haux : channels.aux = c.channels.aux) (hsame : i.SameButSticks j)
    (hdecided : (c.withChannels channels).decided (sensed.withChannels held) j =
      ((c.decided sensed i).1.withChannels held, (c.decided sensed i).2))
    (hland : (c.decided sensed i).2.1.state = .failsafeLanding) :
    commanded'.1 = commanded.1.withChannels held ∧ mixed' = mixed := by
  have hfly : (c.decided sensed i).2.1.state ≠ .disarmed := by
    rw [hland]
    decide
  have hlisten := h'.listen
  have hcommand := h'.command
  have hmix := h'.mix
  rw [hdecided] at hlisten hcommand hmix
  have hl := listenIn_of_flying hfly h.listen
  have hl' := listenIn_of_flying hfly hlisten
  have hlistened : listened' = (listened.1.withChannels held, listened.2) := by
    rw [hl, hl']
    rfl
  rw [hlistened, switchesIn_withChannels haux hsame, command_withChannels hland h.command] at hcommand
  obtain rfl := Except.ok.inj hcommand
  exact ⟨rfl, (Except.ok.inj (h.mix.symm.trans hmix)).symm⟩

/-- A tick that starts in a landing puts out the same, and if the landing goes on, it leaves two
cores that differ in the channels alone. -/
theorem tick_withChannels {c next : FlightCore} {out : TickOutput} (hsound : c.Sound)
    (hquiet : c.Quiet) (hland : c.arming.state = .failsafeLanding) {channels : Channels}
    (haux : channels.aux = c.channels.aux) {i j : TickInputs} (hsame : i.SameButSticks j)
    (htick : c.tick i = .ok (next, out)) :
    ∃ next', (c.withChannels channels).tick j = .ok (next', out) ∧
      (out.state = .failsafeLanding → ∃ held : Channels, held.aux = next.channels.aux ∧
        next' = next.withChannels held) := by
  have hsound' : (c.withChannels channels).Sound :=
    ⟨hsound.attitude, hsound.setpoints, hsound.controller, hsound.mixer, hsound.divider⟩
  have hquiet' : (c.withChannels channels).Quiet :=
    ⟨hquiet.agree, hquiet.checking, hquiet.history, hquiet.centred⟩
  obtain ⟨next', out', htick', -⟩ := hsound'.tick j
  obtain ⟨told, hdecides⟩ := exists_decides htick
  obtain ⟨sensed, listened, commanded, mixed, hstages, hnext, rfl⟩ := tick_eq_ok.mp htick
  obtain ⟨sensed', listened', commanded', mixed', hstages', hnext', rfl⟩ := tick_eq_ok.mp htick'
  obtain rfl := hstages.sensed_withChannels hstages' haux hsame
  have hstill : sensed.arming.state = .failsafeLanding := by
    rw [hstages.arming_eq]
    exact hland
  obtain ⟨ground, hdecided, hground⟩ :=
    decided_withChannels hstill haux hsame (heldChannels channels j)
  have hgoes : (c.decided sensed i).2.1.state = .failsafeLanding →
      commanded'.1 = commanded.1.withChannels (heldChannels channels j) ∧ mixed' = mixed := by
    intro hs
    rw [hground hs] at hdecided
    exact hstages.landing_withChannels hstages' haux hsame hdecided hs
  have hdecision := congrArg Prod.snd hdecided
  have hstate := congrArg ArmingOutput.state (congrArg Prod.fst hdecision)
  have hevents := congrArg Prod.snd hdecision
  have hne : c.arming.state ≠ .disarmed := by
    rw [hland]
    decide
  have hlistened : listened'.2 = listened.2 :=
    (hquiet'.listened_nothing hne hstages').trans (hquiet.listened_nothing hne hstages).symm
  have hmixed : mixed'.2 = mixed.2 := by
    have hmix := hstages.mix
    have hmix' := hstages'.mix
    cases hs : (c.decided sensed i).2.1.state with
    | failsafeLanding => rw [(hgoes hs).2]
    | armed => exact absurd (hdecides.state ▸ hs) (Arming.after_ne_armed_of_landing hland told)
    | disarmed =>
      rw [hs] at hmix
      rw [hstate, hs] at hmix'
      rw [← Except.ok.inj hmix, ← Except.ok.inj hmix']
  refine ⟨next', ?_, fun hs => ⟨heldChannels channels j, ?_, ?_⟩⟩
  · rw [htick', outputOf_withChannels haux hsame hstate hevents hlistened hmixed]
  · rw [hdecides.channels]
    exact heldChannels_aux haux hsame
  · obtain ⟨hcommanded, rfl⟩ := hgoes hs
    rw [hnext, hnext', hcommanded]
    rfl

/-! ## Two runs -/

/-- Every tick before tick `t` of a run ends in a landing. -/
def LandsUntil (run : List RunTick) (t : Nat) : Prop :=
  ∀ s < t, ∀ r, run[s]? = some r → r.output.state = .failsafeLanding

theorem run_withChannels {inputs inputs' : List TickInputs}
    (hsame : List.Forall₂ TickInputs.SameButSticks inputs inputs') {c : FlightCore} (hsound : c.Sound)
    (hquiet : c.Quiet) (hland : c.arming.state = .failsafeLanding) {channels : Channels}
    (haux : channels.aux = c.channels.aux) :
    ∃ run run', c.run inputs = .ok run ∧ (c.withChannels channels).run inputs' = .ok run' ∧
      ∀ t, LandsUntil run t → run'[t]?.map RunTick.output = run[t]?.map RunTick.output := by
  -- Along the inputs; once the landing is over there is nothing left to compare.
  induction hsame generalizing c channels with
  | nil => exact ⟨[], [], rfl, rfl, fun t _ => rfl⟩
  | @cons i j inputs inputs' hnow hlater ih =>
    obtain ⟨next, out, htick, hnext, -⟩ := hsound.tick i
    obtain ⟨next', htick', hgoes⟩ := tick_withChannels hsound hquiet hland haux hnow htick
    obtain ⟨told, hdecides⟩ := exists_decides htick
    by_cases hs : out.state = .failsafeLanding
    · obtain ⟨held, hheld, rfl⟩ := hgoes hs
      obtain ⟨rest, rest', hrest, hrest', hagree⟩ :=
        ih hnext (hquiet.tick htick) (hdecides.arming_state.trans hs) hheld
      refine ⟨_, _, run_cons_eq_ok.mpr ⟨next, out, rest, htick, hrest, rfl⟩,
        run_cons_eq_ok.mpr ⟨_, out, rest', htick', hrest', rfl⟩, fun t ht => ?_⟩
      cases t with
      | zero => rfl
      | succ t =>
        refine hagree t fun s hst r hr => ht (s + 1) (Nat.succ_lt_succ hst) r ?_
        rw [List.getElem?_cons_succ, hr]
    · have hsound' : (c.withChannels channels).Sound :=
        ⟨hsound.attitude, hsound.setpoints, hsound.controller, hsound.mixer, hsound.divider⟩
      obtain ⟨rest, hrest⟩ := hnext.run inputs
      obtain ⟨rest', hrest'⟩ := (hsound'.of_tick htick').1.run inputs'
      refine ⟨_, _, run_cons_eq_ok.mpr ⟨next, out, rest, htick, hrest, rfl⟩,
        run_cons_eq_ok.mpr ⟨next', out, rest', htick', hrest', rfl⟩, fun t ht => ?_⟩
      cases t with
      | zero => rfl
      | succ t => exact absurd (ht 0 t.succ_pos _ rfl) hs

/-- The sticks have no say in a landing: from wherever a session has come to one, two runs whose
inputs differ in the sticks alone put out the same, up to and including the tick that ends it. -/
theorem outputs_of_landing (config : FlightConfig) {ticks : List RunTick} {c : FlightCore}
    (h : Session config ticks c) (hland : c.arming.state = .failsafeLanding)
    {inputs inputs' : List TickInputs}
    (hsame : List.Forall₂ TickInputs.SameButSticks inputs inputs') :
    ∃ run run', c.run inputs = .ok run ∧ c.run inputs' = .ok run' ∧
      ∀ t, LandsUntil run t → run'[t]?.map RunTick.output = run[t]?.map RunTick.output := by
  have haux : c.channels.aux = c.channels.aux := rfl
  exact run_withChannels hsame h.sound h.quiet hland haux

/-- A frame with the sticks somewhere, and the arm switch on or off. -/
def frame (roll throttle : Scalar) (arm : Bool) : TickInputs :=
  { radio := some
      { linkOk := true
        channels := ({ roll := roll, throttle := throttle } : Channels).withAux 0 arm } }

/-- A flight at half throttle that the link drops out of. -/
def droppedFlight : List TickInputs :=
  let sample : MotionSample := { time := 1000, gyro := .fill 0.0, acc := some ⟨0.0, 0.0, 1.0⟩ }
  [{ frame 0.0 0.0 false with sample := some sample }, frame 0.0 0.0 true, frame 0.0 0.5 true, {}]

/-- The link comes back while the vehicle lands, and the switch is turned off one tick later. Up to
there it makes no difference whether the sticks are at rest or at full throttle and roll. -/
theorem outputs_of_droppedFlight : ∃ ticks c run run',
    Session { arming := { linkTimeout := 1 } } ticks c ∧ c.arming.state = .failsafeLanding ∧
    c.run [frame 0.0 0.0 true, frame 0.0 0.0 false] = .ok run ∧
    c.run [frame 1.0 1.0 true, frame 1.0 1.0 false] = .ok run' ∧
    run.map (fun r => r.output.state) = [.failsafeLanding, .disarmed] ∧
    run'[0]?.map RunTick.output = run[0]?.map RunTick.output ∧
    run'[1]?.map RunTick.output = run[1]?.map RunTick.output := by
  have hvalid : FlightConfig.validate { arming := { linkTimeout := 1 } } = .ok () := rfl
  obtain ⟨ticks, _, hflight, hsession⟩ := Session.exists_run hvalid {} droppedFlight
  let seen (p : RunTick) : ArmingState × Option (List ArmingState) :=
    (p.output.state, (p.after.run [frame 0.0 0.0 true, frame 0.0 0.0 false]).toOption.map
      (List.map fun r => r.output.state))
  have hseen : ((build { arming := { linkTimeout := 1 } } {}).run droppedFlight).toOption.map
      (fun ticks => ticks[3]?.map seen) =
        some (some (.failsafeLanding, some [.failsafeLanding, .disarmed])) := by
    decide +kernel
  rw [hflight] at hseen
  obtain ⟨p, hp, hp'⟩ := Option.map_eq_some_iff.mp (Option.some_inj.mp hseen)
  obtain ⟨hstate, hstates⟩ := Prod.mk.inj hp'
  obtain ⟨told, hdecides⟩ := exists_decides (hsession.before hp).2
  have hland : p.after.arming.state = .failsafeLanding := hdecides.arming_state.trans hstate
  have hsame : List.Forall₂ TickInputs.SameButSticks
      [frame 0.0 0.0 true, frame 0.0 0.0 false] [frame 1.0 1.0 true, frame 1.0 1.0 false] :=
    .cons ⟨rfl, rfl, rfl, .some ⟨rfl, rfl⟩⟩ (.cons ⟨rfl, rfl, rfl, .some ⟨rfl, rfl⟩⟩ .nil)
  obtain ⟨run, run', hrun, hrun', hagree⟩ :=
    outputs_of_landing { arming := { linkTimeout := 1 } } (hsession.after hp) hland hsame
  rw [hrun] at hstates
  have hstates' : run.map (fun r => r.output.state) = [.failsafeLanding, .disarmed] :=
    Option.some_inj.mp hstates
  refine ⟨_, p.after, run, run', hsession.after hp, hland, hrun, hrun', hstates', ?_, ?_⟩
  · exact hagree 0 fun s hs => absurd hs (Nat.not_lt_zero s)
  · refine hagree 1 fun s hs r hr => ?_
    have hfirst : (run.map fun r => r.output.state)[s]? = some r.output.state := by
      rw [List.getElem?_map, hr]
      rfl
    obtain rfl := Nat.lt_one_iff.mp hs
    rw [hstates'] at hfirst
    exact (Option.some_inj.mp hfirst).symm

end FlightCore

end Quadrotor

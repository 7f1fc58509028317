import Mathlib
import Quadrotor.Proofs.Flight.Decision
import Quadrotor.Proofs.Flight.Session

/-!
# Gestures within a tick

A tick of the flight core makes one step of the recogniser of gestures, on the channels in use, and
only where the step of the arming state machine has left the vehicle disarmed. In any other state
nothing is entered, and the sticks are not checked either; so when the vehicle is disarmed again, it
starts with nothing.
-/

namespace Quadrotor

/-- An excursion that has not started from the centre asks for nothing. -/
theorem Gestures.update_of_uncentred {g next : Gestures} {channels : Channels} {live : Bool}
    {action : Option GestureAction} (hcentred : g.centred = false)
    (h : g.update channels live = .ok (next, action)) : action = none := by
  have hadvance : g.advance.centred = false := hcentred
  unfold update look at h
  simp only [hadvance, Bool.false_eq_true, if_false] at h
  split_ifs at h
  all_goals exact (Prod.mk.inj (Except.ok.inj h)).2.symm

namespace FlightCore

/-- What the pilot can change by gestures. -/
structure Tuning where
  /-- The parameters, their generation, and what the gain gestures have selected. -/
  table : TuningTable
  /-- The arming state machine is told that the sticks are being checked. -/
  blocking : Bool
  /-- The sticks are being checked. -/
  checking : Bool
  savePending : Bool

/-- The present one. -/
def tuning (c : FlightCore) : Tuning :=
  ⟨c.table, c.arming.stickCheck, c.travel.isSome, c.savePending⟩

/-- A tick from `c` with its outcome, as gestures take part in it: `d` is the core that listens. -/
structure Listens (c next : FlightCore) (out : TickOutput) (d : FlightCore)
    (listened : FlightCore × List Event) : Prop where
  listen : d.listenIn out.state = .ok listened
  gestures : d.gestures = c.gestures
  tuning : d.tuning = c.tuning
  gestures_after : next.gestures = listened.1.gestures
  tuning_after : next.tuning = listened.1.tuning
  channels : d.channels = next.channels
  fault : d.arming.fault = next.arming.fault
  events : ∀ action, .gestureMatched action ∈ out.events ↔ .gestureMatched action ∈ listened.2

theorem gestureMatched_not_mem_pending (c : FlightCore) (overran : Bool) (action : GestureAction) :
    .gestureMatched action ∉ c.pendingEvents overran := by
  unfold pendingEvents
  cases c.loadFailed <;> cases overran <;> simp

theorem gestureMatched_not_mem_monitor (c : FlightCore) (voltage : Option Scalar)
    (action : GestureAction) : .gestureMatched action ∉ (c.monitor voltage).2 := by
  cases voltage with
  | none => exact List.not_mem_nil
  | some v =>
    intro hmem
    obtain ⟨change, -, hevent⟩ := Option.mem_map.mp (Option.mem_toList.mp hmem)
    cases change <;> cases hevent

/-- Every tick makes a step of the recogniser. -/
theorem exists_listens {c next : FlightCore} {input : TickInputs} {out : TickOutput}
    (h : c.tick input = .ok (next, out)) : ∃ d listened, Listens c next out d listened := by
  obtain ⟨sensed, listened, commanded, mixed, hstages, rfl, rfl⟩ := tick_eq_ok.mp h
  obtain ⟨_, _, _, _, _, _, _, _, hsensed⟩ := hstages.sensed_eq
  obtain ⟨_, _, _, _, hdecided, -⟩ := decided_eq c sensed input
  obtain ⟨stickCheck, _, _, _, _, hlistened, -⟩ := listenIn_frame hstages.listen
  obtain ⟨_, _, hcommanded⟩ := command_frame hstages.command
  refine ⟨(c.decided sensed input).1, listened, hstages.listen, ?_, ?_, ?_, ?_, ?_, ?_, ?_⟩
  · rw [hdecided, hsensed, received_eq]
  · rw [hdecided, hsensed, received_eq]
    simp [tuning]
  · rw [hcommanded]
  · rw [hcommanded]
    rfl
  · rw [hcommanded, hlistened]
  · rw [hcommanded, hlistened]
    rfl
  · intro action
    have harming : .gestureMatched action ∉ (c.decided sensed input).2.2 := fun hmem => by
      have hkind := (Arming.part_update _ _).kind _ hmem
      cases hkind
    rw [hstages.events_eq]
    simp [eventsIn, gestureMatched_not_mem_pending, monitored, gestureMatched_not_mem_monitor,
      harming]

/-! ## Ways to listen -/

/-- Nothing is entered while the vehicle is not disarmed. -/
theorem listenIn_of_flying {d : FlightCore} {state : ArmingState} (hs : state ≠ .disarmed)
    {listened : FlightCore × List Event} (h : d.listenIn state = .ok listened) :
    listened = ({ d with gestures := d.gestures.reset }, []) := by
  cases state with
  | disarmed => exact absurd rfl hs
  | armed | failsafeLanding => exact (Except.ok.inj h).symm

theorem gestureMatched_not_mem_travel (c : FlightCore) (action : GestureAction) :
    .gestureMatched action ∉ c.checkTravel.2 := by
  unfold checkTravel
  cases c.travel with
  | none => simp
  | some before =>
    simp only
    split_ifs <;> simp

theorem checkTravel_tuning (c : FlightCore) : c.checkTravel.1.tuning = c.tuning := by
  unfold checkTravel
  cases h : c.travel with
  | none => rfl
  | some before => simp [tuning, h]

theorem carryOut_gestures (c : FlightCore) (outcome : ActionOutcome) :
    (c.carryOut outcome).gestures = c.gestures := by
  cases outcome <;> rfl

/-- Nothing is reported where nothing is checked and the sticks have not been centred. -/
theorem listen_of_rest {d : FlightCore} {listened : FlightCore × List Event}
    (htravel : d.travel = none) (hcentred : d.gestures.centred = false)
    (h : d.listen = .ok listened) : listened.2 = [] := by
  unfold listen checkTravel at h
  simp only [htravel, bind_eq_ok] at h
  obtain ⟨⟨gestures, action⟩, hupdate, hr⟩ := h
  obtain rfl := Gestures.update_of_uncentred hcentred hupdate
  rw [← Except.ok.inj hr]

/-- Whatever a gesture asks for, the check of the sticks goes along with what blocks arming. -/
theorem carryOut_checking (c : FlightCore) (outcome : ActionOutcome)
    (h : c.travel.isSome = c.arming.stickCheck) :
    (c.carryOut outcome).travel.isSome = (c.carryOut outcome).arming.stickCheck := by
  cases outcome with
  | changed | selected | saveRequested => exact h
  | stickCheck active => cases active <;> rfl

/-- What listening while disarmed comes to. -/
theorem listen_cases {d : FlightCore} {listened : FlightCore × List Event}
    (h : d.listen = .ok listened) : ∃ action,
      d.gestures.update d.channels d.arming.fault.isNone = .ok (listened.1.gestures, action) ∧
      (∀ a, .gestureMatched a ∈ listened.2 ↔ action = some a) ∧
      (action = none → listened.1.tuning = d.tuning) ∧
      (d.travel.isSome = d.arming.stickCheck →
        listened.1.travel.isSome = listened.1.arming.stickCheck) := by
  obtain ⟨travel, htravel⟩ := checkTravel_frame d
  have htuning := checkTravel_tuning d
  have hnone := gestureMatched_not_mem_travel d
  unfold listen at h
  rw [htravel] at htuning
  simp only [bind_eq_ok, htravel] at h
  obtain ⟨⟨gestures, action⟩, hupdate, hr⟩ := h
  have hchecked : travel.isSome = d.travel.isSome := congrArg Tuning.checking htuning
  cases action with
  | none =>
    rw [← Except.ok.inj hr]
    refine ⟨none, hupdate, fun a => ?_, fun _ => htuning, fun hagree => hchecked.trans hagree⟩
    simp [hnone a]
  | some action =>
    rw [← Except.ok.inj hr]
    refine ⟨some action, ?_, fun a => ?_, fun ha => ?_, fun hagree => ?_⟩
    · rw [carryOut_gestures]
      exact hupdate
    · simp [hnone a, eq_comm]
    · cases ha
    · exact carryOut_checking _ _ (hchecked.trans hagree)

/-! ## What the flying vehicle does not do -/

/-- The check of the sticks and what blocks arming go together, and there is neither a check nor
anything entered unless the vehicle is disarmed. -/
structure Quiet (c : FlightCore) : Prop where
  agree : c.travel.isSome = c.arming.stickCheck
  checking : c.arming.state ≠ .disarmed → c.arming.stickCheck = false
  history : c.arming.state ≠ .disarmed → c.gestures.history = []
  centred : c.arming.state ≠ .disarmed → c.gestures.centred = false

/-- A tick that ends in flight has started without a check of the sticks. -/
theorem Quiet.checking_of_after {c : FlightCore} (h : c.Quiet) {told : ArmingInput}
    (hs : (c.arming.after told).state ≠ .disarmed) : c.arming.stickCheck = false := by
  by_cases hc : c.arming.state = .disarmed
  · rw [(Arming.after_of_disarmed hc told).2] at hs
    split_ifs at hs with harms
    · rw [Bool.and_eq_true, Arming.blockers_isEmpty_iff] at harms
      exact harms.2.2.2.2.2.1
    · exact absurd rfl hs
  · exact h.checking hc

theorem Quiet.tick {c next : FlightCore} {input : TickInputs} {out : TickOutput} (h : c.Quiet)
    (htick : c.tick input = .ok (next, out)) : next.Quiet := by
  obtain ⟨told, hdecides⟩ := exists_decides htick
  obtain ⟨d, listened, hl⟩ := exists_listens htick
  have hstate := hdecides.arming_state
  have hblocking : next.arming.stickCheck = listened.1.arming.stickCheck :=
    congrArg Tuning.blocking hl.tuning_after
  have hchecking : next.travel.isSome = listened.1.travel.isSome :=
    congrArg Tuning.checking hl.tuning_after
  have hagree : d.travel.isSome = d.arming.stickCheck :=
    (congrArg Tuning.checking hl.tuning).trans
      (h.agree.trans (congrArg Tuning.blocking hl.tuning).symm)
  by_cases hs : out.state = .disarmed
  · have hlisten := hl.listen
    rw [hs] at hlisten
    obtain ⟨_, -, -, -, hkeeps⟩ := listen_cases hlisten
    have hdisarmed : ¬next.arming.state ≠ .disarmed := fun hne => hne (hstate.trans hs)
    refine ⟨?_, fun hne => absurd hne hdisarmed, fun hne => absurd hne hdisarmed,
      fun hne => absurd hne hdisarmed⟩
    rw [hchecking, hblocking]
    exact hkeeps hagree
  · have hflying := listenIn_of_flying hs hl.listen
    have hreset : next.gestures = d.gestures.reset := by rw [hl.gestures_after, hflying]
    rw [hflying] at hblocking hchecking
    refine ⟨hchecking.trans (hagree.trans hblocking.symm), fun _ => ?_, fun _ => ?_, fun _ => ?_⟩
    · rw [hdecides.state] at hs
      exact hblocking.trans
        ((congrArg Tuning.blocking hl.tuning).trans (h.checking_of_after hs))
    · rw [hreset]
      rfl
    · rw [hreset]
      rfl

/-- Nothing is heard in a tick that starts in flight, not even if it ends disarmed. -/
theorem Quiet.listened_nothing {c : FlightCore} {input : TickInputs} {sensed : FlightCore}
    {listened : FlightCore × List Event} {commanded : FlightCore × Triple Scalar}
    {mixed : Mixer × PerMotor Scalar} (h : c.Quiet) (hfly : c.arming.state ≠ .disarmed)
    (hstages : Stages c input sensed listened commanded mixed) : listened.2 = [] := by
  obtain ⟨_, _, _, _, _, _, _, _, hsensed⟩ := hstages.sensed_eq
  obtain ⟨_, _, _, _, hdecided, -⟩ := decided_eq c sensed input
  have htravel : (c.decided sensed input).1.travel = c.travel := by
    rw [hdecided, hsensed, received_eq]
  have hgestures : (c.decided sensed input).1.gestures = c.gestures := by
    rw [hdecided, hsensed, received_eq]
  have hlisten := hstages.listen
  by_cases hs : (c.decided sensed input).2.1.state = .disarmed
  · rw [hs] at hlisten
    refine listen_of_rest ?_ ?_ hlisten
    · rw [htravel, ← Option.isNone_iff_eq_none, ← Option.not_isSome, h.agree, h.checking hfly]
      rfl
    · rw [hgestures, h.centred hfly]
  · rw [listenIn_of_flying hs hlisten]

theorem Session.quiet {config : FlightConfig} {ticks : List RunTick} {c : FlightCore}
    (h : Session config ticks c) : c.Quiet := by
  refine invariant (P := fun _ c => c.Quiet) (fun _ params failed => ?_) ?_ ?_ h
  · exact ⟨rfl, fun _ => rfl, fun _ => rfl, fun _ => rfl⟩
  · exact fun _ hq htick => hq.tick htick
  · exact fun hq => ⟨hq.agree, hq.checking, hq.history, hq.centred⟩

end FlightCore

end Quadrotor

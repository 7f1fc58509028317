import Mathlib
import Quadrotor.Proofs.Flight.Tick

/-!
# What a tick reports

The report of a tick has room for more events than a tick can produce, so none is ever dropped. The
events of the arming state machine can be told from all others, and they reach the report as they
are.
-/

namespace Quadrotor

/-- The event comes from the arming state machine. -/
def Event.isArming : Event → Bool
  | .armed | .disarmed _ | .armingRejected _ | .failsafeLanding _ | .lvcActive => true
  | .lowBattery | .batteryOk | .gestureMatched _ | .saveComplete | .saveFailed | .loadFailed
  | .fullStickTravel | .tickOverrun => false

/-- The event tells what the arming state machine has decided in a tick. -/
def Event.isDecision : Event → Bool
  | .armed | .disarmed _ | .armingRejected _ | .failsafeLanding _ => true
  | .lvcActive | .lowBattery | .batteryOk | .gestureMatched _ | .saveComplete | .saveFailed
  | .loadFailed | .fullStickTravel | .tickOverrun => false

theorem Event.isArming_of_isDecision {e : Event} (h : e.isDecision = true) : e.isArming = true := by
  cases e <;> first | rfl | cases h

/-- A report that stays within its capacity holds everything in order. -/
theorem foldl_push (reported events : List Event)
    (h : reported.length + events.length ≤ Event.capacity) :
    events.foldl Event.push reported = reported ++ events := by
  induction events generalizing reported with
  | nil => exact (List.append_nil reported).symm
  | cons e events ih =>
    rw [List.length_cons] at h
    have hpush : Event.push reported e = reported ++ [e] := if_pos (by omega)
    rw [List.foldl_cons, hpush, ih _ (by rw [List.length_append, List.length_singleton]; omega),
      List.append_assoc]
    rfl

/-- A part of a report: how long it can be, and whether its events are those of the state machine. -/
structure Part (arming : Bool) (n : Nat) (events : List Event) : Prop where
  length_le : events.length ≤ n
  kind : ∀ e ∈ events, e.isArming = arming

theorem part_nil {arming : Bool} (n : Nat) : Part arming n [] :=
  ⟨Nat.zero_le n, fun _ he => absurd he List.not_mem_nil⟩

theorem part_singleton {arming : Bool} {e : Event} (h : e.isArming = arming) :
    Part arming 1 [e] where
  length_le := le_rfl
  kind _ he := by rw [List.mem_singleton.mp he, h]

theorem Part.append {arming : Bool} {m n : Nat} {xs ys : List Event} (hx : Part arming m xs)
    (hy : Part arming n ys) : Part arming (m + n) (xs ++ ys) where
  length_le := by
    rw [List.length_append]
    exact Nat.add_le_add hx.length_le hy.length_le
  kind e he := (List.mem_append.mp he).elim (hx.kind e) (hy.kind e)

theorem part_toList {arming : Bool} {event : Option Event}
    (h : ∀ e ∈ event, e.isArming = arming) : Part arming 1 event.toList := by
  cases event with
  | none => exact part_nil 1
  | some e => exact part_singleton (h e rfl)

namespace Arming

theorem transition_isDecision (a : Arming) (input : ArmingInput) (stick : Scalar) :
    ∀ e ∈ (a.transition input stick).2, e.isDecision = true := by
  unfold transition
  cases a.state with
  | disarmed =>
    simp only [whileDisarmed]
    split_ifs <;> simp [Event.isDecision]
  | armed =>
    simp only [whileArmed]
    cases a.failsafeReason input with
    | some reason => simp [Event.isDecision]
    | none =>
      simp only
      split_ifs <;> simp [Event.isDecision]
  | failsafeLanding =>
    simp only [whileLanding]
    split_ifs <;> simp [Event.isDecision]

theorem part_update (a : Arming) (input : ArmingInput) : Part true 2 (a.update input).2.2 := by
  have hlvc : Part true 1 (if input.lvc && !a.prevLvc then [Event.lvcActive] else []) := by
    split_ifs
    · exact part_singleton rfl
    · exact part_nil 1
  exact hlvc.append (part_toList fun e he => Event.isArming_of_isDecision
    (transition_isDecision (a.observe input) input (Scalar.limitOrZero 0.0 1.0 input.throttle) e he))

end Arming

namespace FlightCore

theorem part_pending (c : FlightCore) (overran : Bool) : Part false 2 (c.pendingEvents overran) := by
  unfold pendingEvents
  cases c.loadFailed <;> cases overran <;> exact ⟨by decide, by decide⟩

theorem part_monitor (c : FlightCore) (voltage : Option Scalar) :
    Part false 1 (c.monitor voltage).2 := by
  cases voltage with
  | none => exact part_nil 1
  | some v =>
    refine part_toList fun e he => ?_
    obtain ⟨change, -, rfl⟩ := Option.mem_map.mp he
    cases change <;> rfl

theorem part_travel (c : FlightCore) : Part false 1 c.checkTravel.2 := by
  unfold checkTravel
  cases c.travel with
  | none => exact part_nil 1
  | some before =>
    simp only
    split_ifs
    · exact part_singleton rfl
    · exact part_nil 1

theorem part_listenIn {c : FlightCore} {state : ArmingState} {r : FlightCore × List Event}
    (h : c.listenIn state = .ok r) : Part false 2 r.2 := by
  cases state with
  | disarmed =>
    change c.listen = .ok r at h
    unfold listen at h
    simp only [bind_eq_ok] at h
    obtain ⟨⟨gestures, action⟩, -, hr⟩ := h
    have htravel := part_travel c
    cases action with
    | none =>
      rw [← Except.ok.inj hr]
      exact ⟨htravel.length_le.trans one_le_two, htravel.kind⟩
    | some action =>
      rw [← Except.ok.inj hr]
      exact htravel.append (part_singleton rfl)
  | armed | failsafeLanding =>
    rw [← Except.ok.inj h]
    exact part_nil 2

variable {c : FlightCore} {input : TickInputs} {sensed : FlightCore}
  {listened : FlightCore × List Event} {commanded : FlightCore × Triple Scalar}
  {mixed : Mixer × PerMotor Scalar}

/-- No event of a tick is dropped. -/
theorem Stages.events_eq (h : Stages c input sensed listened commanded mixed) :
    (c.outputOf input sensed listened mixed).events = c.eventsIn sensed listened input := by
  have h1 := (part_pending c input.overran).length_le
  have h2 : (sensed.monitored input).2.length ≤ 1 := (part_monitor sensed input.voltage).length_le
  have h3 : (c.decided sensed input).2.2.length ≤ 2 := (Arming.part_update _ _).length_le
  have h4 := (part_listenIn h.listen).length_le
  refine (foldl_push [] _ ?_).trans (List.nil_append _)
  change 0 + (c.eventsIn sensed listened input).length ≤ 8
  simp only [eventsIn, List.length_append]
  omega

/-- The events of the state machine in the report are those that it has produced. -/
theorem Stages.mem_events_iff (h : Stages c input sensed listened commanded mixed) {e : Event}
    (he : e.isArming = true) :
    e ∈ (c.outputOf input sensed listened mixed).events ↔ e ∈ (c.decided sensed input).2.2 := by
  rw [h.events_eq]
  simp only [eventsIn, List.mem_append]
  constructor
  · rintro (((hmem | hmem) | hmem) | hmem)
    · rw [(part_pending c input.overran).kind e hmem] at he
      cases he
    · rw [(part_monitor sensed input.voltage).kind e hmem] at he
      cases he
    · exact hmem
    · rw [(part_listenIn h.listen).kind e hmem] at he
      cases he
  · exact fun hmem => Or.inl (Or.inr hmem)

end FlightCore

end Quadrotor

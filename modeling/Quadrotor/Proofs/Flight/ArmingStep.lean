import Mathlib
import Quadrotor.Flight.Arming

/-!
# One tick of the arming state machine

What a tick does to each part of the state machine. The parts that a transition leaves alone are
listed once; for the rest there is one statement for each state in which the tick can start.
-/

namespace Quadrotor.Arming

/-- The state machine after a tick. -/
def after (a : Arming) (input : ArmingInput) : Arming := (a.update input).1

theorem output_state (a : Arming) (input : ArmingInput) :
    (a.update input).2.1.state = (a.after input).state := rfl

/-! ## What a transition leaves alone -/

/-- Everything but the state, the latch of the switch and the throttle. -/
structure SameSources (a b : Arming) : Prop where
  config : b.config = a.config
  period : b.period = a.period
  link : b.link = a.link
  sensor : b.sensor = a.sensor
  linkWasLost : b.linkWasLost = a.linkWasLost
  stickCheck : b.stickCheck = a.stickCheck

theorem transition_sameSources (a : Arming) (input : ArmingInput) (stick : Scalar) :
    SameSources a (a.transition input stick).1 := by
  unfold transition
  cases a.state with
  | disarmed =>
    simp only [whileDisarmed]
    split_ifs <;> exact ⟨rfl, rfl, rfl, rfl, rfl, rfl⟩
  | armed =>
    simp only [whileArmed]
    cases a.failsafeReason input with
    | some reason => exact ⟨rfl, rfl, rfl, rfl, rfl, rfl⟩
    | none =>
      simp only
      split_ifs <;> exact ⟨rfl, rfl, rfl, rfl, rfl, rfl⟩
  | failsafeLanding =>
    simp only [whileLanding]
    split_ifs <;> exact ⟨rfl, rfl, rfl, rfl, rfl, rfl⟩

theorem after_sameSources (a : Arming) (input : ArmingInput) :
    SameSources (a.observe input) (a.after input) := by
  obtain ⟨h1, h2, h3, h4, h5, h6⟩ := transition_sameSources (a.observe input) input
    (Scalar.limitOrZero 0.0 1.0 input.throttle)
  exact ⟨h1, h2, h3, h4, h5, h6⟩

@[simp] theorem after_config (a : Arming) (input : ArmingInput) :
    (a.after input).config = a.config := (after_sameSources a input).config

@[simp] theorem after_stickCheck (a : Arming) (input : ArmingInput) :
    (a.after input).stickCheck = a.stickCheck := (after_sameSources a input).stickCheck

@[simp] theorem after_link (a : Arming) (input : ArmingInput) :
    (a.after input).link = a.link.update input.linkFresh := (after_sameSources a input).link

@[simp] theorem after_sensor (a : Arming) (input : ArmingInput) :
    (a.after input).sensor = a.sensor.update input.sensorFresh := (after_sameSources a input).sensor

theorem after_linkWasLost (a : Arming) (input : ArmingInput) :
    (a.after input).linkWasLost = (a.after input).link.lost := by
  rw [after_link]
  exact (after_sameSources a input).linkWasLost

/-! ## The state after a tick -/

/-- The arm switch counts in a tick if it is on and the link is not lost by then. -/
theorem observe_effectiveSwitch (a : Arming) (input : ArmingInput) :
    (a.observe input).effectiveSwitch input = (input.armSwitch && !(a.after input).link.lost) := by
  rw [after_link]
  rfl

theorem observe_switchLatched (a : Arming) (input : ArmingInput) :
    (a.observe input).switchLatched =
      ((a.switchLatched || (a.linkWasLost && !(a.after input).link.lost && input.armSwitch)) &&
        (input.armSwitch || (a.after input).link.lost)) := by
  rw [after_link]
  change ((a.switchLatched || (a.linkWasLost && !(a.link.update input.linkFresh).lost &&
    (input.armSwitch && !(a.link.update input.linkFresh).lost))) &&
    ((input.armSwitch && !(a.link.update input.linkFresh).lost) ||
      (a.link.update input.linkFresh).lost)) = _
  cases (a.link.update input.linkFresh).lost <;> simp

/-- A tick that starts disarmed arms or leaves everything as observed. -/
theorem after_of_disarmed {a : Arming} (h : a.state = .disarmed) (input : ArmingInput) :
    (a.after input).switchLatched = (a.observe input).switchLatched ∧
    (a.after input).state =
      if (a.observe input).effectiveSwitch input && ((a.observe input).blockers
        (Scalar.limitOrZero 0.0 1.0 input.throttle) input.startupLow).isEmpty
      then .armed else .disarmed := by
  have ho : (a.observe input).state = .disarmed := h
  unfold after update
  simp only [transition, ho, whileDisarmed]
  split_ifs
  exacts [⟨rfl, rfl⟩, ⟨rfl, ho⟩, ⟨rfl, ho⟩]

/-- A tick that starts armed lands for a reason, or else goes by the arm switch. -/
theorem after_of_armed {a : Arming} (h : a.state = .armed) (input : ArmingInput) :
    (a.after input).switchLatched = (a.observe input).switchLatched ∧
    (a.after input).state =
      if ((a.observe input).failsafeReason input).isSome then .failsafeLanding
      else if (a.observe input).effectiveSwitch input then .armed else .disarmed := by
  have ho : (a.observe input).state = .armed := h
  unfold after update
  simp only [transition, ho, whileArmed]
  cases (a.observe input).failsafeReason input with
  | some reason => exact ⟨rfl, rfl⟩
  | none =>
    simp only [Option.isSome_none, Bool.false_eq_true, if_false]
    split_ifs
    exacts [⟨rfl, ho⟩, ⟨rfl, rfl⟩]

/-- A tick that starts in a landing ends it for the pilot, ends it on the ground, or goes on. -/
theorem after_of_landing {a : Arming} (h : a.state = .failsafeLanding) (input : ArmingInput) :
    (input.linkFresh = true ∧ (a.observe input).effectiveSwitch input = false ∧
      (a.after input).state = .disarmed ∧
      (a.after input).switchLatched = (a.observe input).switchLatched) ∨
    ((a.after input).state = .disarmed ∧ (a.after input).switchLatched =
      ((a.observe input).effectiveSwitch input || (a.after input).link.lost)) ∨
    (a.after input).state = .failsafeLanding := by
  have ho : (a.observe input).state = .failsafeLanding := h
  rw [after_link]
  unfold after update
  simp only [transition, ho, whileLanding]
  split_ifs with huser hdone
  · rw [Bool.and_eq_true, Bool.not_eq_true'] at huser
    exact Or.inl ⟨huser.1, huser.2, rfl, rfl⟩
  · exact Or.inr (Or.inl ⟨rfl, rfl⟩)
  · exact Or.inr (Or.inr rfl)

theorem blockers_isEmpty_iff (a : Arming) (stick : Scalar) (startupLow : Bool) :
    (a.blockers stick startupLow).isEmpty = true ↔
      a.sensor.lost = false ∧ stick < a.config.safeThrottle ∧ a.link.lost = false ∧
        startupLow = false ∧ a.stickCheck = false ∧ a.switchLatched = false := by
  simp [Blockers.isEmpty, blockers]

/-- The reason to land is the first fault in order. -/
theorem failsafeReason_iff (a : Arming) (input : ArmingInput) :
    (a.failsafeReason input = some .linkLoss ↔ a.link.lost = true) ∧
    (a.failsafeReason input = some .sensorLoss ↔ a.link.lost = false ∧ a.sensor.lost = true) ∧
    (a.failsafeReason input = some .lowVoltage ↔ a.link.lost = false ∧ a.sensor.lost = false ∧
      (input.lvc && input.lvcEnabled) = true) ∧
    (a.failsafeReason input = none ↔ a.link.lost = false ∧ a.sensor.lost = false ∧
      (input.lvc && input.lvcEnabled) = false) := by
  unfold failsafeReason
  cases a.link.lost <;> cases a.sensor.lost <;> cases (input.lvc && input.lvcEnabled) <;> simp

theorem after_ne_armed_of_landing {a : Arming} (h : a.state = .failsafeLanding)
    (input : ArmingInput) : (a.after input).state ≠ .armed := by
  rcases after_of_landing h input with ⟨_, _, hs, _⟩ | ⟨hs, _⟩ | hs <;> rw [hs] <;> decide

/-- However a tick starts, it ends armed only if neither the link nor the sensor is lost by then. -/
theorem held_of_after_armed {a : Arming} {input : ArmingInput} (h : (a.after input).state = .armed) :
    (a.after input).link.lost = false ∧ (a.after input).sensor.lost = false := by
  have hlink : (a.observe input).link = (a.after input).link := (after_link a input).symm
  have hsensor : (a.observe input).sensor = (a.after input).sensor := (after_sensor a input).symm
  cases hs : a.state with
  | disarmed =>
    rw [(after_of_disarmed hs input).2] at h
    split_ifs at h with hc
    rw [Bool.and_eq_true, blockers_isEmpty_iff, hlink, hsensor] at hc
    exact ⟨hc.2.2.2.1, hc.2.1⟩
  | armed =>
    rw [(after_of_armed hs input).2] at h
    split_ifs at h with hreason
    rw [Bool.not_eq_true, Option.isSome_eq_false_iff, Option.isNone_iff_eq_none,
      (failsafeReason_iff _ _).2.2.2, hlink, hsensor] at hreason
    exact ⟨hreason.1, hreason.2.1⟩
  | failsafeLanding => exact absurd h (after_ne_armed_of_landing hs input)

/-! ## The events of a tick -/

/-- Besides the event of the low-voltage cutoff, a tick reports what the transition reports. -/
theorem mem_events_iff (a : Arming) (input : ArmingInput) {e : Event} (he : e ≠ .lvcActive) :
    e ∈ (a.update input).2.2 ↔ ((a.observe input).transition input
      (Scalar.limitOrZero 0.0 1.0 input.throttle)).2 = some e := by
  have hlvc : e ∉ (if input.lvc && !a.prevLvc then [Event.lvcActive] else []) := by
    split_ifs <;> simp [he]
  unfold update
  simp only [List.mem_append, Option.mem_toList, or_iff_right hlvc]

/-- A tick that starts armed lands, and says why, exactly if there is that reason to land. -/
theorem landing_event_iff {a : Arming} (h : a.state = .armed) (input : ArmingInput)
    (reason : FailsafeReason) :
    ((a.after input).state = .failsafeLanding ∧
        Event.failsafeLanding reason ∈ (a.update input).2.2) ↔
      (a.observe input).failsafeReason input = some reason := by
  have ho : (a.observe input).state = .armed := h
  rw [mem_events_iff a input (by simp), (after_of_armed h input).2]
  simp only [transition, ho, whileArmed]
  cases hr : (a.observe input).failsafeReason input with
  | some other => simp
  | none =>
    simp only [Option.isSome_none, Bool.false_eq_true, if_false]
    split_ifs <;> simp

end Quadrotor.Arming

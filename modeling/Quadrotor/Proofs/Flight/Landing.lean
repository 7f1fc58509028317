import Mathlib
import Quadrotor.Proofs.Checks
import Quadrotor.Proofs.Flight.ArmingCondition
import Quadrotor.Proofs.Scalar.Nonneg

/-!
# The descent of a landing

A landing starts with the throttle that was in use, and from there on goes by its own: no input can
raise the throttle or make it negative, and the landing ends only where the pilot takes over on a
fresh link, or where nothing is left of the throttle. What an input can do is to add to the decay,
and an addition that is negative or no number counts as none.
-/

namespace Quadrotor

open Scalar

/-- The throttle of a landing one tick after it was `throttle`. -/
def ArmingConfig.landingThrottle (c : ArmingConfig) (period throttle decay : Scalar) : Scalar :=
  maxNum (throttle - (c.landingRate + maxNum decay 0.0) * period) 0.0

theorem ArmingConfig.check_eq_ok {c : ArmingConfig} : c.check = .ok () ↔
    (c.linkTimeout ≠ 0 ∧ c.sensorTimeout ≠ 0) ∧ (0.0 ≤ c.safeThrottle ∧ c.safeThrottle < 1.0) ∧
    (c.landingRate.isFinite = true ∧ 0.0 < c.landingRate) ∧
    (0.0 ≤ c.idleThrottle ∧ c.idleThrottle < 1.0) := by
  simp only [ArmingConfig.check, check_bind_eq_ok, require_eq_ok, Bool.and_eq_true, bne_iff_ne,
    within_iff, isPositive_iff]

theorem ArmingConfig.bounds_of_check {c : ArmingConfig} (h : c.check = .ok ()) :
    c.linkTimeout ≠ 0 ∧ 0.0 ≤ c.landingRate ∧ 0.0 ≤ c.idleThrottle ∧ c.idleThrottle < 1.0 := by
  obtain ⟨⟨htimeout, -⟩, -, ⟨-, hrate⟩, hidle⟩ := ArmingConfig.check_eq_ok.mp h
  exact ⟨htimeout, le_of_lt hrate, hidle⟩

namespace Arming

/-! ## The throttle after a tick -/

/-- The state machine once the state is decided, but not yet the throttle. -/
def moved (a : Arming) (input : ArmingInput) : Arming :=
  ((a.observe input).transition input (limitOrZero 0.0 1.0 input.throttle)).1

theorem after_throttle (a : Arming) (input : ArmingInput) : (a.after input).throttle =
    (a.moved input).usedThrottle input (limitOrZero 0.0 1.0 input.throttle) := rfl

theorem moved_state (a : Arming) (input : ArmingInput) :
    (a.moved input).state = (a.after input).state := rfl

theorem throttle_of_disarmed {a : Arming} {input : ArmingInput}
    (h : (a.after input).state = .disarmed) : (a.after input).throttle = 0.0 := by
  rw [after_throttle, usedThrottle, moved_state, h]

theorem ne_landing_of_disarmed {a : Arming} (h : a.state = .disarmed) (input : ArmingInput) :
    (a.after input).state ≠ .failsafeLanding := by
  rw [(after_of_disarmed h input).2]
  split_ifs <;> decide

theorem throttle_of_entering {a : Arming} {input : ArmingInput} (hs : a.state ≠ .failsafeLanding)
    (hl : (a.after input).state = .failsafeLanding) : (a.after input).throttle = a.throttle := by
  have hkeep : (a.moved input).throttle = a.throttle := by
    cases h : a.state with
    | failsafeLanding => exact absurd h hs
    | disarmed => exact absurd hl (ne_landing_of_disarmed h input)
    | armed =>
      have ho : (a.observe input).state = .armed := h
      rw [← moved_state] at hl
      unfold moved at hl ⊢
      simp only [transition, ho, whileArmed] at hl ⊢
      cases hr : (a.observe input).failsafeReason input with
      | some reason => rfl
      | none =>
        simp only [hr] at hl ⊢
        split_ifs at hl ⊢
        · rw [ho] at hl
          cases hl
        · cases hl
  rw [after_throttle, usedThrottle, moved_state, hl]
  exact hkeep

/-- The line of idle-up rises from the idle throttle to full throttle. -/
theorem through_idle {idle : Scalar} (hidle : 0.0 ≤ idle ∧ idle < 1.0) :
    (Line.through 0.0 1.0 idle 1.0).slope.isFinite = true ∧
    value (Line.through 0.0 1.0 idle 1.0).slope = value (1.0 - idle) ∧
    (Line.through 0.0 1.0 idle 1.0).offset.isFinite = true ∧
    value (Line.through 0.0 1.0 idle 1.0).offset = idle.value := by
  have hfi : idle.isFinite = true := isFinite_of_mem rfl rfl hidle.1 (le_of_lt hidle.2)
  obtain ⟨rise, hrise⟩ : ∃ rise, rise = 1.0 - idle := ⟨_, rfl⟩
  have hrise0 : 0.0 ≤ rise := by
    rw [hrise]
    exact sub_nonneg hfi (le_of_lt hidle.2)
  have hrise1 : rise ≤ 1.0 := by
    refine (hrise ▸ isNaN_or_sub_le (by decide) hidle.1).resolve_left ?_
    rw [(le_iff.mp hrise0).2.1]
    decide
  have hfr : rise.isFinite = true := isFinite_of_mem rfl rfl hrise0 hrise1
  obtain ⟨hfslope, hslope⟩ := div_one_eq hfr
  -- The line starts at the idle throttle: what is taken away from it is zero.
  obtain ⟨hfnone, hnone⟩ := div_one_eq (zero_mul_eq hfr).1
  have hoffset := faithful_sub hfi hfnone
  rw [hnone, (zero_mul_eq hfr).2, sub_zero] at hoffset
  have hspan : (1.0 - 0.0 : Scalar) = 1.0 := rfl
  unfold Line.through
  simp only [hspan, ← hrise]
  exact ⟨hfslope, hslope, hoffset.isFinite hfi le_rfl,
    hoffset.value_eq (isNaN_of_isFinite hfi) rfl⟩

/-- With idle-up, a limited stick gives no negative throttle. -/
theorem nonneg_idle {idle stick : Scalar} (hidle : 0.0 ≤ idle ∧ idle < 1.0)
    (hstick : 0.0 ≤ stick ∧ stick ≤ 1.0) : 0.0 ≤ (Line.through 0.0 1.0 idle 1.0).value stick := by
  have hfi : idle.isFinite = true := isFinite_of_mem rfl rfl hidle.1 (le_of_lt hidle.2)
  have hfs : stick.isFinite = true := isFinite_of_mem rfl rfl hstick.1 hstick.2
  obtain ⟨hfslope, hslope, hfoffset, hoffset⟩ := through_idle hidle
  have hslope0 : 0.0 ≤ (Line.through 0.0 1.0 idle 1.0).slope := by
    have hrise : 0.0 ≤ 1.0 - idle := sub_nonneg hfi (le_of_lt hidle.2)
    rw [nonneg_iff (isNaN_of_isFinite hfslope), hslope]
    exact value_nonneg hrise
  have hoffset0 : 0.0 ≤ (Line.through 0.0 1.0 idle 1.0).offset := by
    rw [nonneg_iff (isNaN_of_isFinite hfoffset), hoffset]
    exact value_nonneg hidle.1
  exact nonneg_add (nonneg_mul_of_isFinite hstick.1 hslope0 hfs hfslope) hoffset0

/-! ## A tick of a landing -/

/-- A tick of a run, as an observer notes it. -/
structure Report where
  input : ArmingInput
  output : ArmingOutput
  events : List Event

/-- What there is to note of a tick. -/
def report (a : Arming) (input : ArmingInput) : Report :=
  ⟨input, (a.update input).2.1, (a.update input).2.2⟩

namespace Report

/-- The pilot ends a landing: a frame of a healthy link has arrived, and its arm switch is off. -/
def PilotDisarms (r : Report) : Prop := r.input.linkFresh = true ∧ r.input.armSwitch = false

/-- The tick ends disarmed and reports the reason. -/
def DisarmsFor (reason : DisarmReason) (r : Report) : Prop :=
  r.output.state = .disarmed ∧ Event.disarmed reason ∈ r.events

/-- What becomes in a tick of a landing at the given throttle. -/
structure Descends (config : ArmingConfig) (period throttle : Scalar) (r : Report) : Prop where
  ends : r.output.state = .failsafeLanding ∨ r.DisarmsFor .userCommand ∨
    r.DisarmsFor .landingComplete
  user : r.DisarmsFor .userCommand ↔ r.PilotDisarms
  complete : r.DisarmsFor .landingComplete ↔ ¬r.PilotDisarms ∧
    value (config.landingThrottle period throttle r.input.landingDecay) = 0
  throttle_eq : r.output.state = .failsafeLanding →
    r.output.throttle = config.landingThrottle period throttle r.input.landingDecay
  throttle_le : r.output.state = .failsafeLanding → r.output.throttle ≤ throttle

end Report

theorem landingThrottle_nonneg (c : ArmingConfig) (period throttle decay : Scalar) :
    0.0 ≤ c.landingThrottle period throttle decay := nonneg_maxNum _

/-- Whatever is added to the decay, a landing descends. -/
theorem landingThrottle_le {c : ArmingConfig} (hrate : 0.0 ≤ c.landingRate) {period : Scalar}
    (hperiod : 0.0 < period) (hfinite : period.isFinite = true) {throttle : Scalar}
    (ht : 0.0 ≤ throttle) (decay : Scalar) : c.landingThrottle period throttle decay ≤ throttle := by
  have hdecay : 0.0 ≤ (c.landingRate + maxNum decay 0.0) * period :=
    nonneg_mul (nonneg_add hrate (nonneg_maxNum decay)) hperiod hfinite
  unfold ArmingConfig.landingThrottle
  exact maxNum_le ht (isNaN_or_sub_le ht hdecay)

theorem fresh_not_lost {s : Staleness} (h : s.timeout ≠ 0) : (s.update true).lost = false := by
  change decide (s.timeout ≤ 0) = false
  rw [decide_eq_false_iff_not, UInt32.le_iff_toNat_le]
  exact fun hle => h (UInt32.toNat_inj.mp (Nat.le_zero.mp hle))

/-- The arm switch of a fresh frame counts as it is. -/
theorem pilotDisarms_iff {a : Arming} (h : a.link.timeout ≠ 0) (input : ArmingInput) :
    (input.linkFresh && !(a.observe input).effectiveSwitch input) = true ↔
      (a.report input).PilotDisarms := by
  change _ ↔ input.linkFresh = true ∧ input.armSwitch = false
  rw [observe_effectiveSwitch, after_link]
  cases hf : input.linkFresh with
  | false => simp
  | true => simp [fresh_not_lost h]

theorem disarmsFor_iff (a : Arming) (input : ArmingInput) (reason : DisarmReason) :
    (a.report input).DisarmsFor reason ↔ (a.after input).state = .disarmed ∧
      ((a.observe input).transition input (limitOrZero 0.0 1.0 input.throttle)).2 =
        some (.disarmed reason) := by
  rw [← mem_events_iff a input (by simp)]
  rfl

/-- The three ways in which a tick of a landing goes on. -/
theorem transition_of_landing {a : Arming} (hs : a.state = .failsafeLanding) (input : ArmingInput)
    (stick : Scalar) :
    ((input.linkFresh && !a.effectiveSwitch input) = true ∧
      (a.transition input stick).1.state = .disarmed ∧
      (a.transition input stick).2 = some (.disarmed .userCommand)) ∨
    (¬(input.linkFresh && !a.effectiveSwitch input) = true ∧ a.decayed input ≤ 0.0 ∧
      (a.transition input stick).1.state = .disarmed ∧
      (a.transition input stick).2 = some (.disarmed .landingComplete)) ∨
    (¬(input.linkFresh && !a.effectiveSwitch input) = true ∧ ¬a.decayed input ≤ 0.0 ∧
      (a.transition input stick).1.state = .failsafeLanding ∧
      (a.transition input stick).2 = none ∧
      (a.transition input stick).1.throttle = a.decayed input) := by
  simp only [transition, hs, whileLanding]
  split_ifs with hpilot hzero
  · exact Or.inl ⟨hpilot, rfl, rfl⟩
  · exact Or.inr (Or.inl ⟨hpilot, hzero, rfl, rfl⟩)
  · exact Or.inr (Or.inr ⟨hpilot, hzero, rfl, rfl, rfl⟩)

theorem descends_of_landing {a : Arming} (hs : a.state = .failsafeLanding)
    (htimeout : a.link.timeout ≠ 0) (hrate : 0.0 ≤ a.config.landingRate) (hperiod : 0.0 < a.period)
    (hfinite : a.period.isFinite = true) (ht : 0.0 ≤ a.throttle) (input : ArmingInput) :
    (a.report input).Descends a.config a.period a.throttle := by
  have ho : (a.observe input).state = .failsafeLanding := hs
  have hpilot := pilotDisarms_iff htimeout input
  have hzero := le_zero_iff (landingThrottle_nonneg a.config a.period a.throttle input.landingDecay)
  have hout : (a.report input).output.state = (a.moved input).state := rfl
  have huser := disarmsFor_iff a input .userCommand
  have hdone := disarmsFor_iff a input .landingComplete
  rw [← moved_state, moved] at huser hdone
  rw [moved] at hout
  rcases transition_of_landing ho input (limitOrZero 0.0 1.0 input.throttle) with
    ⟨hp, hstate, hevent⟩ | ⟨hp, hz, hstate, hevent⟩ | ⟨hp, hz, hstate, hevent, hthrottle⟩
  all_goals
    rw [hpilot] at hp
    rw [hstate] at hout huser hdone
    rw [hevent] at huser hdone
  · have hu : (a.report input).DisarmsFor .userCommand := huser.mpr ⟨rfl, rfl⟩
    refine ⟨Or.inr (Or.inl hu), iff_of_true hu hp, ?_, fun h => ?_, fun h => ?_⟩
    · exact iff_of_false (fun h => by simpa using (hdone.mp h).2) fun h => h.1 hp
    · rw [hout] at h; cases h
    · rw [hout] at h; cases h
  · have hd : (a.report input).DisarmsFor .landingComplete := hdone.mpr ⟨rfl, rfl⟩
    refine ⟨Or.inr (Or.inr hd), ?_, iff_of_true hd ⟨hp, hzero.mp hz⟩, fun h => ?_, fun h => ?_⟩
    · exact iff_of_false (fun h => by simpa using (huser.mp h).2) hp
    · rw [hout] at h; cases h
    · rw [hout] at h; cases h
  · have heq : (a.report input).output.throttle =
        a.config.landingThrottle a.period a.throttle input.landingDecay := by
      change (a.after input).throttle = _
      rw [after_throttle, moved, usedThrottle, hstate]
      exact hthrottle
    refine ⟨Or.inl hout, ?_, ?_, fun _ => heq, fun _ => ?_⟩
    · exact iff_of_false (fun h => by simpa using (huser.mp h).1) hp
    · exact iff_of_false (fun h => by simpa using (hdone.mp h).1) fun h => hz (hzero.mpr h.2)
    · rw [heq]
      exact landingThrottle_le hrate hperiod hfinite ht _

/-! ## The throttle in use -/

/-- The stick is read as a throttle. -/
theorem stick_mem (x : Scalar) : 0.0 ≤ limitOrZero 0.0 1.0 x ∧ limitOrZero 0.0 1.0 x ≤ 1.0 := by
  unfold limitOrZero
  split_ifs with h
  · exact confine_mem 0.0 1.0 (isNaN_of_isFinite h)
  · exact ⟨by decide, by decide⟩

/-- Where the throttle of a tick can come from. -/
theorem after_throttle_cases (a : Arming) (input : ArmingInput) :
    (a.after input).throttle = 0.0 ∨
    (a.after input).throttle = limitOrZero 0.0 1.0 input.throttle ∨
    (a.after input).throttle = (Line.through 0.0 1.0 a.config.idleThrottle 1.0).value
      (limitOrZero 0.0 1.0 input.throttle) ∨
    (a.after input).throttle = a.config.landingThrottle a.period a.throttle input.landingDecay ∨
    (a.after input).throttle = a.throttle := by
  have hconfig : (a.moved input).config = a.config :=
    (transition_sameSources (a.observe input) input (limitOrZero 0.0 1.0 input.throttle)).config
  cases hs : (a.after input).state with
  | disarmed => exact Or.inl (throttle_of_disarmed hs)
  | armed =>
    rw [after_throttle, usedThrottle, moved_state, hs, hconfig]
    simp only
    split_ifs
    · exact Or.inr (Or.inr (Or.inl rfl))
    · exact Or.inr (Or.inl rfl)
  | failsafeLanding =>
    by_cases hl : a.state = .failsafeLanding
    · rcases transition_of_landing (a := a.observe input) hl input
        (limitOrZero 0.0 1.0 input.throttle) with
        ⟨_, hd, _⟩ | ⟨_, _, hd, _⟩ | ⟨_, _, _, _, hthrottle⟩
      · exact absurd (hs.symm.trans hd) (by decide)
      · exact absurd (hs.symm.trans hd) (by decide)
      · refine Or.inr (Or.inr (Or.inr (Or.inl ?_)))
        rw [after_throttle, usedThrottle, moved_state, hs]
        exact hthrottle
    · exact Or.inr (Or.inr (Or.inr (Or.inr (throttle_of_entering hl hs))))

theorem nonneg_after_throttle {a : Arming}
    (hidle : 0.0 ≤ a.config.idleThrottle ∧ a.config.idleThrottle < 1.0) (h : 0.0 ≤ a.throttle)
    (input : ArmingInput) : 0.0 ≤ (a.after input).throttle := by
  rcases after_throttle_cases a input with heq | heq | heq | heq | heq <;> rw [heq]
  · decide
  · exact (stick_mem input.throttle).1
  · exact nonneg_idle hidle (stick_mem input.throttle)
  · exact landingThrottle_nonneg _ _ _ _
  · exact h

/-! ## Runs -/

/-- The reports of the ticks among a sequence of calls. -/
def reports (a : Arming) : List Call → List Report
  | [] => []
  | .tick input :: calls => a.report input :: reports (a.after input) calls
  | .stickCheck active :: calls => reports { a with stickCheck := active } calls

/-- What a landing needs to know of the state machine. -/
structure Afloat (config : ArmingConfig) (period : Scalar) (a : Arming) : Prop where
  config_eq : a.config = config
  period_eq : a.period = period
  timeout_eq : a.link.timeout = config.linkTimeout
  throttle : 0.0 ≤ a.throttle

theorem Afloat.tick {config : ArmingConfig} {period : Scalar} {a : Arming}
    (hidle : 0.0 ≤ config.idleThrottle ∧ config.idleThrottle < 1.0) (h : Afloat config period a)
    (input : ArmingInput) : Afloat config period (a.after input) where
  config_eq := by rw [after_config, h.config_eq]
  period_eq := (after_sameSources a input).period.trans h.period_eq
  timeout_eq := by rw [after_link]; exact h.timeout_eq
  throttle := nonneg_after_throttle (by rw [h.config_eq]; exact hidle) h.throttle input

theorem Afloat.stickCheck {config : ArmingConfig} {period : Scalar} {a : Arming}
    (h : Afloat config period a) (active : Bool) :
    Afloat config period { a with stickCheck := active } :=
  ⟨h.config_eq, h.period_eq, h.timeout_eq, h.throttle⟩

theorem Afloat.descends {config : ArmingConfig} {period : Scalar} {a : Arming}
    (h : Afloat config period a) (htimeout : config.linkTimeout ≠ 0)
    (hrate : 0.0 ≤ config.landingRate) (hperiod : 0.0 < period) (hfinite : period.isFinite = true)
    (hs : a.state = .failsafeLanding) (input : ArmingInput) :
    (a.report input).Descends config period a.throttle := by
  obtain ⟨rfl, rfl, ht, h0⟩ := h
  exact descends_of_landing hs (by rw [ht]; exact htimeout) hrate hperiod hfinite h0 input

/-- The state and the throttle that a tick leaves, as the next one finds them. -/
def Report.left (r : Report) : ArmingState × Scalar := (r.output.state, r.output.throttle)

/-- Every report of a run is one of a machine that has what each call preserves, and that starts with
what the report before has left. -/
theorem exists_machine {P : Arming → Prop} (htick : ∀ a input, P a → P (a.after input))
    (hcheck : ∀ a active, P a → P { a with stickCheck := active }) {a : Arming} (h : P a)
    (calls : List Call) {t : Nat} {r : Report} (hr : (reports a calls)[t]? = some r) :
    ∃ b, P b ∧ r = b.report r.input ∧
      ((a.state, a.throttle) :: (reports a calls).map Report.left)[t]? =
        some (b.state, b.throttle) := by
  -- Along the calls; only a tick moves the position on.
  induction calls generalizing a t with
  | nil => simp [reports] at hr
  | cons call calls ih =>
    cases call with
    | stickCheck active => exact ih (hcheck a active h) hr
    | tick input =>
      cases t with
      | zero =>
        rw [reports, List.getElem?_cons_zero, Option.some_inj] at hr
        subst hr
        exact ⟨a, h, rfl, rfl⟩
      | succ t =>
        rw [reports, List.getElem?_cons_succ] at hr
        obtain ⟨b, hb, hrb, hleft⟩ := ih (htick a input h) hr
        refine ⟨b, hb, hrb, ?_⟩
        rw [reports, List.map_cons, List.getElem?_cons_succ]
        exact hleft

theorem exists_afloat {config : ArmingConfig} {period : Scalar}
    (hidle : 0.0 ≤ config.idleThrottle ∧ config.idleThrottle < 1.0) {a : Arming}
    (h : Afloat config period a) (calls : List Call) {t : Nat} {r : Report}
    (hr : (reports a calls)[t]? = some r) :
    ∃ b, Afloat config period b ∧ r = b.report r.input ∧
      ((a.state, a.throttle) :: (reports a calls).map Report.left)[t]? =
        some (b.state, b.throttle) :=
  exists_machine (fun _ input h => h.tick hidle input) (fun _ active h => h.stickCheck active) h
    calls hr

/-- A report that follows another one starts with what that one has left. -/
theorem exists_machine_next {P : Arming → Prop} (htick : ∀ a input, P a → P (a.after input))
    (hcheck : ∀ a active, P a → P { a with stickCheck := active }) {a : Arming} (h : P a)
    (calls : List Call) {t : Nat} {p r : Report} (hp : (reports a calls)[t]? = some p)
    (hr : (reports a calls)[t + 1]? = some r) :
    ∃ b, P b ∧ r = b.report r.input ∧ b.state = p.output.state ∧
      b.throttle = p.output.throttle := by
  obtain ⟨b, hb, hrb, hleft⟩ := exists_machine htick hcheck h calls hr
  rw [List.getElem?_cons_succ, List.getElem?_map, hp] at hleft
  obtain ⟨hs, ht⟩ := Prod.mk.inj (Option.some_inj.mp hleft)
  exact ⟨b, hb, hrb, hs.symm, ht.symm⟩

theorem exists_next {config : ArmingConfig} {period : Scalar}
    (hidle : 0.0 ≤ config.idleThrottle ∧ config.idleThrottle < 1.0) {a : Arming}
    (h : Afloat config period a) (calls : List Call) {t : Nat} {p r : Report}
    (hp : (reports a calls)[t]? = some p) (hr : (reports a calls)[t + 1]? = some r) :
    ∃ b, Afloat config period b ∧ r = b.report r.input ∧ b.state = p.output.state ∧
      b.throttle = p.output.throttle :=
  exists_machine_next (fun _ input h => h.tick hidle input) (fun _ active h => h.stickCheck active)
    h calls hp hr

/-- What holds of the landings of a run. -/
structure Ramp (config : ArmingConfig) (period : Scalar) (run : List Report) : Prop where
  /-- No run begins with a landing. -/
  first : ∀ r : Report, run[0]? = some r → r.output.state ≠ .failsafeLanding
  /-- A landing starts with the throttle of the tick before. -/
  enters : ∀ (t : Nat) (p r : Report), run[t]? = some p → run[t + 1]? = some r →
    p.output.state ≠ .failsafeLanding → r.output.state = .failsafeLanding →
      r.output.throttle = p.output.throttle
  /-- A tick that starts in a landing goes on or ends it, as the pilot and the throttle say. -/
  descends : ∀ (t : Nat) (p r : Report), run[t]? = some p → run[t + 1]? = some r →
    p.output.state = .failsafeLanding → r.Descends config period p.output.throttle
  /-- From one tick of a landing to a later one the throttle has not grown. -/
  falls : ∀ (s t : Nat) (p r : Report), s ≤ t → run[s]? = some p → run[t]? = some r →
    (∀ (u : Nat) (q : Report), s ≤ u → u ≤ t → run[u]? = some q → q.output.state = .failsafeLanding) →
      r.output.throttle ≤ p.output.throttle
  number : ∀ r ∈ run, r.output.throttle.isNaN = false ∧ 0.0 ≤ r.output.throttle
  off : ∀ r ∈ run, r.output.state = .disarmed → r.output.throttle = 0.0

/-- What holds from each tick to the next holds over any stretch of a landing. -/
theorem throttle_falls {config : ArmingConfig} {period : Scalar} {run : List Report}
    (hnumber : ∀ r ∈ run, r.output.throttle.isNaN = false ∧ 0.0 ≤ r.output.throttle)
    (hstep : ∀ (t : Nat) (p r : Report), run[t]? = some p → run[t + 1]? = some r →
      p.output.state = .failsafeLanding → r.Descends config period p.output.throttle)
    {s t : Nat} {p r : Report} (hst : s ≤ t) (hp : run[s]? = some p) (hr : run[t]? = some r)
    (hland : ∀ (u : Nat) (q : Report), s ≤ u → u ≤ t → run[u]? = some q →
      q.output.state = .failsafeLanding) :
    r.output.throttle ≤ p.output.throttle := by
  induction t, hst using Nat.le_induction generalizing r with
  | base =>
    rw [hp, Option.some_inj] at hr
    have hn := (hnumber p (List.mem_of_getElem? hp)).1
    exact hr ▸ le_iff.mpr ⟨hn, hn, le_rfl⟩
  | succ t hst ih =>
    obtain ⟨hlt, -⟩ := List.getElem?_eq_some_iff.mp hr
    obtain ⟨q, hq⟩ : ∃ q, run[t]? = some q :=
      ⟨_, List.getElem?_eq_getElem (Nat.lt_of_succ_lt hlt)⟩
    have hqp : q.output.throttle ≤ p.output.throttle :=
      ih hq fun u q hs hu => hland u q hs (Nat.le_succ_of_le hu)
    have hrq : r.output.throttle ≤ q.output.throttle :=
      (hstep t q r hq hr (hland t q hst t.le_succ hq)).throttle_le
        (hland (t + 1) r (Nat.le_succ_of_le hst) le_rfl hr)
    obtain ⟨_, hpn, hv⟩ := le_iff.mp hqp
    obtain ⟨hrn, _, hv'⟩ := le_iff.mp hrq
    exact le_iff.mpr ⟨hrn, hpn, hv'.trans hv⟩

/-- Every run of an accepted configuration lands on a ramp, whatever its inputs are: the throttle of
a landing starts where it was, is a number, only falls, and the landing ends disarmed. -/
theorem ramp_of_check (config : ArmingConfig) (hconfig : config.check = .ok ()) (period : Scalar)
    (hfinite : period.isFinite = true) (hperiod : 0.0 < period) (calls : List Call) :
    Ramp config period (reports (new config period) calls) := by
  obtain ⟨htimeout, hrate, hidle⟩ := ArmingConfig.bounds_of_check hconfig
  have hzero : (0.0 : Scalar) ≤ 0.0 := by decide
  have hnew : Afloat config period (new config period) := ⟨rfl, rfl, rfl, hzero⟩
  have hmachine : ∀ r ∈ reports (new config period) calls,
      ∃ b, Afloat config period b ∧ r = b.report r.input := by
    intro r hr
    obtain ⟨t, ht⟩ := List.mem_iff_getElem?.mp hr
    obtain ⟨b, hb, hrb, -⟩ := exists_afloat hidle hnew calls ht
    exact ⟨b, hb, hrb⟩
  have hnumber : ∀ r ∈ reports (new config period) calls,
      r.output.throttle.isNaN = false ∧ 0.0 ≤ r.output.throttle := by
    intro r hr
    obtain ⟨b, hb, hrb⟩ := hmachine r hr
    have h0 : 0.0 ≤ r.output.throttle := by
      rw [hrb]
      exact (hb.tick hidle r.input).throttle
    exact ⟨(le_iff.mp h0).2.1, h0⟩
  have hstep : ∀ (t : Nat) (p r : Report), (reports (new config period) calls)[t]? = some p →
      (reports (new config period) calls)[t + 1]? = some r →
        p.output.state = .failsafeLanding → r.Descends config period p.output.throttle := by
    intro t p r hp hr hland
    obtain ⟨b, hb, hrb, hs, ht⟩ := exists_next hidle hnew calls hp hr
    have hdescends := hb.descends htimeout hrate hperiod hfinite (hs.trans hland) r.input
    rw [ht, ← hrb] at hdescends
    exact hdescends
  constructor
  · intro r hr hland
    obtain ⟨b, -, hrb, hleft⟩ := exists_afloat hidle hnew calls hr
    rw [List.getElem?_cons_zero, Option.some_inj] at hleft
    have hs : b.state = .disarmed := (Prod.mk.inj hleft).1.symm
    rw [hrb] at hland
    exact ne_landing_of_disarmed hs r.input hland
  · intro t p r hp hr hnot hland
    obtain ⟨b, -, hrb, hs, ht⟩ := exists_next hidle hnew calls hp hr
    rw [← ht, hrb]
    rw [hrb] at hland
    exact throttle_of_entering (by rw [hs]; exact hnot) hland
  · exact hstep
  · exact fun s t p r hst hp hr => throttle_falls hnumber hstep hst hp hr
  · exact hnumber
  · intro r hr hoff
    obtain ⟨b, -, hrb⟩ := hmachine r hr
    rw [hrb] at hoff ⊢
    exact throttle_of_disarmed hoff

/-- The link goes silent in flight. A decay that is no number adds nothing, and an infinite one leaves
nothing of the throttle. -/
def silence : List Call :=
  [.tick {}, .tick { armSwitch := true, throttle := 0.05 },
    .tick { linkFresh := false, throttle := 1.0 },
    .tick { linkFresh := false, landingDecay := nan },
    .tick { linkFresh := false, landingDecay := infinity }]

/-- The landing takes over the throttle, goes down from it, and is over when nothing is left. -/
theorem ramp_of_silence :
    ArmingConfig.check { linkTimeout := 1 } = .ok () ∧ Float32.isFinite 0.001 = true ∧
    (0.0 : Scalar) < 0.001 ∧
    ∃ p q r s, (reports (new { linkTimeout := 1 } 0.001) silence).drop 1 = [p, q, r, s] ∧
      q.output.throttle = p.output.throttle ∧ r.output.throttle ≤ q.output.throttle ∧
      s.DisarmsFor .landingComplete := by
  have hvalid : ArmingConfig.check { linkTimeout := 1 } = .ok () := rfl
  have hfinite : Float32.isFinite 0.001 = true := rfl
  have hperiod : (0.0 : Scalar) < 0.001 := by decide
  have hramp := ramp_of_check { linkTimeout := 1 } hvalid 0.001 hfinite hperiod silence
  have hseen : (reports (new { linkTimeout := 1 } 0.001) silence).map
      (fun r => (r.output.state, r.input.linkFresh)) = [(.disarmed, true), (.armed, true),
        (.failsafeLanding, false), (.failsafeLanding, false), (.disarmed, false)] := by
    decide +kernel
  obtain ⟨run, hrun⟩ : ∃ run, run = reports (new { linkTimeout := 1 } 0.001) silence := ⟨_, rfl⟩
  rw [← hrun] at hramp hseen ⊢
  obtain ⟨o, p, q, r, s, rfl⟩ : ∃ o p q r s, run = [o, p, q, r, s] := by
    rw [hrun]
    exact ⟨_, _, _, _, _, rfl⟩
  simp only [List.map_cons, List.map_nil, List.cons.injEq, Prod.mk.injEq, and_true] at hseen
  obtain ⟨-, ⟨hp, -⟩, ⟨hq, -⟩, ⟨hr, -⟩, hs, hsilent⟩ := hseen
  have hend := hramp.descends 3 r s rfl rfl hr
  have huser : ¬s.DisarmsFor .userCommand := fun h => by
    have hfresh := (hend.user.mp h).1
    rw [hsilent] at hfresh
    cases hfresh
  refine ⟨hvalid, hfinite, hperiod, p, q, r, s, rfl, ?_, ?_, ?_⟩
  · exact hramp.enters 1 p q rfl rfl (by rw [hp]; decide) hq
  · exact (hramp.descends 2 q r rfl rfl hq).throttle_le hr
  · rcases hend.ends with hland | huser' | hdone
    · rw [hs] at hland
      cases hland
    · exact absurd huser' huser
    · exact hdone

end Arming

end Quadrotor

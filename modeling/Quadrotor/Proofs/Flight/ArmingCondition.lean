import Mathlib
import Quadrotor.Proofs.Flight.ArmingStep
import Quadrotor.Proofs.Flight.Freshness
import Quadrotor.Proofs.Scalar.Order

/-!
# When the vehicle arms

The state machine keeps two counters and a latch; the condition for arming is stated here without
them, as a condition on the history of ticks. The link and the sensor have been heard within their
timeouts, nothing else blocks, and the arm switch has been seen off since the link came up and since
the vehicle was last disarmed.
-/

namespace Quadrotor.Arming

open Staleness

/-! ## Histories -/

/-- What can be done with the state machine. -/
inductive Call where
  /-- One more tick. -/
  | tick (input : ArmingInput)
  /-- The check of the sticks starts or ends. -/
  | stickCheck (active : Bool)

/-- A tick as an observer notes it. -/
structure Tick where
  input : ArmingInput
  /-- The sticks were being checked. -/
  checking : Bool
  start : ArmingState
  finish : ArmingState

/-- The ticks among a sequence of calls; `checking` is what the latest stick check call has left. -/
def log (a : Arming) (checking : Bool) : List Call → List Tick
  | [] => []
  | .tick input :: calls =>
    let (next, output, _) := a.update input
    ⟨input, checking, a.state, output.state⟩ :: log next checking calls
  | .stickCheck active :: calls => log { a with stickCheck := active } active calls

theorem log_tick (a : Arming) (checking : Bool) (input : ArmingInput) (calls : List Call) :
    log a checking (.tick input :: calls) =
      ⟨input, checking, a.state, (a.after input).state⟩ :: log (a.after input) checking calls := rfl

section History

variable (config : ArmingConfig) (ticks : List Tick)

/-- The link was fresh at tick `i`. -/
def linkFreshAt (i : Nat) : Bool := ticks[i]?.any fun r => r.input.linkFresh

/-- The sensor was fresh at tick `i`. -/
def sensorFreshAt (i : Nat) : Bool := ticks[i]?.any fun r => r.input.sensorFresh

/-- The link was not lost at tick `t`. -/
def LinkHeldAt (t : Nat) : Prop := FreshWithin config.linkTimeout (linkFreshAt ticks) t

/-- The sensor was not lost at tick `t`. -/
def SensorHeldAt (t : Nat) : Prop := FreshWithin config.sensorTimeout (sensorFreshAt ticks) t

/-- The link came up at tick `t`; ahead of the first tick it counts as lost. -/
def LinkUpAt (t : Nat) : Prop :=
  LinkHeldAt config ticks t ∧ ∀ s, t = s + 1 → ¬LinkHeldAt config ticks s

/-- The vehicle was disarmed at tick `t`. -/
def DisarmAt (t : Nat) : Prop :=
  ∃ r, ticks[t]? = some r ∧ r.start ≠ .disarmed ∧ r.finish = .disarmed

/-- The arm switch was seen off at tick `t`. -/
def ReleasedAt (t : Nat) : Prop :=
  LinkHeldAt config ticks t ∧ ∃ r, ticks[t]? = some r ∧ r.input.armSwitch = false

/-- Before tick `t` the arm switch was seen off, not before the link came up (at `t` at the latest)
nor before the vehicle was disarmed. -/
def SwitchFreeAt (t : Nat) : Prop :=
  ∃ s < t, ReleasedAt config ticks s ∧ (∀ u ≤ t, LinkUpAt config ticks u → u ≤ s) ∧
    ∀ d < t, DisarmAt ticks d → d ≤ s

/-- As `SwitchFreeAt`, but as things stand before tick `t` is known. -/
def SwitchFreeBefore (t : Nat) : Prop :=
  ∃ s < t, ReleasedAt config ticks s ∧ (∀ u < t, LinkUpAt config ticks u → u ≤ s) ∧
    ∀ d < t, DisarmAt ticks d → d ≤ s

variable {config ticks}

theorem releasedAt_iff {t : Nat} {r : Tick} (hr : ticks[t]? = some r) :
    ReleasedAt config ticks t ↔ LinkHeldAt config ticks t ∧ r.input.armSwitch = false := by
  simp [ReleasedAt, hr]

theorem disarmAt_iff {t : Nat} {r : Tick} (hr : ticks[t]? = some r) :
    DisarmAt ticks t ↔ r.start ≠ .disarmed ∧ r.finish = .disarmed := by
  simp [DisarmAt, hr]

theorem switchFreeAt_iff {t : Nat} :
    SwitchFreeAt config ticks t ↔ SwitchFreeBefore config ticks t ∧ ¬LinkUpAt config ticks t := by
  constructor
  · rintro ⟨s, hs, hrel, hup, hdis⟩
    refine ⟨⟨s, hs, hrel, fun u hu => hup u hu.le, hdis⟩, fun hc => ?_⟩
    have := hup t le_rfl hc
    omega
  · rintro ⟨⟨s, hs, hrel, hup, hdis⟩, hno⟩
    refine ⟨s, hs, hrel, fun u hu hlink => ?_, hdis⟩
    rcases Nat.lt_or_eq_of_le hu with hlt | rfl
    · exact hup u hlt hlink
    · exact absurd hlink hno

/-- One tick later, the latest release is that tick or an earlier one that still counts. -/
theorem switchFreeBefore_succ {t : Nat} :
    SwitchFreeBefore config ticks (t + 1) ↔ ReleasedAt config ticks t ∨
      (SwitchFreeBefore config ticks t ∧ ¬LinkUpAt config ticks t ∧ ¬DisarmAt ticks t) := by
  constructor
  · rintro ⟨s, hs, hrel, hup, hdis⟩
    rcases Nat.lt_succ_iff_lt_or_eq.mp hs with hlt | rfl
    · refine Or.inr ⟨⟨s, hlt, hrel, fun u hu => hup u (by omega), fun d hd => hdis d (by omega)⟩,
        fun hc => ?_, fun hc => ?_⟩
      · have := hup t (by omega) hc
        omega
      · have := hdis t (by omega) hc
        omega
    · exact Or.inl hrel
  · rintro (hrel | ⟨⟨s, hs, hrel, hup, hdis⟩, hnoup, hnodis⟩)
    · exact ⟨t, by omega, hrel, fun u hu _ => by omega, fun d hd _ => by omega⟩
    · refine ⟨s, by omega, hrel, fun u hu hc => ?_, fun d hd hc => ?_⟩
      · rcases Nat.lt_succ_iff_lt_or_eq.mp hu with hlt | rfl
        · exact hup u hlt hc
        · exact absurd hc hnoup
      · rcases Nat.lt_succ_iff_lt_or_eq.mp hd with hlt | rfl
        · exact hdis d hlt hc
        · exact absurd hc hnodis

/-! ## What the state machine knows of the history -/

variable (config ticks) in
/-- After the first `t` ticks the counters tell the freshness windows, and while the vehicle is
disarmed and the link is held, the latch tells whether the switch has been seen off. -/
structure Tracks (a : Arming) (checking : Bool) (t : Nat) : Prop where
  config_eq : a.config = config
  checking_eq : a.stickCheck = checking
  link_timeout : a.link.timeout = config.linkTimeout
  link : a.link.Counts (linkFreshAt ticks) t
  sensor_timeout : a.sensor.timeout = config.sensorTimeout
  sensor : a.sensor.Counts (sensorFreshAt ticks) t
  wasLost : a.linkWasLost = a.link.lost
  latch : a.state = .disarmed → a.link.lost = false →
    (a.switchLatched = false ↔ SwitchFreeBefore config ticks t)

theorem tracks_new (period : Scalar) : Tracks config ticks (new config period) false 0 where
  config_eq := rfl
  checking_eq := rfl
  link_timeout := rfl
  link := counts_new _ _
  sensor_timeout := rfl
  sensor := counts_new _ _
  wasLost := (decide_eq_true (UInt32.le_refl config.linkTimeout)).symm
  latch _ hheld := absurd (decide_eq_true (UInt32.le_refl config.linkTimeout))
    (Bool.eq_false_iff.mp hheld)

variable {a : Arming} {checking : Bool} {t : Nat} {input : ArmingInput}

theorem Tracks.after_link_counts (h : Tracks config ticks a checking t)
    (hfresh : linkFreshAt ticks t = input.linkFresh) :
    (a.after input).link.Counts (linkFreshAt ticks) (t + 1) := by
  rw [after_link, ← hfresh]
  exact h.link.update

theorem Tracks.after_sensor_counts (h : Tracks config ticks a checking t)
    (hfresh : sensorFreshAt ticks t = input.sensorFresh) :
    (a.after input).sensor.Counts (sensorFreshAt ticks) (t + 1) := by
  rw [after_sensor, ← hfresh]
  exact h.sensor.update

theorem Tracks.after_link_lost (h : Tracks config ticks a checking t)
    (hfresh : linkFreshAt ticks t = input.linkFresh) :
    (a.after input).link.lost = true ↔ ¬LinkHeldAt config ticks t := by
  rw [after_link, ← hfresh]
  exact h.link.lost_update_iff h.link_timeout

theorem Tracks.after_sensor_lost (h : Tracks config ticks a checking t)
    (hfresh : sensorFreshAt ticks t = input.sensorFresh) :
    (a.after input).sensor.lost = true ↔ ¬SensorHeldAt config ticks t := by
  rw [after_sensor, ← hfresh]
  exact h.sensor.lost_update_iff h.sensor_timeout

/-- The link comes up in the tick that finds it lost and leaves it held. -/
theorem Tracks.linkUpAt_iff (h : Tracks config ticks a checking t) :
    LinkUpAt config ticks t ↔ LinkHeldAt config ticks t ∧ a.link.lost = true := by
  refine and_congr_right fun _ => ?_
  rw [h.link.lost_iff, h.link_timeout]
  constructor
  · intro hprev
    cases t with
    | zero => exact fun i hi => absurd hi (Nat.not_lt_zero i)
    | succ s => exact (not_freshWithin_iff _ _ s).mp (hprev s rfl)
  · rintro hs s rfl
    exact (not_freshWithin_iff _ _ s).mpr hs

/-- The latch after a tick that leaves the vehicle disarmed and the link held. -/
theorem Tracks.after_latch (h : Tracks config ticks a checking t)
    (hr : ticks[t]? = some ⟨input, checking, a.state, (a.after input).state⟩)
    (hstate : (a.after input).state = .disarmed) (hheld : (a.after input).link.lost = false) :
    (a.after input).switchLatched = false ↔ SwitchFreeBefore config ticks (t + 1) := by
  have hfresh : linkFreshAt ticks t = input.linkFresh := by rw [linkFreshAt, hr]; rfl
  have hlink : LinkHeldAt config ticks t := by
    by_contra hc
    rw [(h.after_link_lost hfresh).mpr hc] at hheld
    cases hheld
  have hrel : ReleasedAt config ticks t ↔ input.armSwitch = false :=
    (releasedAt_iff hr).trans (and_iff_right hlink)
  have hdis : DisarmAt ticks t ↔ a.state ≠ .disarmed :=
    (disarmAt_iff hr).trans (and_iff_left hstate)
  have hobserved := observe_switchLatched a input
  have hswitch := observe_effectiveSwitch a input
  rw [hheld, Bool.not_false, Bool.and_true, Bool.or_false] at hobserved
  rw [hheld, Bool.not_false, Bool.and_true] at hswitch
  rw [switchFreeBefore_succ, hrel, hdis]
  cases hs : a.state with
  | disarmed =>
    -- The only case in which the latch of the tick before counts.
    rw [(after_of_disarmed hs input).1, hobserved, h.wasLost, h.linkUpAt_iff, and_iff_right hlink]
    cases hsw : input.armSwitch with
    | false => simp
    | true =>
      cases hlost : a.link.lost with
      | true => simp
      | false => simpa using h.latch hs hlost
  | armed =>
    -- Disarmed by the pilot, so the switch is off in this very tick.
    have hafter := (after_of_armed hs input).2
    rw [hstate] at hafter
    have hoff : input.armSwitch = false := by
      rw [← hswitch]
      cases hcase : (a.observe input).effectiveSwitch input with
      | false => rfl
      | true =>
        rw [hcase, if_pos rfl] at hafter
        split_ifs at hafter
    rw [(after_of_armed hs input).1, hobserved, hoff]
    simp
  | failsafeLanding =>
    rcases after_of_landing hs input with ⟨_, hoff, _, hlatch⟩ | ⟨_, hlatch⟩ | hs'
    · rw [hswitch] at hoff
      rw [hlatch, hobserved, hoff]
      simp
    · rw [hlatch, hheld, hswitch]
      simp
    · rw [hstate] at hs'
      cases hs'

/-- A tick keeps up with the history. -/
theorem Tracks.tick (h : Tracks config ticks a checking t)
    (hr : ticks[t]? = some ⟨input, checking, a.state, (a.after input).state⟩) :
    Tracks config ticks (a.after input) checking (t + 1) where
  config_eq := by rw [after_config, h.config_eq]
  checking_eq := by rw [after_stickCheck, h.checking_eq]
  link_timeout := by rw [after_link]; exact h.link_timeout
  link := h.after_link_counts (by rw [linkFreshAt, hr]; rfl)
  sensor_timeout := by rw [after_sensor]; exact h.sensor_timeout
  sensor := h.after_sensor_counts (by rw [sensorFreshAt, hr]; rfl)
  wasLost := after_linkWasLost a input
  latch := h.after_latch hr

theorem Tracks.stickCheck (h : Tracks config ticks a checking t) (active : Bool) :
    Tracks config ticks { a with stickCheck := active } active t where
  config_eq := h.config_eq
  checking_eq := rfl
  link_timeout := h.link_timeout
  link := h.link
  sensor_timeout := h.sensor_timeout
  sensor := h.sensor
  wasLost := h.wasLost
  latch := h.latch

/-- Every tick of a log is a tick of a machine that keeps up with the history until then. -/
theorem exists_tracks {calls : List Call} (h : Tracks config ticks a checking t)
    (hcalls : ticks.drop t = log a checking calls) {n : Nat} {r : Tick} (hn : t ≤ n)
    (hr : ticks[n]? = some r) :
    ∃ b, Tracks config ticks b r.checking n ∧ r.start = b.state ∧
      r.finish = (b.after r.input).state := by
  -- Along the calls; only a tick moves the position in the log on.
  induction calls generalizing a checking t with
  | nil =>
    have hlen : ticks.length ≤ t := List.drop_eq_nil_iff.mp hcalls
    rw [List.getElem?_eq_none (hlen.trans hn)] at hr
    cases hr
  | cons call calls ih =>
    cases call with
    | stickCheck active => exact ih (h.stickCheck active) hcalls hn
    | tick input =>
      have hnow : ticks[t]? = some ⟨input, checking, a.state, (a.after input).state⟩ := by
        have h0 : (ticks.drop t)[0]? = _ := congrArg (fun l => l[0]?) hcalls
        rw [List.getElem?_drop, add_zero, log_tick] at h0
        exact h0
      have hrest : ticks.drop (t + 1) = log (a.after input) checking calls := by
        rw [← List.tail_drop, hcalls]
        rfl
      rcases Nat.eq_or_lt_of_le hn with rfl | hlt
      · rw [hnow, Option.some_inj] at hr
        subst hr
        exact ⟨a, h, rfl, rfl⟩
      · exact ih (h.tick hnow) hrest hlt

/-! ## Arming -/

variable (config ticks) in
/-- Everything that tick `t` needs so as to arm. -/
structure MayArm (r : Tick) (t : Nat) : Prop where
  switch_on : r.input.armSwitch = true
  link_held : LinkHeldAt config ticks t
  sensor_held : SensorHeldAt config ticks t
  throttle_low : Scalar.limitOrZero 0.0 1.0 r.input.throttle < config.safeThrottle
  battery_ok : r.input.startupLow = false
  not_checking : r.checking = false
  switch_free : SwitchFreeAt config ticks t

/-- With the switch on and the link held, the latch is open exactly where the history says so. -/
theorem Tracks.observe_latch (h : Tracks config ticks a checking t) (hs : a.state = .disarmed)
    (hlink : LinkHeldAt config ticks t) (hheld : (a.after input).link.lost = false)
    (hon : input.armSwitch = true) :
    (a.observe input).switchLatched = false ↔ SwitchFreeAt config ticks t := by
  rw [switchFreeAt_iff, h.linkUpAt_iff, and_iff_right hlink, observe_switchLatched, hheld, hon,
    h.wasLost]
  cases hlost : a.link.lost with
  | true => simp
  | false => simpa using h.latch hs hlost

/-- A tick of a machine that keeps up with the history arms exactly as the history allows. -/
theorem Tracks.armed_iff (h : Tracks config ticks a checking t) (hs : a.state = .disarmed)
    (hr : ticks[t]? = some ⟨input, checking, a.state, (a.after input).state⟩) :
    (a.after input).state = .armed ↔
      MayArm config ticks ⟨input, checking, a.state, (a.after input).state⟩ t := by
  have hlost : (a.after input).link.lost = true ↔ ¬LinkHeldAt config ticks t :=
    h.after_link_lost (by rw [linkFreshAt, hr]; rfl)
  have hslost : (a.after input).sensor.lost = true ↔ ¬SensorHeldAt config ticks t :=
    h.after_sensor_lost (by rw [sensorFreshAt, hr]; rfl)
  have hlink : (a.observe input).link = (a.after input).link := (after_link a input).symm
  have hsensor : (a.observe input).sensor = (a.after input).sensor := (after_sensor a input).symm
  have hconfig : (a.observe input).config = config := h.config_eq
  have hchecking : (a.observe input).stickCheck = checking := h.checking_eq
  have hcond : (a.after input).state = .armed ↔
      (a.observe input).effectiveSwitch input = true ∧ ((a.observe input).blockers
        (Scalar.limitOrZero 0.0 1.0 input.throttle) input.startupLow).isEmpty = true := by
    rw [(after_of_disarmed hs input).2, ← Bool.and_eq_true]
    split_ifs with hc
    · exact iff_of_true rfl hc
    · exact iff_of_false (by simp) hc
  rw [hcond, blockers_isEmpty_iff, observe_effectiveSwitch, hlink, hsensor, hconfig, hchecking]
  constructor
  · rintro ⟨hsw, hsens, hthr, hheld, hbat, hchk, hlatch⟩
    rw [hheld, Bool.not_false, Bool.and_true] at hsw
    have hlink' : LinkHeldAt config ticks t := by
      by_contra hc
      rw [hlost.mpr hc] at hheld
      cases hheld
    have hsens' : SensorHeldAt config ticks t := by
      by_contra hc
      rw [hslost.mpr hc] at hsens
      cases hsens
    exact ⟨hsw, hlink', hsens', hthr, hbat, hchk, (h.observe_latch hs hlink' hheld hsw).mp hlatch⟩
  · rintro ⟨hsw, hlink', hsens', hthr, hbat, hchk, hfree⟩
    have hheld : (a.after input).link.lost = false :=
      Bool.eq_false_iff.mpr fun hc => hlost.mp hc hlink'
    have hsens : (a.after input).sensor.lost = false :=
      Bool.eq_false_iff.mpr fun hc => hslost.mp hc hsens'
    refine ⟨?_, hsens, hthr, hheld, hbat, hchk, (h.observe_latch hs hlink' hheld hsw).mpr hfree⟩
    rw [hheld, Bool.not_false, Bool.and_true]
    exact hsw

end History

/-- A tick that starts disarmed arms if and only if the history of ticks allows it, and a tick that
starts in a landing never does; whatever has been done with the state machine before, and for any
tick period. -/
theorem finish_armed_iff (config : ArmingConfig) (period : Scalar) (calls : List Call) {t : Nat}
    {r : Tick} (hr : (log (new config period) false calls)[t]? = some r) :
    (r.start = .disarmed →
      (r.finish = .armed ↔ MayArm config (log (new config period) false calls) r t)) ∧
    (r.start = .failsafeLanding → r.finish ≠ .armed) := by
  obtain ⟨b, hb, hstart, hfinish⟩ := exists_tracks (tracks_new period) rfl (Nat.zero_le t) hr
  obtain ⟨input, checking, start, finish⟩ := r
  change start = b.state at hstart
  change finish = (b.after input).state at hfinish
  subst hstart hfinish
  exact ⟨fun hs => hb.armed_iff hs hr, fun hs => after_ne_armed_of_landing hs input⟩

/-- The switch off in one tick and on in the next one arms; then the link goes silent, and it does
not arm again when it is back. -/
theorem finish_armed_of_released :
    MayArm { linkTimeout := 1 } (log (new { linkTimeout := 1 } 0.001) false
        [.tick {}, .tick { armSwitch := true, throttle := 0.05 }])
      ⟨{ armSwitch := true, throttle := 0.05 }, false, .disarmed, .armed⟩ 1 ∧
    (log (new { linkTimeout := 1 } 0.001) false
      [.tick {}, .tick { armSwitch := true, throttle := 0.05 }, .tick { linkFresh := false },
        .tick { armSwitch := true }])[3]? =
      some ⟨{ armSwitch := true }, false, .failsafeLanding, .failsafeLanding⟩ ∧
    ArmingState.failsafeLanding ≠ .armed := by
  refine ⟨((finish_armed_iff _ 0.001 _ rfl).1 rfl).mp rfl, rfl, ?_⟩
  exact (finish_armed_iff { linkTimeout := 1 } 0.001
    [.tick {}, .tick { armSwitch := true, throttle := 0.05 }, .tick { linkFresh := false },
      .tick { armSwitch := true }] (t := 3)
    (r := ⟨{ armSwitch := true }, false, .failsafeLanding, .failsafeLanding⟩) rfl).2 rfl

end Quadrotor.Arming

import Mathlib
import Quadrotor.Proofs.Control.Limits
import Quadrotor.Proofs.Control.MixerBounds
import Quadrotor.Proofs.Flight.Tick

/-!
# Runs of the flight core

A tick is aborted if a value is to be limited to a range whose bounds are not ordered numbers, or if
the gestures are to be looked at every zero ticks. The bounds and the divider come from the
configuration and are the same in every tick; a configuration that passes its check gives usable
ones, so no tick of any run is aborted. A range that does not come from the configuration is confined
to without a look at its bounds, by what is known of them.
-/

namespace Quadrotor

open Scalar

/-! ## The parts that can be aborted -/

theorem AttitudeConfig.maxStep_pos {c : AttitudeConfig} (h : c.check = .ok ()) :
    0.0 < c.maxStep := by
  simp only [AttitudeConfig.check, check_bind_eq_ok, require_eq_ok, Bool.and_eq_true,
    decide_eq_true_iff] at h
  exact h.1.2

theorem Attitude.update_ok {a : Attitude} (h : 0.0 ≤ a.config.maxStep) (rates : Triple Scalar)
    (acc : Option Vec3) (dt : Scalar) (leveling : Bool) :
    ∃ r, a.update rates acc dt leveling = .ok r := by
  refine exists_bind_ok ?_ fun s => ⟨_, rfl⟩
  unfold step
  split_ifs
  · exact ⟨_, clamp_eq_ok h dt⟩
  · exact ⟨_, rfl⟩

theorem Gestures.update_ok {g : Gestures} (h : g.config.divider ≠ 0) (channels : Channels)
    (live : Bool) : ∃ r, g.update channels live = .ok r := by
  have hdiv : ¬g.advance.config.divider = 0 := h
  unfold update
  simp only [if_neg hdiv]
  split_ifs <;> exact ⟨_, rfl⟩

namespace FlightCore

/-- No part of the core can be aborted. -/
structure Sound (c : FlightCore) : Prop where
  attitude : 0.0 ≤ c.attitude.config.maxStep
  setpoints : c.setpoints.Ready
  controller : c.controller.Ready
  mixer : c.mixer.Bounded
  divider : c.gestures.config.divider ≠ 0

/-! ## The stages of a sound core -/

theorem Sound.prepared {c : FlightCore} (h : c.Sound) (input : TickInputs) :
    (c.prepared input).Sound := by
  obtain ⟨controller, inverted, applied, heq, hcontroller⟩ :=
    applyParams_frame (c.received input) (profileOf (c.switchesIn input))
  rw [FlightCore.prepared, heq, received_eq]
  rw [received_eq] at hcontroller
  refine ⟨h.attitude, h.setpoints, ?_, ⟨h.mixer.accepted, h.mixer.signs, h.mixer.carry⟩, h.divider⟩
  rcases hcontroller with rfl | ⟨gains, rfl⟩
  · exact h.controller
  · exact h.controller.withGains gains

theorem Sound.sense {c : FlightCore} (h : c.Sound) (sample : Option MotionSample)
    (leveling : Bool) : ∃ d, c.sense sample leveling = .ok d ∧ d.Sound := by
  have hok : ∃ d, c.sense sample leveling = .ok d := by
    cases sample with
    | none => exact ⟨c, rfl⟩
    | some sample =>
      have hacc : ∀ (c : FlightCore) (dt : Scalar) (acc : Option (Triple Scalar)),
          (c.conditionAcc dt acc).1.attitude = c.attitude := by
        intro c dt acc
        obtain ⟨conditioner, hcond⟩ := conditionAcc_frame c dt acc
        rw [hcond]
      unfold FlightCore.sense
      simp only
      refine exists_bind_ok (Attitude.update_ok ?_ _ _ _ _) fun r => ⟨_, rfl⟩
      rw [hacc]
      exact h.attitude
  obtain ⟨d, hd⟩ := hok
  obtain ⟨conditioner, attitude, gyro, estimate, lastSample, rfl, hconfig⟩ := sense_frame hd
  exact ⟨_, hd, by rw [hconfig]; exact h.attitude, h.setpoints, h.controller, h.mixer, h.divider⟩

theorem Sound.decided {sensed : FlightCore} (h : sensed.Sound) (c : FlightCore)
    (input : TickInputs) : (c.decided sensed input).1.Sound := by
  obtain ⟨battery, hbattery⟩ := monitor_frame sensed input.voltage
  obtain ⟨controller, setpoints, heq, hcontroller, hsetpoints⟩ :=
    decide_frame (sensed.monitored input).1 (c.armingInputIn sensed input)
  rw [FlightCore.decided, heq]
  rw [monitored, hbattery] at hcontroller hsetpoints ⊢
  refine ⟨h.attitude, ?_, ?_, h.mixer, h.divider⟩
  · rcases hsetpoints with rfl | rfl
    · exact h.setpoints
    · exact h.setpoints.reset
  · rcases hcontroller with rfl | rfl
    · exact h.controller
    · exact h.controller.reset

theorem Sound.listenIn {c : FlightCore} (h : c.Sound) (state : ArmingState) :
    ∃ r, c.listenIn state = .ok r ∧ r.1.Sound := by
  have hok : ∃ r, c.listenIn state = .ok r := by
    cases state with
    | disarmed =>
      obtain ⟨travel, htravel⟩ := checkTravel_frame c
      change ∃ r, c.listen = .ok r
      unfold FlightCore.listen
      simp only [htravel]
      refine exists_bind_ok (Gestures.update_ok h.divider _ _) fun r => ?_
      cases r.2 <;> exact ⟨_, rfl⟩
    | armed | failsafeLanding => exact ⟨_, rfl⟩
  obtain ⟨r, hr⟩ := hok
  obtain ⟨stickCheck, travel, gestures, table, savePending, heq, hconfig⟩ := listenIn_frame hr
  refine ⟨r, hr, ?_⟩
  rw [heq]
  exact ⟨h.attitude, h.setpoints, h.controller, h.mixer, by rw [hconfig]; exact h.divider⟩

theorem Sound.command {c : FlightCore} (h : c.Sound) (switches : Switches Bool)
    (decision : ArmingOutput) : ∃ r, c.command switches decision = .ok r ∧ r.1.Sound := by
  unfold FlightCore.command
  split_ifs
  · obtain ⟨s, rates, hs, hready⟩ := Setpoints.update_ok h.setpoints
      { sticks := c.flownSticks decision.state
        mode := switches.mode
        attitude := c.estimate.attitude
        trims := c.table.params.trims
        highRates := switches.highRates }
    have hprepared : (c.controller.prepare c.battery.state.outputScale decision.onGround).Ready :=
      h.controller
    obtain ⟨r, commands, hr, hready'⟩ :=
      RateController.update_ok hprepared switches.mode rates c.gyro
    exact ⟨_, bind_eq_ok.mpr ⟨_, hs, bind_eq_ok.mpr ⟨_, hr, rfl⟩⟩, h.attitude, hready, hready',
      h.mixer, h.divider⟩
  · exact ⟨_, rfl, h⟩

/-! ## Ticks -/

/-- A tick of a sound core succeeds and leaves it sound, with duties in the range of the motors. -/
theorem Sound.tick {c : FlightCore} (h : c.Sound) (input : TickInputs) :
    ∃ next out, c.tick input = .ok (next, out) ∧ next.Sound ∧
      next.mixer.config = c.mixer.config ∧
      Mixer.InRange c.mixer.config out.state out.motors := by
  obtain ⟨sensed, hsense, hsensed⟩ := (h.prepared input).sense input.usableSample
    (c.switchesIn input).mode.isLeveling
  obtain ⟨listened, hlisten, hlistened⟩ :=
    (hsensed.decided c input).listenIn (c.decided sensed input).2.1.state
  obtain ⟨commanded, hcommand, hcommanded⟩ :=
    hlistened.command (c.switchesIn input) (c.decided sensed input).2.1
  obtain ⟨mixer, motors, hmix, hbounded, hconfig, hrange⟩ := Mixer.mix_ok hcommanded.mixer
    commanded.2 (c.decided sensed input).2.1.throttle (c.decided sensed input).2.1.state
  have hstages : Stages c input sensed listened commanded (mixer, motors) :=
    ⟨hsense, hlisten, hcommand, hmix⟩
  refine ⟨_, _, tick_eq_ok.mpr ⟨sensed, listened, commanded, (mixer, motors), hstages, rfl, rfl⟩,
    ?_, ?_, ?_⟩
  · exact ⟨hcommanded.attitude, hcommanded.setpoints, hcommanded.controller, hbounded,
      hcommanded.divider⟩
  · rw [← hstages.mixer_config]
    exact hconfig
  · rw [← hstages.mixer_config]
    exact hrange

/-- The same of a tick that is known to have succeeded. -/
theorem Sound.of_tick {c next : FlightCore} {input : TickInputs} {out : TickOutput} (h : c.Sound)
    (htick : c.tick input = .ok (next, out)) : next.Sound ∧ next.mixer.config = c.mixer.config ∧
      Mixer.InRange c.mixer.config out.state out.motors := by
  obtain ⟨next', out', htick', hrest⟩ := h.tick input
  rw [htick] at htick'
  obtain ⟨rfl, rfl⟩ := Prod.mk.inj (Except.ok.inj htick')
  exact hrest

/-! ## Runs -/

/-- A tick of a run. -/
structure RunTick where
  before : FlightCore
  input : TickInputs
  after : FlightCore
  output : TickOutput

/-- The ticks of a run. -/
def run (c : FlightCore) : List TickInputs → Checked (List RunTick)
  | [] => .ok []
  | input :: inputs => do
    let (next, out) ← c.tick input
    let ticks ← run next inputs
    return ⟨c, input, next, out⟩ :: ticks

theorem run_cons_eq_ok {c : FlightCore} {input : TickInputs} {inputs : List TickInputs}
    {ticks : List RunTick} : run c (input :: inputs) = .ok ticks ↔
      ∃ next out rest, c.tick input = .ok (next, out) ∧ run next inputs = .ok rest ∧
        ticks = ⟨c, input, next, out⟩ :: rest := by
  simp only [run, bind_eq_ok]
  constructor
  · rintro ⟨⟨next, out⟩, htick, rest, hrest, heq⟩
    exact ⟨next, out, rest, htick, hrest, (Except.ok.inj heq).symm⟩
  · rintro ⟨next, out, rest, htick, hrest, rfl⟩
    exact ⟨(next, out), htick, rest, hrest, rfl⟩

/-- No run of a sound core is aborted. -/
theorem Sound.run {c : FlightCore} (h : c.Sound) (inputs : List TickInputs) :
    ∃ ticks, c.run inputs = .ok ticks := by
  induction inputs generalizing c with
  | nil => exact ⟨[], rfl⟩
  | cons input inputs ih =>
    obtain ⟨next, out, htick, hnext, -⟩ := h.tick input
    obtain ⟨rest, hrest⟩ := ih hnext
    exact ⟨_, run_cons_eq_ok.mpr ⟨next, out, rest, htick, hrest, rfl⟩⟩

/-- What holds of the core ahead of the first tick, and is kept by each tick of a run, holds ahead of
every tick; `ticks` is the whole run, so the property may look at what has happened so far. -/
theorem run_invariant {ticks : List RunTick} (P : Nat → FlightCore → Prop)
    (hstep : ∀ t r, ticks[t]? = some r → P t r.before →
      r.before.tick r.input = .ok (r.after, r.output) → P (t + 1) r.after)
    {c : FlightCore} {inputs : List TickInputs} {n : Nat} (hc : P n c)
    (hrun : c.run inputs = .ok (ticks.drop n)) {t : Nat} {r : RunTick} (hn : n ≤ t)
    (hr : ticks[t]? = some r) :
    P t r.before ∧ r.before.tick r.input = .ok (r.after, r.output) := by
  -- Along the inputs, with the position in the whole run moving on.
  induction inputs generalizing c n with
  | nil =>
    have hnil : ticks.drop n = [] := (Except.ok.inj hrun).symm
    rw [List.getElem?_eq_none ((List.drop_eq_nil_iff.mp hnil).trans hn)] at hr
    cases hr
  | cons input inputs ih =>
    obtain ⟨next, out, rest, htick, hrest, heq⟩ := run_cons_eq_ok.mp hrun
    have hnow : ticks[n]? = some ⟨c, input, next, out⟩ := by
      have h0 : (ticks.drop n)[0]? = _ := congrArg (fun l => l[0]?) heq
      rw [List.getElem?_drop, add_zero] at h0
      exact h0
    rcases Nat.eq_or_lt_of_le hn with rfl | hlt
    · rw [hnow, Option.some_inj] at hr
      subst hr
      exact ⟨hc, htick⟩
    · have hdrop : ticks.drop (n + 1) = rest := by
        rw [← List.tail_drop, heq]
        rfl
      exact ih (hstep n _ hnow hc htick) (by rw [hdrop]; exact hrest) hlt

/-! ## From the check of the configuration -/

theorem validate_eq_ok {config : FlightConfig} : config.validate = .ok () ↔
    (FlightConfig.minLoopPeriod ≤ config.loopPeriod ∧
      config.loopPeriod ≤ FlightConfig.maxLoopPeriod) ∧
    config.filters.resolve.check = .ok () ∧ config.rates.check = .ok () ∧
    config.switches.check = .ok () ∧ config.level.check = .ok () ∧
    config.controllers.check = .ok () ∧ config.battery.check = .ok () ∧
    config.arming.check = .ok () ∧ config.gesture.check = .ok () ∧
    config.attitude.check = .ok () ∧ config.mixer.check = .ok () := by
  simp only [FlightConfig.validate, check_bind_eq_ok, require_eq_ok, Bool.and_eq_true,
    decide_eq_true_iff]

theorem new_eq_ok {config : FlightConfig} {params : TuningParams} {core : FlightCore} :
    new config params = .ok core ↔ config.validate = .ok () ∧ core = build config params := by
  simp only [new, bind_eq_ok]
  constructor
  · rintro ⟨⟨⟩, hv, hcore⟩
    exact ⟨hv, (Except.ok.inj hcore).symm⟩
  · rintro ⟨hv, rfl⟩
    exact ⟨(), hv, rfl⟩

theorem sound_build {config : FlightConfig} (h : config.validate = .ok ())
    (params : TuningParams) : (build config params).Sound := by
  obtain ⟨-, -, -, -, hlevel, hcontrollers, -, -, hgesture, hattitude, hmixer⟩ :=
    validate_eq_ok.mp h
  simp only [GestureConfig.check, check_bind_eq_ok, require_eq_ok, bne_iff_ne] at hgesture
  exact ⟨le_of_lt (AttitudeConfig.maxStep_pos hattitude), Setpoints.ready_new hlevel _ _,
    RateController.ready_new hcontrollers _ _ _, Mixer.bounded_new hmixer _, hgesture.1⟩

/-- A validated configuration gives a core, whatever the parameters or the contents of the store, and
no run of it is ever aborted. What is confined to a range without a look at its bounds is what a
limitation that looks at them would answer. -/
theorem run_ok_of_validate (config : FlightConfig) (h : config.validate = .ok ()) :
    (∀ params, ∃ core, new config params = .ok core ∧
      ∀ inputs : List TickInputs, ∃ ticks, core.run inputs = .ok ticks) ∧
    (∀ (σ : Type) [ParamStore σ] (store : σ), ∃ core, (boot config store).1 = .ok core ∧
      ∀ inputs : List TickInputs, ∃ ticks, core.run inputs = .ok ticks) ∧
    ∀ (lo hi : Scalar) [IsRange lo hi] (x : Scalar), clamp lo hi x = .ok (confine lo hi x) := by
  have hnew : ∀ params, new config params = .ok (build config params) :=
    fun params => new_eq_ok.mpr ⟨h, rfl⟩
  refine ⟨fun params => ⟨_, hnew params, (sound_build h params).run⟩, fun σ _ store => ?_, ?_⟩
  · have hboot : (boot config store).1 = .ok
        { build config (initialParams (ParamStore.load store).1).1 with
          loadFailed := (initialParams (ParamStore.load store).1).2 } := by
      simp only [boot, hnew]
      rfl
    have hsound := sound_build h (initialParams (ParamStore.load store).1).1
    exact ⟨_, hboot, Sound.run ⟨hsound.attitude, hsound.setpoints, hsound.controller, hsound.mixer,
      hsound.divider⟩⟩
  · intro lo hi _ x
    exact clamp_eq_ok IsRange.ordered x

/-- The default configuration is validated, so a core with parameters and readings that are not
numbers flies on. -/
theorem run_ok_of_validate_default :
    FlightConfig.validate {} = .ok () ∧
    ∃ core, new {} { trims := .fill nan } = .ok core ∧
      ∃ ticks, core.run [{ voltage := some nan }, { voltage := some infinity }] = .ok ticks := by
  have hvalid : FlightConfig.validate {} = .ok () := rfl
  obtain ⟨core, hcore, hrun⟩ := (run_ok_of_validate {} hvalid).1 { trims := .fill nan }
  exact ⟨hvalid, core, hcore, hrun _⟩

end FlightCore

end Quadrotor

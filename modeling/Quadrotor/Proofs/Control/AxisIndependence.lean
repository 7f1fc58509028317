import Mathlib
import Quadrotor.Proofs.Control.LevelingMemory

/-!
# Axes that do not see one another

An axis flown by rate has the setpoint that its stick asks for, whatever has happened before and
whatever the other axes do. An axis flown by angle has the setpoint of its own angle controller,
which is told the stick, the trim and the attitude of that axis at the ticks that level it, and
nothing else: neither another axis nor a stick rate has a part in it.

Ticks are aborted only if the limit of the leveled rates is no number, and then by the first tick
that levels an axis.
-/

namespace Quadrotor

open Scalar

/-- The axis of the body that a tilt is about. -/
def TiltAxis.axis : TiltAxis → Axis
  | .roll => .roll
  | .pitch => .pitch

/-- What the angle controller of an axis is told. -/
structure LevelReading where
  stick : Scalar
  trim : Scalar
  attitude : Scalar

namespace SetpointInput

/-- The tick flies the axis by rate alone. -/
def ByRate (input : SetpointInput) : Axis → Prop
  | .roll => input.attitude = none ∨ input.mode = .acro
  | .pitch => input.attitude = none ∨ input.mode = .acro ∨ input.mode = .race ∨
      input.mode = .raceHorizon
  | .yaw => True

/-- What the angle controller of an axis is told by the tick, if the axis is leveled or blended. -/
def reading (input : SetpointInput) (a : TiltAxis) : Option LevelReading :=
  match input.attitude with
  | none => none
  | some attitude =>
    if input.mode.axisModes.get a = .rate then none
    else some ⟨input.sticks.get a.axis, input.trims.get a, attitude.get a⟩

theorem byRate_iff {input : SetpointInput} {a : TiltAxis} : input.ByRate a.axis ↔
    input.attitude = none ∨ input.mode.axisModes.get a = .rate := by
  unfold ByRate
  cases a <;> cases input.mode <;> simp [TiltAxis.axis, FlightMode.axisModes, Tilt.get]

theorem reading_eq_none_iff (input : SetpointInput) (a : TiltAxis) :
    input.reading a = none ↔ input.ByRate a.axis := by
  rw [byRate_iff, reading]
  cases input.attitude with
  | none => simp
  | some attitude => simp

theorem reading_of_none {input : SetpointInput} (h : input.attitude = none) (a : TiltAxis) :
    input.reading a = none := by
  rw [reading, h]

theorem reading_of_some {input : SetpointInput} {attitude : Tilt Scalar}
    (h : input.attitude = some attitude) (a : TiltAxis) :
    input.reading a = if input.mode.axisModes.get a = .rate then none
      else some ⟨input.sticks.get a.axis, input.trims.get a, attitude.get a⟩ := by
  rw [reading, h]

end SetpointInput

namespace AnglePid

/-- How far an axis is from the angle that is asked for. -/
def error (c : LevelConfig) (r : LevelReading) : Scalar :=
  Setpoints.angleError c r.stick r.trim r.attitude

/-- The controller after a tick that levels its axis, or does not. -/
def follow (c : LevelConfig) (pid : AnglePid) : Option LevelReading → AnglePid
  | none => pid.reset
  | some r => pid.stepped (error c r)

/-- The setpoint of an axis that is all there is, after a history of ticks that leveled it or did
not. -/
def alone (c : LevelConfig) (period : Scalar) (history : List (Option LevelReading))
    (now : LevelReading) : Checked Scalar := do
  let pid := history.foldl (follow c) (new c.anglePid period (some (c.maxRate * degree)))
  let (_, x) ← pid.update (error c now)
  return x

theorem update_eq_ok {p q : AnglePid} {e x : Scalar} :
    p.update e = .ok (q, x) ↔ q = p.stepped e ∧ p.limited (p.demand e) = .ok x := by
  rw [update_eq, bind_eq_ok]
  constructor
  · rintro ⟨y, hy, heq⟩
    cases heq
    exact ⟨rfl, hy⟩
  · rintro ⟨rfl, hx⟩
    exact ⟨x, hx, rfl⟩

theorem limited_ne_ok {p : AnglePid} {l : Scalar} (hl : p.limit = some l) (hn : l.isNaN = true)
    (x y : Scalar) : p.limited x ≠ .ok y := by
  intro h
  have hbounds : ¬-l ≤ l := fun hle => Bool.false_ne_true ((le_iff.mp hle).2.1.symm.trans hn)
  rw [limited, hl] at h
  change clamp (-l) l x = .ok y at h
  rw [clamp, if_neg hbounds] at h
  cases h

theorem limit_follow (c : LevelConfig) (p : AnglePid) (r : Option LevelReading) :
    (p.follow c r).limit = p.limit := by
  cases r <;> rfl

end AnglePid

namespace Setpoints

/-- What the call tells the angle controller of an axis; a reset counts as a tick without
leveling. -/
def Call.reading (a : TiltAxis) : Call → Option LevelReading
  | .update input => input.reading a
  | .reset => none

/-- The setpoints of a tick, after some calls. -/
def setpointsAfter (s : Setpoints) (calls : List Call) (input : SetpointInput) :
    Checked (Triple Scalar) := do
  let s ← s.after calls
  let (_, x) ← s.update input
  return x

/-! ## One tick -/

/-- What a tick makes of the generator, and its setpoints. -/
structure Tick (s : Setpoints) (input : SetpointInput) (t : Setpoints) (x : Triple Scalar) :
    Prop where
  rates : t.rates = s.rates
  level : t.level = s.level
  pid : ∀ a, t.pids.get a = (s.pids.get a).follow s.level (input.reading a)
  byRate : ∀ axis, input.ByRate axis →
    x.get axis = s.rates.setpoint axis input.highRates
      (limitOrZero (-1.0) 1.0 (input.sticks.get axis))
  leveled : ∀ a r, input.reading a = some r → ∃ y,
    (s.pids.get a).limited ((s.pids.get a).demand (AnglePid.error s.level r)) = .ok y ∧
      (input.mode.axisModes.get a = .level → x.get a.axis = y)

theorem axisSetpoint_eq_ok {c : LevelConfig} {pid q : AnglePid} {mode : AxisMode}
    {stick trim attitude stickRate share x : Scalar}
    (h : axisSetpoint c pid mode (limitOrZero (-1.0) 1.0 stick) trim attitude stickRate share =
      .ok (q, x)) :
    q = (if mode = .rate then pid.reset else pid.stepped (angleError c stick trim attitude)) ∧
      (mode = .rate → x = stickRate) ∧
      (mode ≠ .rate → ∃ y, pid.limited (pid.demand (angleError c stick trim attitude)) = .ok y ∧
        (mode = .level → x = y)) := by
  cases mode with
  | rate =>
    cases h
    exact ⟨rfl, fun _ => rfl, fun hmode => absurd rfl hmode⟩
  | level =>
    obtain ⟨hq, hx⟩ := AnglePid.update_eq_ok.mp h
    exact ⟨hq, nofun, fun _ => ⟨x, hx, fun _ => rfl⟩⟩
  | blend =>
    obtain ⟨⟨pid', y⟩, hupdate, heq⟩ := bind_eq_ok.mp h
    cases heq
    obtain ⟨hq, hy⟩ := AnglePid.update_eq_ok.mp hupdate
    exact ⟨hq, nofun, fun _ => ⟨y, hy, nofun⟩⟩

theorem tick_of_update {s t : Setpoints} {input : SetpointInput} {x : Triple Scalar}
    (h : s.update input = .ok (t, x)) : s.Tick input t x := by
  obtain ⟨sticks, hsticks⟩ :
      ∃ sticks, sticks = input.sticks.map (limitOrZero (-1.0) 1.0) := ⟨_, rfl⟩
  have hplain : ∀ axis, (stickRates s.rates sticks input.highRates).get axis =
      s.rates.setpoint axis input.highRates (limitOrZero (-1.0) 1.0 (input.sticks.get axis)) := by
    intro axis
    rw [stickRates, Triple.get_ofFn, hsticks, Triple.get_map]
  cases ha : input.attitude with
  | none =>
    simp only [update, ha, ← hsticks] at h
    cases h
    refine ⟨rfl, rfl, fun a => ?_, fun axis _ => hplain axis, fun a r hr => ?_⟩
    · rw [SetpointInput.reading_of_none ha]
      cases a <;> rfl
    · rw [SetpointInput.reading_of_none ha] at hr
      cases hr
  | some attitude =>
    simp only [update, ha, ← hsticks] at h
    obtain ⟨⟨roll, x⟩, hroll, h⟩ := bind_eq_ok.mp h
    obtain ⟨⟨pitch, y⟩, hpitch, h⟩ := bind_eq_ok.mp h
    cases h
    have haxis : ∀ a : TiltAxis, axisSetpoint s.level (s.pids.get a) (input.mode.axisModes.get a)
        (limitOrZero (-1.0) 1.0 (input.sticks.get a.axis)) (input.trims.get a) (attitude.get a)
        ((stickRates s.rates sticks input.highRates).get a.axis)
        (rateShare s.level sticks attitude) =
          .ok (Tilt.get ⟨roll, pitch⟩ a,
            Triple.get ⟨x, y, (stickRates s.rates sticks input.highRates).z⟩ a.axis) := by
      subst hsticks
      intro a
      cases a
      exacts [hroll, hpitch]
    have hreading := SetpointInput.reading_of_some ha
    refine ⟨rfl, rfl, fun a => ?_, fun axis hrate => ?_, fun a r hr => ?_⟩
    · refine (axisSetpoint_eq_ok (haxis a)).1.trans ?_
      rw [hreading]
      split_ifs <;> rfl
    · rw [← hplain]
      have htilt : ∀ a : TiltAxis, input.ByRate a.axis → _ := fun a hrate =>
        (axisSetpoint_eq_ok (haxis a)).2.1
          ((SetpointInput.byRate_iff.mp hrate).resolve_left (by simp [ha]))
      cases axis with
      | roll => exact htilt .roll hrate
      | pitch => exact htilt .pitch hrate
      | yaw => rfl
    · rw [hreading] at hr
      split_ifs at hr with hmode
      cases hr
      exact (axisSetpoint_eq_ok (haxis a)).2.2 hmode

/-! ## Runs -/

variable {s t : Setpoints} {l : Scalar} {calls : List Call}

theorem pid_of_perform {call : Call} (h : s.perform call = .ok t) : t.rates = s.rates ∧
    t.level = s.level ∧ ∀ a, t.pids.get a = (s.pids.get a).follow s.level (call.reading a) := by
  cases call with
  | reset =>
    cases h
    refine ⟨rfl, rfl, fun a => ?_⟩
    cases a <;> rfl
  | update input =>
    obtain ⟨⟨t', x⟩, hupdate, heq⟩ := bind_eq_ok.mp h
    cases heq
    have htick := tick_of_update hupdate
    exact ⟨htick.rates, htick.level, htick.pid⟩

/-- A run leaves the angle controller of an axis where the readings of that axis lead it. -/
theorem pid_of_after (h : s.after calls = .ok t) : t.rates = s.rates ∧ t.level = s.level ∧
    ∀ a, t.pids.get a =
      (calls.map (Call.reading a)).foldl (AnglePid.follow s.level) (s.pids.get a) := by
  induction calls generalizing s with
  | nil =>
    cases h
    exact ⟨rfl, rfl, fun _ => rfl⟩
  | cons call calls ih =>
    obtain ⟨u, hu, ht⟩ := bind_eq_ok.mp h
    obtain ⟨hrates, hlevel, hpid⟩ := pid_of_perform hu
    obtain ⟨hrates', hlevel', hpid'⟩ := ih ht
    refine ⟨hrates'.trans hrates, hlevel'.trans hlevel, fun a => ?_⟩
    rw [hpid', hpid, hlevel, List.map_cons, List.foldl_cons]

theorem forgets_iff {call : Call} : call.Forgets ↔ call.reading .roll = none := by
  cases call with
  | reset => exact iff_of_true trivial rfl
  | update input => exact (input.reading_eq_none_iff .roll).symm

/-- Without a limit that is a number, a call that levels an axis is aborted. -/
theorem forgets_of_perform {call : Call} (hl : s.pids.roll.limit = some l) (hn : l.isNaN = true)
    (h : s.perform call = .ok t) : call.Forgets := by
  rw [forgets_iff]
  cases hr : call.reading .roll with
  | none => rfl
  | some r =>
    cases call with
    | reset => cases hr
    | update input =>
      obtain ⟨⟨t', x⟩, hupdate, -⟩ := bind_eq_ok.mp h
      obtain ⟨y, hy, -⟩ := (tick_of_update hupdate).leveled .roll r hr
      exact absurd hy (AnglePid.limited_ne_ok hl hn _ _)

theorem after_ok_iff_forall_forgets (hl : s.pids.roll.limit = some l) (hn : l.isNaN = true) :
    (∃ t, s.after calls = .ok t) ↔ ∀ call ∈ calls, call.Forgets := by
  constructor
  · rintro ⟨t, ht⟩
    induction calls generalizing s with
    | nil => exact fun _ hmem => absurd hmem List.not_mem_nil
    | cons call calls ih =>
      obtain ⟨u, hu, ht⟩ := bind_eq_ok.mp ht
      have hlimit : u.pids.roll.limit = some l := by
        refine Eq.trans (congrArg AnglePid.limit ((pid_of_perform hu).2.2 .roll)) ?_
        rw [AnglePid.limit_follow]
        exact hl
      exact List.forall_mem_cons.mpr ⟨forgets_of_perform hl hn hu, ih hlimit ht⟩
  · intro hcalls
    obtain ⟨t, ht, -⟩ := after_invariant (P := fun _ => True)
      (fun s call _ hforgets => ⟨s.reset, perform_of_forgets hforgets s, trivial⟩) trivial hcalls
    exact ⟨t, ht⟩

theorem isNaN_rateLimit (c : LevelConfig) : (c.maxRate * degree).isNaN = c.maxRate.isNaN := by
  rw [Bool.eq_iff_iff, isNaN_mul_finite_iff rfl, or_iff_left]
  rintro ⟨-, hzero⟩
  have hform : form degree = .finite .positive 9370165 (-29) (by decide) := rfl
  rw [value_of_form hform] at hzero
  norm_num at hzero

/-- A run is aborted exactly if the limit of the leveled rates is no number and some call levels an
axis. -/
theorem after_new_ok_iff (rates : StickRates) (level : LevelConfig) (period : Scalar) :
    (∃ t, (new rates level period).after calls = .ok t) ↔
      level.maxRate.isNaN = false ∨ ∀ call ∈ calls, call.Forgets := by
  have hnan : (level.maxRate * degree).abs.isNaN = level.maxRate.isNaN := by
    rw [isNaN_abs, isNaN_rateLimit]
  cases hn : level.maxRate.isNaN with
  | true =>
    rw [after_ok_iff_forall_forgets rfl (hnan.trans hn)]
    simp
  | false =>
    have hlimited : (new rates level period).Limited level (level.maxRate * degree).abs :=
      ⟨rfl, nonneg_abs (by rw [isNaN_rateLimit, hn]), rfl, rfl⟩
    obtain ⟨t, ht, -⟩ := limited_after hlimited calls
    exact iff_of_true ⟨t, ht⟩ (Or.inl rfl)

theorem after_concat (s : Setpoints) (calls : List Call) (call : Call) :
    s.after (calls ++ [call]) = s.after calls >>= fun t => t.perform call := by
  simp only [after, List.foldlM_append, List.foldlM_cons, List.foldlM_nil, bind_pure]

theorem setpointsAfter_ok_iff {input : SetpointInput} :
    (∃ x, s.setpointsAfter calls input = .ok x) ↔
      ∃ t, s.after (calls ++ [.update input]) = .ok t := by
  rw [after_concat]
  constructor
  · rintro ⟨x, h⟩
    obtain ⟨u, hu, h⟩ := bind_eq_ok.mp h
    obtain ⟨⟨t, _⟩, ht, -⟩ := bind_eq_ok.mp h
    exact ⟨t, bind_eq_ok.mpr ⟨u, hu, bind_eq_ok.mpr ⟨_, ht, rfl⟩⟩⟩
  · rintro ⟨t, h⟩
    obtain ⟨u, hu, h⟩ := bind_eq_ok.mp h
    obtain ⟨⟨_, x⟩, hx, -⟩ := bind_eq_ok.mp h
    exact ⟨x, bind_eq_ok.mpr ⟨u, hu, bind_eq_ok.mpr ⟨_, hx, rfl⟩⟩⟩

/-! ## What an axis depends on -/

/-- A tick is aborted exactly if the limit of the leveled rates is no number and an axis has been
leveled. Otherwise the axes flown by rate have the setpoints of their sticks, and an axis flown by
angle has the setpoint that it would have without the other axes and the rates. -/
theorem setpoints_of_axes (rates : StickRates) (level : LevelConfig) (period : Scalar)
    (calls : List Call) (input : SetpointInput) :
    (level.check = .ok () → ∃ x, (new rates level period).setpointsAfter calls input = .ok x) ∧
    ((∃ x, (new rates level period).setpointsAfter calls input = .ok x) ↔
      level.maxRate.isNaN = false ∨ ∀ call ∈ calls ++ [.update input], call.Forgets) ∧
    ∀ x, (new rates level period).setpointsAfter calls input = .ok x →
      (∀ axis, input.ByRate axis → x.get axis = rates.setpoint axis input.highRates
        (limitOrZero (-1.0) 1.0 (input.sticks.get axis))) ∧
      ∀ a attitude, input.attitude = some attitude → input.mode.axisModes.get a = .level →
        AnglePid.alone level period (calls.map (Call.reading a))
          ⟨input.sticks.get a.axis, input.trims.get a, attitude.get a⟩ = .ok (x.get a.axis) := by
  have hanswered : (∃ x, (new rates level period).setpointsAfter calls input = .ok x) ↔
      level.maxRate.isNaN = false ∨ ∀ call ∈ calls ++ [.update input], call.Forgets := by
    rw [setpointsAfter_ok_iff, after_new_ok_iff]
  refine ⟨fun hcheck => ?_, hanswered, fun x hx => ?_⟩
  · simp only [LevelConfig.check, check_bind_eq_ok, require_eq_ok, isPositive_iff] at hcheck
    exact hanswered.mpr (Or.inl (isNaN_of_isFinite hcheck.2.1.1))
  · obtain ⟨s, hs, hx⟩ := bind_eq_ok.mp hx
    obtain ⟨⟨t, x'⟩, hupdate, heq⟩ := bind_eq_ok.mp hx
    cases heq
    obtain ⟨hrates, hlevel, hpid⟩ := pid_of_after hs
    have htick := tick_of_update hupdate
    refine ⟨fun axis hrate => ?_, fun a attitude hattitude hmode => ?_⟩
    · rw [htick.byRate axis hrate, hrates]
      rfl
    · have hreading : input.reading a =
          some ⟨input.sticks.get a.axis, input.trims.get a, attitude.get a⟩ := by
        rw [SetpointInput.reading_of_some hattitude, hmode, if_neg (by decide)]
      obtain ⟨y, hy, hx⟩ := htick.leveled a _ hreading
      have hstart : s.pids.get a = (calls.map (Call.reading a)).foldl (AnglePid.follow level)
          (AnglePid.new level.anglePid period (some (level.maxRate * degree))) := by
        refine (hpid a).trans ?_
        cases a <;> rfl
      have hlevel' : s.level = level := hlevel
      rw [hlevel', hstart] at hy
      rw [hx hmode]
      exact bind_eq_ok.mpr ⟨_, AnglePid.update_eq_ok.mpr ⟨rfl, hy⟩, rfl⟩

/-- The same roll with other sticks, low rates and a pitch that is no number. -/
def entangled (roll : Scalar) : SetpointInput where
  sticks := ⟨0.0, -0.5, 1.0⟩
  mode := .angle
  attitude := some ⟨roll, nan⟩
  trims := .fill 0.0
  highRates := false

theorem setpoints_of_axes_entangled : LevelConfig.check {} = .ok () ∧ ∃ x y,
    (new {} {} 0.001).setpointsAfter [.update (rolled 0.3)] (rolled 0.2) = .ok x ∧
    (new {} {} 0.001).setpointsAfter [.update (entangled 0.3)] (entangled 0.2) = .ok y ∧
    x.x = y.x ∧ y.z = StickRates.setpoint {} .yaw false 1.0 := by
  have hcheck : LevelConfig.check {} = .ok () := rfl
  obtain ⟨hx, -, hplain⟩ := setpoints_of_axes {} {} 0.001 [.update (rolled 0.3)] (rolled 0.2)
  obtain ⟨hy, -, hother⟩ := setpoints_of_axes {} {} 0.001 [.update (entangled 0.3)] (entangled 0.2)
  obtain ⟨x, hx⟩ := hx hcheck
  obtain ⟨y, hy⟩ := hy hcheck
  have hroll := (hplain x hx).2 .roll ⟨0.2, 0.0⟩ rfl rfl
  have hroll' := (hother y hy).2 .roll ⟨0.2, nan⟩ rfl rfl
  have hhistory : [Call.update (rolled 0.3)].map (Call.reading .roll) =
      [Call.update (entangled 0.3)].map (Call.reading .roll) := rfl
  rw [hhistory] at hroll
  have hstick : limitOrZero (-1.0) 1.0 1.0 = 1.0 := by decide
  have hyaw := (hother y hy).1 .yaw trivial
  refine ⟨hcheck, x, y, hx, hy, Except.ok.inj (hroll.symm.trans hroll'), hyaw.trans ?_⟩
  change StickRates.setpoint {} .yaw false (limitOrZero (-1.0) 1.0 1.0) = _
  rw [hstick]

end Setpoints

end Quadrotor

import Mathlib
import Quadrotor.Proofs.Control.Windup

/-!
# What leveling leaves behind

While no axis is leveled the angle controllers are reset, and so they are whenever the arming state
changes. A reset takes their integrals and their previous errors. It leaves the output of their
derivative filters, which fades from tick to tick while an axis is leveled, and not at all while
none is. So the setpoints after a reset are those of a new generator that recalls two numbers, and
they are those of a new generator exactly if neither number weighs anything in the next output.
-/

namespace Quadrotor

open Scalar

/-- The part of the next output that comes from the latest one. -/
def Lowpass.echo (f : Lowpass Scalar) : Scalar := (1 - f.gain) * f.y

namespace AnglePid

/-- The controller with another output of its derivative filter. -/
def recalling (p : AnglePid) (y : Scalar) : AnglePid :=
  { p with derivativeFilter := p.derivativeFilter.reset y }

/-- What the filter recalls weighs no more than zero does. -/
def Faded (p : AnglePid) : Prop :=
  Alike p.derivativeFilter.echo (p.recalling 0.0).derivativeFilter.echo

/-- The controllers differ at most in what their filters recall, and not in what comes of it. -/
structure Agrees (p q : AnglePid) : Prop where
  ready : p.Ready
  config : p.config = q.config
  period : p.period = q.period
  limit : p.limit = q.limit
  integral : p.integral = q.integral
  prevError : p.prevError = q.prevError
  gain : p.derivativeFilter.gain = q.derivativeFilter.gain
  echo : Alike p.derivativeFilter.echo q.derivativeFilter.echo

/-- All that a reset leaves is the output of the derivative filter, and what the controller was built
with. -/
def Kept (start p : AnglePid) : Prop := p.reset = start.recalling p.derivativeFilter.y

section

variable {start p q : AnglePid}

theorem Kept.reset (h : Kept start p) : Kept start p.reset := h

theorem Kept.stepped (h : Kept start p) (error : Scalar) : Kept start (p.stepped error) :=
  congrArg (fun r : AnglePid => r.recalling (p.stepped error).derivativeFilter.y) h

theorem Agrees.reset (h : p.Agrees q) : p.reset.Agrees q.reset :=
  ⟨h.ready, h.config, h.period, h.limit, rfl, rfl, h.gain, h.echo⟩

theorem Faded.agrees (h : p.Faded) (hready : p.Ready) : p.Agrees (p.recalling 0.0) :=
  ⟨hready, rfl, rfl, rfl, rfl, rfl, rfl, h⟩

theorem Agrees.filter (h : p.Agrees q) (error : Scalar) :
    (p.stepped error).derivativeFilter.gain = (q.stepped error).derivativeFilter.gain ∧
      Alike (p.stepped error).derivativeFilter.y (q.stepped error).derivativeFilter.y := by
  have hecho := h.echo
  simp only [Lowpass.echo, h.gain] at hecho
  simp only [AnglePid.stepped, Lowpass.update, h.config, h.period, h.prevError, h.gain, true_and]
  exact (Alike.refl _).add hecho

theorem Agrees.inner (h : p.Agrees q) (error : Scalar) : Alike (p.inner error) (q.inner error) := by
  rw [AnglePid.inner, AnglePid.inner, h.config]
  exact (Alike.refl _).add (h.filter error).2

theorem inRange_congr {x y : Scalar} (hlimit : p.limit = q.limit) (h : Alike x y) :
    p.inRange x = q.inRange y := by
  unfold inRange
  rw [hlimit]
  cases q.limit with
  | none => rfl
  | some l => simp only [h.lt_iff (.refl l), (Alike.refl (-l)).lt_iff h]

theorem Agrees.stepped (h : p.Agrees q) (error : Scalar) :
    (p.stepped error).Agrees (q.stepped error) := by
  obtain ⟨hgain, hy⟩ := h.filter error
  refine ⟨h.ready, h.config, h.period, h.limit, ?_, rfl, hgain, ?_⟩
  · -- No comparison sees the sign of a zero, so both integrate or neither does.
    have hrange : p.inRange (p.inner error) = q.inRange (q.inner error) :=
      inRange_congr h.limit (h.inner error)
    change (if p.inRange (p.inner error) then _ else _) = if q.inRange (q.inner error) then _ else _
    rw [hrange, h.integral, h.config, h.period]
  · rw [Lowpass.echo, Lowpass.echo, hgain]
    exact (Alike.refl _).mul hy

theorem Agrees.demand (h : p.Agrees q) (error : Scalar) :
    Alike (p.demand error) (q.demand error) :=
  (h.inner error).add (.of_eq (h.stepped error).integral)

/-- Controllers that agree answer alike, and agree afterwards. -/
theorem Agrees.update (h : p.Agrees q) (error : Scalar) : ∃ p' q' x y,
    p.update error = .ok (p', x) ∧ q.update error = .ok (q', y) ∧ p'.Agrees q' ∧ Alike x y := by
  have hdemand := h.demand error
  have hstepped := h.stepped error
  cases hl : p.limit with
  | none =>
    have hl' : q.limit = none := h.limit ▸ hl
    refine ⟨_, _, p.demand error, q.demand error, ?_, ?_, hstepped, hdemand⟩
    · rw [update_eq, limited, hl]; rfl
    · rw [update_eq, limited, hl']; rfl
  | some l =>
    have hl' : q.limit = some l := h.limit ▸ hl
    have h0 := h.ready l hl
    exact ⟨_, _, _, _, update_of_limit hl h0 error, update_of_limit hl' h0 error, hstepped,
      hdemand.limit _ _⟩

end

end AnglePid

namespace Setpoints

/-! ## Setpoints that do not tell two generators apart -/

/-- The setpoints of some calls. -/
def answers (s : Setpoints) : List Call → Checked (List (Triple Scalar))
  | [] => .ok []
  | .reset :: calls => s.reset.answers calls
  | .update input :: calls => do
    let (s, rates) ← s.update input
    let later ← s.answers calls
    return rates :: later

/-- Neither generator is aborted, and their setpoints compare equal or are both no number. -/
def SameAnswers (s t : Setpoints) (calls : List Call) : Prop :=
  ∃ xs ys, s.answers calls = .ok xs ∧ t.answers calls = .ok ys ∧
    List.Forall₂ (fun x y => ∀ a, Alike (Triple.get x a) (Triple.get y a)) xs ys

/-- The generators differ at most in what their filters recall, and not in what comes of it. -/
structure Agrees (s t : Setpoints) : Prop where
  rates : s.rates = t.rates
  level : s.level = t.level
  roll : s.pids.roll.Agrees t.pids.roll
  pitch : s.pids.pitch.Agrees t.pids.pitch

section

variable {s t : Setpoints}

theorem Agrees.reset (h : s.Agrees t) : s.reset.Agrees t.reset :=
  ⟨h.rates, h.level, h.roll.reset, h.pitch.reset⟩

theorem axisSetpoint_agrees {p q : AnglePid} (h : p.Agrees q) (c : LevelConfig) (mode : AxisMode)
    (stick trim attitude stickRate share : Scalar) : ∃ p' q' x y,
      axisSetpoint c p mode stick trim attitude stickRate share = .ok (p', x) ∧
      axisSetpoint c q mode stick trim attitude stickRate share = .ok (q', y) ∧
      p'.Agrees q' ∧ Alike x y := by
  obtain ⟨p', q', x, y, hp, hq, hnext, hxy⟩ :=
    h.update (stick * c.maxAngle * degree + trim - attitude)
  cases mode with
  | rate => exact ⟨_, _, stickRate, stickRate, rfl, rfl, h.reset, .refl _⟩
  | level => exact ⟨p', q', x, y, hp, hq, hnext, hxy⟩
  | blend =>
    exact ⟨p', q', _, _, bind_eq_ok.mpr ⟨_, hp, rfl⟩, bind_eq_ok.mpr ⟨_, hq, rfl⟩, hnext,
      (hxy.mul_left _).add_left _⟩

theorem Agrees.update (h : s.Agrees t) (input : SetpointInput) : ∃ s' t' x y,
    s.update input = .ok (s', x) ∧ t.update input = .ok (t', y) ∧ s'.Agrees t' ∧
      ∀ a, Alike (x.get a) (y.get a) := by
  obtain ⟨sticks, hsticks⟩ :
      ∃ sticks, sticks = input.sticks.map (limitOrZero (-1.0) 1.0) := ⟨_, rfl⟩
  cases ha : input.attitude with
  | none =>
    refine ⟨s.reset, t.reset, stickRates s.rates sticks input.highRates,
      stickRates s.rates sticks input.highRates, ?_, ?_, h.reset, fun a => .refl _⟩
    · simp only [Setpoints.update, ha, ← hsticks]
    · simp only [Setpoints.update, ha, ← hsticks, h.rates]
  | some attitude =>
    obtain ⟨roll, roll', x, x', hx, hx', hroll, hxx⟩ := axisSetpoint_agrees h.roll s.level
      input.mode.axisModes.roll sticks.x input.trims.roll attitude.roll
      (stickRates s.rates sticks input.highRates).x (rateShare s.level sticks attitude)
    obtain ⟨pitch, pitch', y, y', hy, hy', hpitch, hyy⟩ := axisSetpoint_agrees h.pitch s.level
      input.mode.axisModes.pitch sticks.y input.trims.pitch attitude.pitch
      (stickRates s.rates sticks input.highRates).y (rateShare s.level sticks attitude)
    refine ⟨{ s with pids := ⟨roll, pitch⟩ }, { t with pids := ⟨roll', pitch'⟩ },
      ⟨x, y, (stickRates s.rates sticks input.highRates).z⟩,
      ⟨x', y', (stickRates s.rates sticks input.highRates).z⟩, ?_, ?_,
      ⟨h.rates, h.level, hroll, hpitch⟩, fun a => ?_⟩
    · simp only [Setpoints.update, ha, ← hsticks]
      exact bind_eq_ok.mpr ⟨_, hx, bind_eq_ok.mpr ⟨_, hy, rfl⟩⟩
    · simp only [Setpoints.update, ha, ← hsticks, ← h.rates, ← h.level]
      exact bind_eq_ok.mpr ⟨_, hx', bind_eq_ok.mpr ⟨_, hy', rfl⟩⟩
    · cases a
      exacts [hxx, hyy, .refl _]

theorem Agrees.sameAnswers (h : s.Agrees t) (calls : List Call) : s.SameAnswers t calls := by
  induction calls generalizing s t with
  | nil => exact ⟨[], [], rfl, rfl, .nil⟩
  | cons call calls ih =>
    cases call with
    | reset => exact ih h.reset
    | update input =>
      obtain ⟨s', t', x, y, hs, ht, hnext, hxy⟩ := h.update input
      obtain ⟨xs, ys, hxs, hys, hall⟩ := ih hnext
      exact ⟨x :: xs, y :: ys, bind_eq_ok.mpr ⟨_, hs, bind_eq_ok.mpr ⟨_, hxs, rfl⟩⟩,
        bind_eq_ok.mpr ⟨_, ht, bind_eq_ok.mpr ⟨_, hys, rfl⟩⟩, .cons hxy hall⟩

end

/-! ## What a reset leaves -/

/-- The generator with other outputs of its derivative filters. -/
def recalling (s : Setpoints) (m : Tilt Scalar) : Setpoints :=
  { s with pids := ⟨s.pids.roll.recalling m.roll, s.pids.pitch.recalling m.pitch⟩ }

/-- What the derivative filters recall. -/
def memory (s : Setpoints) : Tilt Scalar := s.pids.map fun p => p.derivativeFilter.y

/-- All that a reset leaves is what the filters recall, and what the generator was built with. -/
structure Kept (start s : Setpoints) : Prop where
  rates : s.rates = start.rates
  level : s.level = start.level
  roll : start.pids.roll.Kept s.pids.roll
  pitch : start.pids.pitch.Kept s.pids.pitch

section

variable {c : LevelConfig} {l : Scalar} {start s t : Setpoints}

theorem Kept.reset_eq (h : start.Kept s) : s.reset = start.recalling s.memory := by
  have hpids : s.pids.map AnglePid.reset =
      ⟨start.pids.roll.recalling s.memory.roll, start.pids.pitch.recalling s.memory.pitch⟩ :=
    congrArg₂ Tilt.mk h.roll h.pitch
  rw [reset, recalling, hpids, h.rates, h.level]

theorem kept_new (rates : StickRates) (level : LevelConfig) (period : Scalar) :
    (new rates level period).Kept (new rates level period) :=
  ⟨rfl, rfl, rfl, rfl⟩

theorem AxisStep.kept {p pid q : AnglePid} {mode : AxisMode} {error x : Scalar}
    (h : AxisStep l pid mode error q x) (hp : p.Kept pid) : p.Kept q := by
  rw [h.pid_eq]
  split_ifs
  · exact hp.reset
  · exact hp.stepped error

theorem Kept.perform (h : start.Kept s) (hs : s.Limited c l) (call : Call) :
    ∃ t, s.perform call = .ok t ∧ t.Limited c l ∧ start.Kept t := by
  obtain ⟨t, ht, hlimited, -⟩ := hs.perform call
  refine ⟨t, ht, hlimited, ?_⟩
  have hreset : start.Kept s.reset := ⟨h.rates, h.level, h.roll.reset, h.pitch.reset⟩
  cases call with
  | reset =>
    cases ht
    exact hreset
  | update input =>
    obtain ⟨⟨u, x⟩, hu, hut⟩ := bind_eq_ok.mp ht
    cases hut
    cases ha : input.attitude with
    | none =>
      obtain ⟨rates, hrates⟩ := update_of_none (s := s) ha
      cases hrates.symm.trans hu
      exact hreset
    | some attitude =>
      obtain ⟨roll, pitch, rates, hupdate, hroll, hpitch⟩ := hs.update_of_some ha
      cases hupdate.symm.trans hu
      exact ⟨h.rates, h.level, hroll.kept h.roll, hpitch.kept h.pitch⟩

theorem kept_after (h : start.Kept s) (hs : s.Limited c l) (calls : List Call) :
    ∃ t, s.after calls = .ok t ∧ t.Limited c l ∧ start.Kept t := by
  refine after_invariant (P := fun s => s.Limited c l ∧ start.Kept s) (Q := fun _ => True) ?_ ⟨hs, h⟩
    fun _ _ => trivial
  exact fun s call hs _ => hs.2.perform hs.1 call

/-- The call flies no axis by its angle. -/
def Call.Forgets : Call → Prop
  | .reset => True
  | .update input => input.attitude = none ∨ input.mode = .acro

theorem perform_of_forgets {call : Call} (h : call.Forgets) (s : Setpoints) :
    s.perform call = .ok s.reset := by
  cases call with
  | reset => rfl
  | update input =>
    have hupdate : ∃ rates, s.update input = .ok (s.reset, rates) := by
      cases ha : input.attitude with
      | none => exact update_of_none ha
      | some attitude =>
        have hmode : input.mode = .acro := h.resolve_left (by simp [ha])
        exact ⟨_, by simp only [Setpoints.update, ha, hmode]; rfl⟩
    obtain ⟨rates, hrates⟩ := hupdate
    exact bind_eq_ok.mpr ⟨_, hrates, rfl⟩

end

/-! ## What the filters recall is felt -/

/-- What both filters recall weighs no more than zero does. -/
def Faded (s : Setpoints) : Prop := s.pids.roll.Faded ∧ s.pids.pitch.Faded

end Setpoints

namespace AnglePid

/-- A controller as a reset leaves it, with finite gains. -/
structure Rested (p : AnglePid) : Prop where
  integral : p.integral = 0.0
  prevError : p.prevError = none
  kp : p.config.kp.isFinite = true
  ki : p.config.ki.isFinite = true
  kd : p.config.kd.isFinite = true
  period : isPositive p.period = true
  gain : Share p.derivativeFilter.gain

theorem Rested.recalling {p : AnglePid} (h : p.Rested) (y : Scalar) : (p.recalling y).Rested :=
  ⟨h.integral, h.prevError, h.kp, h.ki, h.kd, h.period, h.gain⟩

/-- Where there is no error it asks for what its filter recalls. -/
theorem Rested.demand {p : AnglePid} (h : p.Rested) {error : Scalar} (he : error.IsZero) :
    Alike (p.demand error) p.derivativeFilter.echo := by
  have hslope : (p.config.kd * (error - p.prevError.getD error) / p.period).IsZero := by
    rw [h.prevError]
    exact (IsZero.mul_left h.kd (he.sub he)).div h.period
  have hfilter : Alike (p.stepped error).derivativeFilter.y p.derivativeFilter.echo :=
    (IsZero.mul_left h.gain.isFinite hslope).alike_add _
  have hinner : Alike (p.inner error) p.derivativeFilter.echo :=
    ((IsZero.mul_left h.kp he).alike_add _).trans hfilter
  have hintegral : (p.stepped error).integral.IsZero := by
    simp only [AnglePid.stepped, h.integral]
    split_ifs
    · exact isZero_zero.add ((IsZero.mul_left h.ki he).mul (isPositive_iff.mp h.period).1)
    · exact isZero_zero
  have hdemand : Alike (p.demand error) (p.inner error) := by
    change Alike (p.inner error + (p.stepped error).integral) (p.inner error)
    rw [Scalar.add_comm]
    exact hintegral.alike_add _
  exact hdemand.trans hinner

/-- It answers that as a new controller does only if what it recalls has faded. -/
theorem Rested.faded {p : AnglePid} (h : p.Rested) {l error : Scalar} (hl : 0.0 < l)
    (he : error.IsZero) (hsame : Alike (Scalar.limit (-l) l (p.demand error))
      (Scalar.limit (-l) l ((p.recalling 0.0).demand error))) : p.Faded := by
  have hecho : (p.recalling 0.0).derivativeFilter.echo.IsZero :=
    IsZero.mul_left h.gain.rest.isFinite isZero_zero
  have hfresh := ((h.recalling 0.0).demand he).symm.isZero hecho
  have hzero := (isZero_limit hl).mp (hsame.symm.isZero ((isZero_limit hl).mpr hfresh))
  exact .of_isZero ((h.demand he).isZero hzero) hecho

theorem rested_new {c : AnglePidConfig} {period : Scalar} (hkp : c.kp.isFinite = true)
    (hki : c.ki.isFinite = true) (hkd : c.kd.isFinite = true)
    (hcutoff : isPositive c.derivativeCutoff = true) (hperiod : isPositive period = true)
    (limit : Option Scalar) : (new c period limit).Rested :=
  ⟨rfl, rfl, hkp, hki, hkd, hperiod, Lowpass.share_ofCutoff hcutoff hperiod⟩

end AnglePid

namespace Setpoints

section

variable {c : LevelConfig} {l : Scalar} {s : Setpoints}

theorem Limited.ready (h : s.Limited c l) : s.Ready := by
  constructor
  · intro m hm
    cases h.roll.symm.trans hm
    exact h.nonneg
  · intro m hm
    cases h.pitch.symm.trans hm
    exact h.nonneg

theorem Limited.recalling (h : s.Limited c l) (m : Tilt Scalar) : (s.recalling m).Limited c l :=
  ⟨h.level_eq, h.nonneg, h.roll, h.pitch⟩

theorem Faded.agrees (h : s.Faded) (hs : s.Ready) : s.Agrees (s.recalling (.fill 0.0)) :=
  ⟨rfl, rfl, h.1.agrees hs.1, h.2.agrees hs.2⟩

theorem isZero_angleError (hcheck : c.check = .ok ()) : (angleError c 0.0 0.0 0.0).IsZero := by
  simp only [LevelConfig.check, check_bind_eq_ok, require_eq_ok, Bool.and_eq_true,
    isPositive_iff] at hcheck
  have hstick : limitOrZero (-1.0) 1.0 0.0 = 0.0 := by decide
  rw [angleError, hstick]
  exact (((isZero_zero.mul hcheck.1.1.1).mul rfl).add isZero_zero).sub isZero_zero

/-- The setpoints for a level attitude and centred sticks are what the controllers ask for where
there is no error, limited. -/
theorem Limited.answers_level (h : s.Limited c l) {xs : List (Triple Scalar)}
    (hxs : s.answers [.update (rolled 0.0)] = .ok xs) : ∃ x, xs = [x] ∧
      x.get .roll = Scalar.limit (-l) l (s.pids.roll.demand (angleError c 0.0 0.0 0.0)) ∧
      x.get .pitch = Scalar.limit (-l) l (s.pids.pitch.demand (angleError c 0.0 0.0 0.0)) := by
  have hattitude : (rolled 0.0).attitude = some ⟨0.0, 0.0⟩ := rfl
  obtain ⟨roll, pitch, x, hx, hroll, hpitch⟩ := h.update_of_some hattitude
  have hanswers : s.answers [.update (rolled 0.0)] = .ok [x] :=
    bind_eq_ok.mpr ⟨_, hx, bind_eq_ok.mpr ⟨[], rfl, rfl⟩⟩
  cases hanswers.symm.trans hxs
  exact ⟨x, rfl, hroll.setpoint rfl, hpitch.setpoint rfl⟩

theorem faded_of_sameAnswers (hcheck : c.check = .ok ()) (hs : s.Limited c l) (hl : 0.0 < l)
    (hroll : s.pids.roll.Rested) (hpitch : s.pids.pitch.Rested)
    (h : s.SameAnswers (s.recalling (.fill 0.0)) [.update (rolled 0.0)]) : s.Faded := by
  obtain ⟨xs, ys, hxs, hys, hall⟩ := h
  obtain ⟨x, rfl, hx, hx'⟩ := hs.answers_level hxs
  obtain ⟨y, rfl, hy, hy'⟩ := (hs.recalling (.fill 0.0)).answers_level hys
  have hxy := (List.forall₂_cons.mp hall).1
  have hzero := isZero_angleError hcheck
  have hsameRoll := hxy .roll
  rw [hx, hy] at hsameRoll
  have hsamePitch := hxy .pitch
  rw [hx', hy'] at hsamePitch
  exact ⟨hroll.faded hl hzero hsameRoll, hpitch.faded hl hzero hsamePitch⟩

end

/-- Whatever has come before, a call that flies no axis by its angle leaves a new generator that
recalls two numbers. If both have faded, it answers all later calls as a new generator does. If they
have not, and unless the limit is zero, it does not even answer a level attitude and centred sticks as
a new one does. -/
theorem answers_of_forgets (rates : StickRates) (level : LevelConfig) (hcheck : level.check = .ok ())
    (period : Scalar) (before : List Call) (call : Call) (hcall : call.Forgets) :
    ∃ s, (new rates level period).after (before ++ [call]) = .ok s ∧
      s = (new rates level period).recalling s.memory ∧
      (s.Faded → ∀ later, s.SameAnswers (new rates level period) later) ∧
      (isPositive period = true → level.anglePid.kp.isFinite = true →
        level.anglePid.ki.isFinite = true → level.anglePid.kd.isFinite = true →
        0.0 < level.maxRate * degree →
        s.SameAnswers (new rates level period) [.update (rolled 0.0)] → s.Faded) := by
  have hnew := limited_new hcheck rates period
  obtain ⟨u, hu, -, hkept⟩ := kept_after (kept_new rates level period) hnew before
  obtain ⟨s, hs⟩ : ∃ s, s = (new rates level period).recalling u.memory := ⟨_, rfl⟩
  have hmemory : s.memory = u.memory := by rw [hs]; rfl
  have hlimited : s.Limited level (level.maxRate * degree).abs := hs ▸ hnew.recalling u.memory
  have hfresh : s.recalling (.fill 0.0) = new rates level period := by rw [hs]; rfl
  refine ⟨s, ?_, by rw [hmemory, hs], fun hfaded later => ?_,
    fun hperiod hkp hki hkd hlimit hsame => ?_⟩
  · rw [Setpoints.after, List.foldlM_append]
    have hreset := perform_of_forgets hcall u
    rw [hkept.reset_eq, ← hs] at hreset
    exact bind_eq_ok.mpr ⟨u, hu, bind_eq_ok.mpr ⟨s, hreset, rfl⟩⟩
  · rw [← hfresh]
    exact (hfaded.agrees hlimited.ready).sameAnswers later
  · -- A level attitude is no error, so each demand is what the filter makes of its latest output.
    rw [← hfresh] at hsame
    rw [abs_eq_self hlimit] at hlimited
    have hcutoff : isPositive level.anglePid.derivativeCutoff = true := by
      simp only [LevelConfig.check, check_bind_eq_ok, require_eq_ok] at hcheck
      exact hcheck.2.2.2.2
    have hrested := AnglePid.rested_new hkp hki hkd hcutoff hperiod (some (level.maxRate * degree))
    have hroll : s.pids.roll.Rested := hs ▸ hrested.recalling u.memory.roll
    have hpitch : s.pids.pitch.Rested := hs ▸ hrested.recalling u.memory.pitch
    exact faded_of_sameAnswers hcheck hlimited hlimit hroll hpitch hsame

/-- A roll to the right, seen in one tick. -/
def tilted : List Call := [.update (rolled 0.0), .update (rolled 0.1)]

theorem answers_of_forgets_tilted : LevelConfig.check {} = .ok () ∧ Call.Forgets .reset ∧
    ∃ s, (new {} {} 0.001).after (tilted ++ [.reset]) = .ok s ∧
      s = (new {} {} 0.001).recalling s.memory ∧
      (s.SameAnswers (new {} {} 0.001) [.update (rolled 0.0)] ↔
        ∀ later, s.SameAnswers (new {} {} 0.001) later) := by
  have hcheck : LevelConfig.check {} = .ok () := rfl
  have hcall : Call.Forgets .reset := trivial
  obtain ⟨s, hs, hmemory, hsame, hfaded⟩ :=
    answers_of_forgets {} {} hcheck 0.001 tilted .reset hcall
  refine ⟨hcheck, hcall, s, hs, hmemory, fun h => hsame (hfaded ?_ ?_ ?_ ?_ ?_ h), fun h => h _⟩ <;>
    decide

/-- Ways to fly no axis by its angle: after a change of the arming state, without an estimate, and in
the mode acro. -/
def leavings : List Call :=
  [.reset, .update { rolled 0.1 with attitude := none }, .update { rolled 0.1 with mode := .acro }]

/-- The bits of some setpoints. -/
def bits (rates : Checked (List (Triple Scalar))) : Option (List (List UInt32)) :=
  rates.toOption.map (List.map fun t => t.toList.map Float32.toBits)

/-- A new generator asks for nothing when level. After the roll, and whichever way leveling was left, it
asks for a rate of -0.182, because the derivative of the roll is still in the filter. -/
theorem tilt_felt_after_leaving : LevelConfig.check {} = .ok () ∧
    bits ((new {} {} 0.001).answers [.update (rolled 0.0)]) = some [[0, 0, 0]] ∧
    ∀ call ∈ leavings, call.Forgets ∧
      bits (do
        let s ← (new {} {} 0.001).after (tilted ++ [call])
        s.answers [.update (rolled 0.0)]) = some [[0xbe3a4652, 0, 0]] := by
  refine ⟨rfl, by decide +kernel, ?_⟩
  simp only [leavings, List.forall_mem_cons]
  refine ⟨⟨trivial, ?_⟩, ⟨Or.inl rfl, ?_⟩, ⟨Or.inr rfl, ?_⟩, List.forall_mem_nil _⟩ <;>
    decide +kernel

end Setpoints

end Quadrotor

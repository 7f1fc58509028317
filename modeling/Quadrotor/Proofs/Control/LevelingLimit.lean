import Mathlib
import Quadrotor.Proofs.Control.Limits
import Quadrotor.Proofs.Filter.FiniteOutput
import Quadrotor.Proofs.Flight.Run
import Quadrotor.Proofs.Scalar.Overflow

/-!
# The limit of leveled setpoints

A leveled axis asks for a rate of no more than the limit of its angle controller, or for what is no
number. With gains and attitudes of bounded magnitude it is a number: no product overflows, so the
derivative filter stays finite, and a finite sum with an integral that has only ever been added to
is a number even if the integral has become infinite. A configuration is accepted whatever the gains
are, so this bound is not among what the check of a configuration promises.
-/

namespace Quadrotor

open Scalar

/-! ## One controller -/

/-- The gains do not exceed `2 ^ a`. -/
structure AnglePidConfig.Sized (a : ℕ) (c : AnglePidConfig) : Prop where
  kp : Within a c.kp
  ki : Within a c.ki
  kd : Within a c.kd

namespace AnglePid

/-- The controller after one more error. -/
def stepped (p : AnglePid) (error : Scalar) : AnglePid :=
  let filter := p.derivativeFilter.update
    (p.config.kd * (error - p.prevError.getD error) / p.period)
  { p with
    integral := if p.inRange (p.config.kp * error + filter.y) then
        p.integral + p.config.ki * error * p.period
      else p.integral
    prevError := some error
    derivativeFilter := filter }

/-- The output before it is limited. -/
def demand (p : AnglePid) (error : Scalar) : Scalar :=
  p.config.kp * error + (p.stepped error).derivativeFilter.y + (p.stepped error).integral

theorem update_eq (p : AnglePid) (error : Scalar) : p.update error =
    p.limited (p.demand error) >>= fun output => .ok (p.stepped error, output) := rfl

theorem update_of_limit {p : AnglePid} {l : Scalar} (hl : p.limit = some l) (h0 : 0.0 ≤ l)
    (error : Scalar) :
    p.update error = .ok (p.stepped error, Scalar.limit (-l) l (p.demand error)) := by
  have hlimited : ∀ x, p.limited x = .ok (Scalar.limit (-l) l x) := by
    intro x
    rw [limited, hl]
    exact clamp_eq_ok (neg_le_self h0) x
  rw [update_eq, hlimited]
  rfl

/-- The gains do not exceed `2 ^ a`, the latest error does not exceed `2 ^ (b + 1)`, and the tick
period is one that a configuration can have. -/
structure Tame (a b : ℕ) (p : AnglePid) : Prop where
  gains : p.config.Sized a
  period : 1e-6 ≤ p.period ∧ p.period ≤ 1.0
  error : ∀ e, p.prevError = some e → Within (b + 1) e
  filter : p.derivativeFilter.Keeps (Within (a + b + 22))
  integral : p.integral.isNaN = false

variable {a b : ℕ} {p : AnglePid}

theorem Tame.reset (h : p.Tame a b) : p.reset.Tame a b :=
  ⟨h.gains, h.period, (fun _ he => by cases he), h.filter, isNaN_zero⟩

/-- The period is long enough to divide by. -/
theorem Tame.period_bounds (h : p.Tame a b) : Share p.period ∧ 1 / 2 ^ 20 ≤ p.period.value := by
  have hnonneg : (0.0 : Scalar) ≤ 1e-6 := by decide
  refine ⟨⟨Scalar.le_trans hnonneg h.period.1, h.period.2⟩, ?_⟩
  refine le_trans ?_ (le_iff.mp h.period.1).2.2
  rw [FlightConfig.value_micro]
  norm_num

theorem Tame.step (h : p.Tame a b) (hab : a + b ≤ 104) {error : Scalar}
    (he : Within (b + 1) error) : (p.stepped error).Tame a b ∧ (p.demand error).isNaN = false := by
  obtain ⟨hperiod, hlow⟩ := h.period_bounds
  have hprev : Within (b + 1) (p.prevError.getD error) := by
    cases hp : p.prevError with
    | none => exact he
    | some e => exact h.error e hp
  have hslope : Within (a + b + 22) (p.config.kd * (error - p.prevError.getD error) / p.period) :=
    ((h.gains.kd.mul (he.sub hprev (by omega)) (by omega)).div hperiod.isFinite hlow (by omega)).mono
      (by omega)
  have hfilter : (p.stepped error).derivativeFilter.Keeps (Within (a + b + 22)) :=
    h.filter.update (blends_within (by omega)) hslope
  have hintegral : (p.stepped error).integral.isNaN = false := by
    have hincrement : Within (a + (b + 1) + 0) (p.config.ki * error * p.period) :=
      (h.gains.ki.mul he (by omega)).mul hperiod.within (by omega)
    simp only [stepped]
    split_ifs
    · exact isNaN_add h.integral hincrement.isFinite
    · exact h.integral
  refine ⟨⟨h.gains, h.period, ?_, hfilter, hintegral⟩, ?_⟩
  · intro e hsome
    cases hsome
    exact he
  · have hproportional : Within (a + b + 22) (p.config.kp * error) :=
      (h.gains.kp.mul he (by omega)).mono (by omega)
    have hfinite := (hproportional.add hfilter.output (by omega)).isFinite
    rw [demand, ← Bool.not_eq_true, isNaN_finite_add_iff hfinite, hintegral]
    exact Bool.false_ne_true

end AnglePid

/-! ## Setpoints -/

namespace Setpoints

inductive Call where
  | update (input : SetpointInput)
  | reset

/-- The setpoint generator after a call. -/
def perform (s : Setpoints) : Call → Checked Setpoints
  | .update input => do
    let (s, _) ← s.update input
    return s
  | .reset => .ok s.reset

/-- The setpoint generator after some calls. -/
def after (s : Setpoints) (calls : List Call) : Checked Setpoints := calls.foldlM perform s

/-- What each of some calls keeps is kept by all of them. -/
theorem after_invariant {P : Setpoints → Prop} {Q : Call → Prop}
    (hstep : ∀ s call, P s → Q call → ∃ t, s.perform call = .ok t ∧ P t) {s : Setpoints}
    {calls : List Call} (hs : P s) (hcalls : ∀ call ∈ calls, Q call) :
    ∃ t, s.after calls = .ok t ∧ P t := by
  induction calls generalizing s with
  | nil => exact ⟨s, rfl, hs⟩
  | cons call calls ih =>
    obtain ⟨hcall, hrest⟩ := List.forall_mem_cons.mp hcalls
    obtain ⟨t, ht, hPt⟩ := hstep s call hs hcall
    obtain ⟨u, hu, hPu⟩ := ih hPt hrest
    exact ⟨u, bind_eq_ok.mpr ⟨t, ht, hu⟩, hPu⟩

/-- How far an axis is from the angle that its stick and its trim ask for. -/
def angleError (c : LevelConfig) (stick trim attitude : Scalar) : Scalar :=
  limitOrZero (-1.0) 1.0 stick * c.maxAngle * degree + trim - attitude

/-- What a tick makes of the controller of an axis, limited to `l`, and of its setpoint. -/
structure AxisStep (l : Scalar) (pid : AnglePid) (mode : AxisMode) (error : Scalar) (q : AnglePid)
    (x : Scalar) : Prop where
  pid_eq : q = if mode = .rate then pid.reset else pid.stepped error
  setpoint : mode = .level → x = Scalar.limit (-l) l (pid.demand error)

theorem axisSetpoint_spec {pid : AnglePid} {l : Scalar} (hl : pid.limit = some l) (h0 : 0.0 ≤ l)
    (c : LevelConfig) (mode : AxisMode) (stick trim attitude stickRate share : Scalar) :
    ∃ q x, axisSetpoint c pid mode (limitOrZero (-1.0) 1.0 stick) trim attitude stickRate share =
      .ok (q, x) ∧ AxisStep l pid mode (angleError c stick trim attitude) q x := by
  have hupdate := AnglePid.update_of_limit hl h0 (angleError c stick trim attitude)
  cases mode with
  | rate => exact ⟨_, _, rfl, rfl, fun h => by cases h⟩
  | level => exact ⟨_, _, hupdate, rfl, fun _ => rfl⟩
  | blend => exact ⟨_, _, bind_eq_ok.mpr ⟨_, hupdate, rfl⟩, rfl, fun h => by cases h⟩

/-- Both controllers are limited to `l`, which is not negative. -/
structure Limited (c : LevelConfig) (l : Scalar) (s : Setpoints) : Prop where
  level_eq : s.level = c
  nonneg : 0.0 ≤ l
  roll : s.pids.roll.limit = some l
  pitch : s.pids.pitch.limit = some l

variable {c : LevelConfig} {l : Scalar} {s t : Setpoints} {input : SetpointInput}

theorem update_of_none (h : input.attitude = none) :
    ∃ rates, s.update input = .ok (s.reset, rates) :=
  ⟨_, by rw [update, h]⟩

theorem Limited.update_of_some (h : s.Limited c l) {attitude : Tilt Scalar}
    (ha : input.attitude = some attitude) : ∃ roll pitch rates,
      s.update input = .ok ({ s with pids := ⟨roll, pitch⟩ }, rates) ∧
      AxisStep l s.pids.roll input.mode.axisModes.roll
        (angleError c input.sticks.x input.trims.roll attitude.roll) roll rates.x ∧
      AxisStep l s.pids.pitch input.mode.axisModes.pitch
        (angleError c input.sticks.y input.trims.pitch attitude.pitch) pitch rates.y := by
  obtain ⟨sticks, hsticks⟩ :
      ∃ sticks, sticks = input.sticks.map (limitOrZero (-1.0) 1.0) := ⟨_, rfl⟩
  obtain ⟨roll, x, hroll, hx⟩ := axisSetpoint_spec h.roll h.nonneg c input.mode.axisModes.roll
    input.sticks.x input.trims.roll attitude.roll (stickRates s.rates sticks input.highRates).x
    (rateShare s.level sticks attitude)
  obtain ⟨pitch, y, hpitch, hy⟩ := axisSetpoint_spec h.pitch h.nonneg c
    input.mode.axisModes.pitch input.sticks.y input.trims.pitch attitude.pitch
    (stickRates s.rates sticks input.highRates).y (rateShare s.level sticks attitude)
  rw [← h.level_eq] at hroll hpitch
  refine ⟨roll, pitch, ⟨x, y, (stickRates s.rates sticks input.highRates).z⟩, ?_, hx, hy⟩
  simp only [update, ha, ← hsticks]
  refine bind_eq_ok.mpr ⟨(roll, x), ?_, bind_eq_ok.mpr ⟨(pitch, y), ?_, rfl⟩⟩
  · rw [hsticks] at hroll ⊢
    exact hroll
  · rw [hsticks] at hpitch ⊢
    exact hpitch

/-! ## Attitudes of bounded magnitude -/

/-- Attitudes do not exceed `2 ^ b` rad, and trims do not exceed one. -/
structure Sized (b : ℕ) (input : SetpointInput) : Prop where
  attitude : ∀ a, input.attitude = some a → Within b a.roll ∧ Within b a.pitch
  roll : Within 0 input.trims.roll
  pitch : Within 0 input.trims.pitch

def Call.Sized (b : ℕ) : Call → Prop
  | .update input => Setpoints.Sized b input
  | .reset => True

/-- Both controllers are tame. -/
def Tame (a b : ℕ) (s : Setpoints) : Prop := s.pids.roll.Tame a b ∧ s.pids.pitch.Tame a b

theorem within_angleError (hcheck : c.check = .ok ()) {b : ℕ} (hb : 3 ≤ b) (hb' : b + 1 < 128)
    (stick : Scalar) {trim attitude : Scalar} (ht : Within 0 trim) (ha : Within b attitude) :
    Within (b + 1) (angleError c stick trim attitude) := by
  simp only [LevelConfig.check, check_bind_eq_ok, require_eq_ok, Bool.and_eq_true,
    decide_eq_true_iff, isPositive_iff] at hcheck
  obtain ⟨⟨⟨hfinite, hpos⟩, hright⟩, -⟩ := hcheck
  have hangle : Within 7 c.maxAngle := by
    have hform : form 90.0 = .finite .positive 11796480 (-17) (by decide) := rfl
    have hbound : Within 7 90.0 := within_of_form hform (by norm_num)
    have hleft : (-90.0 : Scalar) ≤ 0.0 := by decide
    exact hbound.of_mem (Scalar.le_trans hleft (Scalar.le_of_lt hpos)) (Scalar.le_of_lt hright)
  have hstick := (within_limitOrZero stick).mul hangle (by decide)
  have hdegree : 0 ≤ degree.value ∧ degree.value ≤ 1 / 2 ^ 5 := by
    have hform : form degree = .finite .positive 9370165 (-29) (by decide) := rfl
    rw [value_of_form hform]
    norm_num
  have htarget : Within 2 (limitOrZero (-1.0) 1.0 stick * c.maxAngle * degree) := by
    refine (rounds_mul hstick.isFinite (y := degree) rfl).within (by decide) ?_
    rw [abs_mul, abs_of_nonneg hdegree.1]
    calc _ ≤ (2 : ℚ) ^ 7 * (1 / 2 ^ 5) := mul_le_mul hstick.abs_le hdegree.2 hdegree.1 (by norm_num)
      _ = 2 ^ 2 := by norm_num
  exact ((htarget.add (ht.mono (by decide)) (by decide)).mono hb).sub ha hb'

variable {pid q : AnglePid} {mode : AxisMode} {error x : Scalar}

/-- The setpoint of a leveled axis is in the range, or no number. -/
theorem AxisStep.isNaN_or_abs_le (h : AxisStep l pid mode error q x) (hmode : mode = .level)
    (h0 : 0.0 ≤ l) : x.isNaN = true ∨ x.abs ≤ l := by
  cases hx : x.isNaN with
  | true => exact Or.inl rfl
  | false =>
    right
    rw [h.setpoint hmode, isNaN_limit (neg_le_self h0)] at hx
    obtain ⟨hlow, hhigh⟩ := limit_mem (neg_le_self h0) hx
    rw [← h.setpoint hmode, le_iff] at hlow hhigh
    obtain ⟨-, hn, hlow⟩ := hlow
    rw [value_neg] at hlow
    rw [le_iff_value (by rwa [isNaN_abs]) hhigh.2.1, value_abs]
    exact abs_le.mpr ⟨hlow, hhigh.2.2⟩

theorem AxisStep.tame (h : AxisStep l pid mode error q x) {a b : ℕ} (hab : a + b ≤ 104)
    (hpid : pid.Tame a b) (he : Within (b + 1) error) : q.Tame a b := by
  rw [h.pid_eq]
  split_ifs
  · exact hpid.reset
  · exact (hpid.step hab he).1

theorem AxisStep.isNaN_setpoint (h : AxisStep l pid mode error q x) (hmode : mode = .level)
    (h0 : 0.0 ≤ l) {a b : ℕ} (hab : a + b ≤ 104) (hpid : pid.Tame a b)
    (he : Within (b + 1) error) : x.isNaN = false := by
  rw [h.setpoint hmode, isNaN_limit (neg_le_self h0)]
  exact (hpid.step hab he).2

theorem AxisStep.limit_eq (h : AxisStep l pid mode error q x) : q.limit = pid.limit := by
  rw [h.pid_eq]
  split_ifs <;> rfl

/-! ## Runs -/

theorem Limited.perform (h : s.Limited c l) (call : Call) : ∃ t, s.perform call = .ok t ∧
    t.Limited c l ∧ ∀ a b, c.check = .ok () → 3 ≤ b → a + b ≤ 104 → call.Sized b → s.Tame a b →
      t.Tame a b := by
  have hreset : s.reset.Limited c l := ⟨h.level_eq, h.nonneg, h.roll, h.pitch⟩
  cases call with
  | reset => exact ⟨_, rfl, hreset, fun a b _ _ _ _ ht => ⟨ht.1.reset, ht.2.reset⟩⟩
  | update input =>
    cases ha : input.attitude with
    | none =>
      obtain ⟨rates, hrates⟩ := update_of_none (s := s) ha
      refine ⟨_, bind_eq_ok.mpr ⟨_, hrates, rfl⟩, hreset, fun a b _ _ _ _ ht => ?_⟩
      exact ⟨ht.1.reset, ht.2.reset⟩
    | some attitude =>
      obtain ⟨roll, pitch, rates, hupdate, hroll, hpitch⟩ := h.update_of_some ha
      refine ⟨_, bind_eq_ok.mpr ⟨_, hupdate, rfl⟩, ⟨h.level_eq, h.nonneg,
        hroll.limit_eq.trans h.roll, hpitch.limit_eq.trans h.pitch⟩, ?_⟩
      intro a b hcheck hb hab hsized ht
      obtain ⟨har, hap⟩ := hsized.attitude attitude ha
      exact ⟨hroll.tame hab ht.1 (within_angleError hcheck hb (by omega) _ hsized.roll har),
        hpitch.tame hab ht.2 (within_angleError hcheck hb (by omega) _ hsized.pitch hap)⟩

/-! ## The limit -/

theorem limited_new (hcheck : c.check = .ok ()) (rates : StickRates) (period : Scalar) :
    (new rates c period).Limited c (c.maxRate * degree).abs := by
  simp only [LevelConfig.check, check_bind_eq_ok, require_eq_ok, isPositive_iff] at hcheck
  have hlimit := nonneg_abs (rounds_mul hcheck.2.1.1 (y := degree) rfl).isNaN
  exact ⟨rfl, hlimit, rfl, rfl⟩

theorem tame_new {a : ℕ} (b : ℕ) (hcheck : c.check = .ok ()) (hgains : c.anglePid.Sized a)
    (rates : StickRates) {period : Scalar} (hperiod : isPositive period = true)
    (hmem : 1e-6 ≤ period ∧ period ≤ 1.0) : (new rates c period).Tame a b := by
  simp only [LevelConfig.check, check_bind_eq_ok, require_eq_ok] at hcheck
  have hzero : Within (a + b + 22) 0.0 := Share.zero.within.mono (Nat.zero_le _)
  have hnew : ∀ limit, (AnglePid.new c.anglePid period limit).Tame a b := fun limit =>
    ⟨hgains, hmem, (fun _ he => by cases he),
      Lowpass.keeps_ofCutoff hzero hcheck.2.2.2.2 hperiod, isNaN_zero⟩
  exact ⟨hnew _, hnew _⟩

theorem limited_after (h : s.Limited c l) (calls : List Call) :
    ∃ t, s.after calls = .ok t ∧ t.Limited c l := by
  refine after_invariant (P := Limited c l) (Q := fun _ => True) ?_ h fun _ _ => trivial
  intro s call h _
  obtain ⟨t, ht, hlimited, -⟩ := h.perform call
  exact ⟨t, ht, hlimited⟩

theorem tame_after (h : s.Limited c l) {a b : ℕ} (hs : s.Tame a b) (hcheck : c.check = .ok ())
    (hb : 3 ≤ b) (hab : a + b ≤ 104) {calls : List Call} (hcalls : ∀ call ∈ calls, call.Sized b)
    (ht : s.after calls = .ok t) : t.Tame a b := by
  obtain ⟨t', ht', -, htame⟩ := after_invariant (P := fun s => s.Limited c l ∧ s.Tame a b)
    (fun s call h hsized => by
      obtain ⟨t, ht, hlimited, htame⟩ := h.1.perform call
      exact ⟨t, ht, hlimited, htame a b hcheck hb hab hsized h.2⟩) ⟨h, hs⟩ hcalls
  cases ht.symm.trans ht'
  exact htame

/-- The setpoint of a leveled axis, after some calls and for some input. -/
structure Held (c : LevelConfig) (calls : List Call) (input : SetpointInput) (x : Scalar) :
    Prop where
  isNaN_or_abs_le : x.isNaN = true ∨ x.abs ≤ c.maxRate * degree
  isNaN_of_sized : ∀ a b, 3 ≤ b → a + b ≤ 104 → c.anglePid.Sized a →
    (∀ call ∈ calls, call.Sized b) → Setpoints.Sized b input → x.isNaN = false

theorem AxisStep.held (hcheck : c.check = .ok ())
    (h : AxisStep (c.maxRate * degree).abs pid mode error q x) (hmode : mode = .level)
    {calls : List Call} (htame : ∀ a b, 3 ≤ b → a + b ≤ 104 → c.anglePid.Sized a →
      (∀ call ∈ calls, call.Sized b) → Setpoints.Sized b input →
      pid.Tame a b ∧ Within (b + 1) error) : Held c calls input x := by
  simp only [LevelConfig.check, check_bind_eq_ok, require_eq_ok, isPositive_iff] at hcheck
  obtain ⟨-, ⟨hfinite, hpos⟩, -⟩ := hcheck
  have hrate : 0.0 ≤ c.maxRate * degree :=
    nonneg_mul_of_isFinite (Scalar.le_of_lt hpos) (by decide) hfinite rfl
  have hlimit := nonneg_abs (le_iff.mp hrate).2.1
  constructor
  · refine (h.isNaN_or_abs_le hmode hlimit).imp_right fun hx => ?_
    obtain ⟨hn, -, hle⟩ := le_iff.mp hx
    rw [value_abs (c.maxRate * degree), abs_of_nonneg (Scalar.value_nonneg hrate)] at hle
    exact le_iff.mpr ⟨hn, (le_iff.mp hrate).2.1, hle⟩
  · intro a b hb hab hgains hcalls hsized
    obtain ⟨hpid, he⟩ := htame a b hb hab hgains hcalls hsized
    exact h.isNaN_setpoint hmode hlimit hab hpid he

/-- Whatever calls have come before, a tick with an attitude is not aborted, and the setpoints of the
leveled axes are held. -/
theorem leveled_setpoints (config : FlightConfig) (hvalid : config.validate = .ok ())
    (calls : List Call) (input : SetpointInput) (attitude : Tilt Scalar)
    (hattitude : input.attitude = some attitude) :
    ∃ s t rates, (new config.rates config.level config.period).after calls = .ok s ∧
      s.update input = .ok (t, rates) ∧
      (input.mode = .angle ∨ input.mode = .race → Held config.level calls input rates.x) ∧
      (input.mode = .angle → Held config.level calls input rates.y) := by
  obtain ⟨⟨hmin, hmax⟩, -, -, -, hcheck, -⟩ := FlightCore.validate_eq_ok.mp hvalid
  have hperiod := isPositive_iff.mpr (FlightConfig.period_bounds hmin hmax)
  have hnew := limited_new hcheck config.rates config.period
  obtain ⟨s, hs, hlimited⟩ := limited_after hnew calls
  obtain ⟨roll, pitch, rates, hupdate, hroll, hpitch⟩ := hlimited.update_of_some hattitude
  have htame : ∀ a b, 3 ≤ b → a + b ≤ 104 → config.level.anglePid.Sized a →
      (∀ call ∈ calls, call.Sized b) → s.Tame a b := by
    intro a b hb hab hgains hcalls
    have hstart := tame_new b hcheck hgains config.rates hperiod (FlightConfig.period_mem hmin hmax)
    exact tame_after hnew hstart hcheck hb hab hcalls hs
  refine ⟨s, _, rates, hs, hupdate, fun hmode => ?_, fun hmode => ?_⟩
  · have hlevel : input.mode.axisModes.roll = .level := by
      rcases hmode with hmode | hmode <;> rw [hmode] <;> rfl
    refine hroll.held hcheck hlevel fun a b hb hab hgains hcalls hsized => ?_
    exact ⟨(htame a b hb hab hgains hcalls).1, within_angleError hcheck hb (by omega) _ hsized.roll
      (hsized.attitude attitude hattitude).1⟩
  · have hlevel : input.mode.axisModes.pitch = .level := by
      rw [hmode]
      rfl
    refine hpitch.held hcheck hlevel fun a b hb hab hgains hcalls hsized => ?_
    exact ⟨(htame a b hb hab hgains hcalls).2, within_angleError hcheck hb (by omega) _ hsized.pitch
      (hsized.attitude attitude hattitude).2⟩

/-! ## Runs at the limit and beyond it -/

/-- Centred sticks in the mode angle, at some roll. -/
def rolled (roll : Scalar) : SetpointInput where
  sticks := .fill 0.0
  mode := .angle
  attitude := some ⟨roll, 0.0⟩
  trims := .fill 0.0
  highRates := true

theorem sized_rolled {b : ℕ} {roll : Scalar} (h : Within b roll) : Setpoints.Sized b (rolled roll) := by
  have hzero := Share.zero.within
  refine ⟨fun a ha => ?_, hzero, hzero⟩
  cases ha
  exact ⟨h, hzero.mono (Nat.zero_le b)⟩

/-- Rolled over, with a reset on the way, and half way back. -/
theorem leveled_setpoints_rolled : FlightConfig.validate {} = .ok () ∧
    (rolled 1.5).attitude = some ⟨1.5, 0.0⟩ ∧
    ∃ s t rates, (new {} {} (FlightConfig.period {})).after [.update (rolled 3.0), .reset,
      .update (rolled 3.0)] = .ok s ∧ s.update (rolled 1.5) = .ok (t, rates) ∧
      rates.x.isNaN = false ∧ rates.x.abs ≤ 230.0 * degree := by
  have hvalid : FlightConfig.validate {} = .ok () := rfl
  obtain ⟨s, t, rates, hs, ht, hroll, -⟩ := leveled_setpoints {} hvalid
    [.update (rolled 3.0), .reset, .update (rolled 3.0)] (rolled 1.5) ⟨1.5, 0.0⟩ rfl
  have hheld := hroll (Or.inl rfl)
  have hbound : Within 4 16.0 := by
    have hform : form 16.0 = .finite .positive (2 ^ 23) (-19) (by decide) := rfl
    exact within_of_form hform (by norm_num)
  have hwithin : ∀ x : Scalar, -16.0 ≤ x → x ≤ 16.0 → Within 4 x := fun x => hbound.of_mem
  have hgains : AnglePidConfig.Sized 4 {} :=
    ⟨hwithin _ (by decide) (by decide), hwithin _ (by decide) (by decide),
      hwithin _ (by decide) (by decide)⟩
  have hthree := sized_rolled (hwithin 3.0 (by decide) (by decide))
  have hnumber : rates.x.isNaN = false := by
    refine hheld.isNaN_of_sized 4 4 (by decide) (by decide) hgains ?_
      (sized_rolled (hwithin 1.5 (by decide) (by decide)))
    simp only [List.forall_mem_cons]
    exact ⟨hthree, trivial, hthree, by simp⟩
  refine ⟨hvalid, rfl, s, t, rates, hs, ht, hnumber, hheld.isNaN_or_abs_le.resolve_left ?_⟩
  rw [hnumber]
  exact Bool.false_ne_true

/-- The default configuration with a proportional gain that is no number. -/
def unchecked : FlightConfig := { level := { anglePid := { kp := nan } } }

/-- A call answers, and its roll setpoint is no number. -/
def losesRoll (answer : Checked (Setpoints × Triple Scalar)) : Bool :=
  match answer with
  | .ok (_, rates) => rates.x.isNaN
  | .error _ => false

/-- An accepted configuration has no limit if a gain is no number. The default one has none once two
attitudes were so far apart that the derivative overflows in both directions. -/
theorem limit_lost : unchecked.validate = .ok () ∧
    losesRoll ((new unchecked.rates unchecked.level unchecked.period).update (rolled 0.0)) = true ∧
    FlightConfig.validate {} = .ok () ∧
    losesRoll ((new {} {} (FlightConfig.period {})).after [.update (rolled 3e38),
      .update (rolled (-3e38))] >>= fun s => s.update (rolled 0.0)) = true := by
  refine ⟨rfl, ?_, rfl, ?_⟩
  · decide +kernel
  · decide +kernel

end Setpoints

end Quadrotor

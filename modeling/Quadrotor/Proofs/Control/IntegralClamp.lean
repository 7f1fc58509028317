import Mathlib
import Quadrotor.Proofs.Control.Limits
import Quadrotor.Proofs.Filter.FiniteOutput
import Quadrotor.Proofs.Scalar.Overflow

/-!
# The integral of a rate controller

The integral of a rate controller is limited to a range around zero. The limit keeps what is no
number, and there is one way to come to that: an error, its product with the gain or the sum
overflows, and the infinity is multiplied by zero. From then on the integral is no number until it
is reset. Setpoints and measurements of ordinary size never come to that.
-/

namespace Quadrotor

open Scalar

namespace RatePid

/-! ## Uses of a controller -/

inductive Call where
  | update (setpoint measurement : Scalar) (context : PidContext)
  | gains (g : Gains)
  | reset

namespace Call

/-- Setpoints and measurements are finite, and gains are valid. -/
def Proper : Call → Prop
  | update setpoint measurement _ => setpoint.isFinite = true ∧ measurement.isFinite = true
  | gains g => g.isValid = true
  | reset => True

instance : DecidablePred Proper
  | update _ _ _ => inferInstanceAs (Decidable (_ ∧ _))
  | gains _ => inferInstanceAs (Decidable (_ = true))
  | reset => inferInstanceAs (Decidable True)

/-- Integral gains do not exceed `2 ^ a`, and setpoints and measurements do not exceed `2 ^ b`. -/
def Sized (a b : ℕ) : Call → Prop
  | update setpoint measurement _ => Within b setpoint ∧ Within b measurement
  | gains g => Within a g.ki
  | reset => True

end Call

/-- The controller after a call. -/
def perform (p : RatePid) : Call → Checked RatePid
  | .update setpoint measurement context => do
    let (p, _) ← p.update setpoint measurement context
    return p
  | .gains g => .ok { p with gains := g }
  | .reset => .ok p.resetIntegral

/-- The controller after some calls. -/
def after (p : RatePid) (calls : List Call) : Checked RatePid := calls.foldlM perform p

theorem after_concat (p : RatePid) (calls : List Call) (call : Call) :
    p.after (calls ++ [call]) = p.after calls >>= fun q => q.perform call := by
  simp only [after, List.foldlM_append, List.foldlM_cons, List.foldlM_nil, bind_pure]

/-! ## Integration -/

/-- What a tick adds to the integral, unless the output saturates. -/
def increment (p : RatePid) (error relax : Scalar) : Scalar :=
  p.gains.ki * error * relax * p.period

/-- The share of the integral that a tick on the ground leaves. -/
def groundShare (p : RatePid) : Scalar := maxNum (1.0 - p.config.groundLeak * p.period) 0.0

/-- The integral after a tick in the air, before it is limited. -/
def integrated (p : RatePid) (error relax : Scalar) : Scalar :=
  if p.saturated error then p.integral else p.integral + p.increment error relax

theorem accumulate_eq (p : RatePid) (error relax : Scalar) (onGround : Bool) :
    p.accumulate error relax onGround =
      if onGround then p.integrated error relax * p.groundShare else p.integrated error relax := rfl

/-- A tick multiplies an infinity by zero. -/
inductive Loses (p : RatePid) (error relax : Scalar) (onGround : Bool) : Prop
  | error (hfree : p.saturated error = false) (hinfinite : ¬error.isFinite = true)
      (hzero : p.gains.ki.value = 0)
  | product (hfree : p.saturated error = false)
      (hinfinite : ¬Float32.isFinite (p.gains.ki * error) = true) (hzero : relax.value = 0)
  | sum (hground : onGround = true) (hinfinite : ¬(p.integrated error relax).isFinite = true)
      (hzero : p.groundShare.value = 0)

/-- The average of the setpoint, if there is one, is finite, and its threshold can be divided by. -/
def Averages (average : Option (WindupProtection × Lowpass Scalar)) : Prop :=
  ∀ w f, average = some (w, f) →
    isPositive w.threshold = true ∧ f.Keeps fun y => y.isFinite = true

/-- The configuration of a controller has been accepted, its gains are valid, and so far its average
is finite. -/
structure Sane (p : RatePid) : Prop where
  gains : p.gains.isValid = true
  limit : isNonneg p.config.integralLimit = true
  leak : isNonneg p.config.groundLeak = true
  period : isPositive p.period = true
  average : Averages p.average

theorem sane_new {config : RatePidConfig} (hcheck : config.check = .ok ()) {gains : Gains}
    (hgains : gains.isValid = true) {period : Scalar} (hperiod : isPositive period = true) :
    (new gains config period).Sane := by
  simp only [RatePidConfig.check, check_bind_eq_ok, require_eq_ok, Bool.and_eq_true] at hcheck
  obtain ⟨⟨⟨hlimit, -⟩, hleak⟩, -, hwindup⟩ := hcheck
  refine ⟨hgains, hlimit, hleak, hperiod, fun w f hf => ?_⟩
  change config.windup.map _ = some (w, f) at hf
  cases hw : config.windup with
  | none =>
    rw [hw] at hf
    cases hf
  | some protection =>
    rw [hw] at hf hwindup
    simp only [check_bind_eq_ok, require_eq_ok] at hwindup
    obtain ⟨rfl, rfl⟩ := Prod.mk.inj (Option.some_inj.mp hf)
    exact ⟨hwindup.1, Lowpass.keeps_ofCutoff rfl hwindup.2 hperiod⟩

section

variable {p : RatePid}

/-- The windup protection leaves a share of the increment, and its average stays finite. -/
theorem Sane.relax (h : p.Sane) {setpoint : Scalar} (hs : setpoint.isFinite = true) :
    Share (relax p.average setpoint).2 ∧ Averages (relax p.average setpoint).1 := by
  cases haverage : p.average with
  | none => exact ⟨Share.one, fun w f hf => by cases hf⟩
  | some a =>
    obtain ⟨w, f⟩ := a
    obtain ⟨hthreshold, hkeeps⟩ := h.average w f haverage
    have hnow := hkeeps.update blends_isFinite hs
    refine ⟨?_, fun w' f' hf => ?_⟩
    · -- The deviation may be infinite, and then nothing of the increment is left.
      have hdeviation := nonneg_abs (rounds_sub hs hnow.output).isNaN
      have hquotient := (le_iff.mp (nonneg_div_isPositive hdeviation hthreshold)).2.1
      exact share_confine (isNaN_finite_sub rfl hquotient)
    · obtain ⟨rfl, rfl⟩ := Prod.mk.inj (Option.some_inj.mp hf)
      exact ⟨hthreshold, hnow⟩

theorem Sane.groundShare (h : p.Sane) : Share p.groundShare := by
  obtain ⟨hf, h0⟩ := isNonneg_iff.mp h.leak
  obtain ⟨hfp, hp⟩ := isPositive_iff.mp h.period
  have hdecay := nonneg_mul_of_isFinite h0 (Scalar.le_of_lt hp) hf hfp
  exact ⟨nonneg_maxNum _, maxNum_le (by decide) (isNaN_or_sub_le (by decide) hdecay)⟩

theorem Sane.isNaN_increment_iff (h : p.Sane) {error relax : Scalar} (he : error.isNaN = false)
    (hr : Share relax) : (p.increment error relax).isNaN = true ↔
      (¬error.isFinite = true ∧ p.gains.ki.value = 0) ∨
        (¬Float32.isFinite (p.gains.ki * error) = true ∧ relax.value = 0) := by
  obtain ⟨hfp, hp⟩ := isPositive_iff.mp h.period
  have hperiod : p.period.value ≠ 0 := (lt_iff.mp hp).2.2.ne'
  have hki : p.gains.ki.isFinite = true := by
    have hvalid := h.gains
    rw [Gains.isValid, Bool.and_eq_true, Bool.and_eq_true] at hvalid
    exact (isNonneg_iff.mp hvalid.1.2).1
  have hproduct : Float32.isNaN (p.gains.ki * error) = true ↔
      ¬error.isFinite = true ∧ p.gains.ki.value = 0 := by
    rw [isNaN_iff, mul_comm_form, ← isNaN_iff, isNaN_mul_finite_iff hki, he]
    simp
  rw [increment, isNaN_mul_finite_iff hfp, isNaN_mul_finite_iff hr.isFinite, hproduct]
  simp [hperiod]

theorem Sane.isNaN_integrated_iff (h : p.Sane) (hi : p.integral.isFinite = true)
    {error relax : Scalar} (he : error.isNaN = false) (hr : Share relax) :
    (p.integrated error relax).isNaN = true ↔ p.saturated error = false ∧
      ((¬error.isFinite = true ∧ p.gains.ki.value = 0) ∨
        (¬Float32.isFinite (p.gains.ki * error) = true ∧ relax.value = 0)) := by
  unfold integrated
  cases hsaturated : p.saturated error with
  | true =>
    rw [if_pos rfl, isNaN_of_isFinite hi]
    exact iff_of_false Bool.false_ne_true fun hfree => by cases hfree.1
  | false =>
    rw [if_neg Bool.false_ne_true, isNaN_finite_add_iff hi, h.isNaN_increment_iff he hr]
    exact (and_iff_right rfl).symm

/-- Only an infinity that is multiplied by zero makes a finite integral no number. -/
theorem Sane.isNaN_accumulate_iff (h : p.Sane) (hi : p.integral.isFinite = true)
    {error relax : Scalar} (he : error.isNaN = false) (hr : Share relax) (onGround : Bool) :
    (p.accumulate error relax onGround).isNaN = true ↔ p.Loses error relax onGround := by
  have hintegrated := h.isNaN_integrated_iff hi he hr
  have hloses : p.Loses error relax onGround ↔ (p.integrated error relax).isNaN = true ∨
      (onGround = true ∧ ¬(p.integrated error relax).isFinite = true ∧ p.groundShare.value = 0) := by
    rw [hintegrated]
    constructor
    · rintro (⟨hfree, hinfinite, hzero⟩ | ⟨hfree, hinfinite, hzero⟩ | ⟨hground, hinfinite, hzero⟩)
      · exact Or.inl ⟨hfree, Or.inl ⟨hinfinite, hzero⟩⟩
      · exact Or.inl ⟨hfree, Or.inr ⟨hinfinite, hzero⟩⟩
      · exact Or.inr ⟨hground, hinfinite, hzero⟩
    · rintro (⟨hfree, ⟨hinfinite, hzero⟩ | ⟨hinfinite, hzero⟩⟩ | ⟨hground, hinfinite, hzero⟩)
      · exact .error hfree hinfinite hzero
      · exact .product hfree hinfinite hzero
      · exact .sum hground hinfinite hzero
  rw [hloses, accumulate_eq]
  cases onGround with
  | false => simp
  | true => rw [if_pos rfl, isNaN_mul_finite_iff h.groundShare.isFinite, and_iff_right rfl]

/-- What is no number stays none. -/
theorem isNaN_accumulate (hi : p.integral.isNaN = true) (error relax : Scalar) (onGround : Bool) :
    (p.accumulate error relax onGround).isNaN = true := by
  have hintegrated : (p.integrated error relax).isNaN = true := by
    unfold integrated
    split_ifs
    · exact hi
    · exact isNaN_add_left hi _
  rw [accumulate_eq]
  split_ifs
  · exact isNaN_mul_left hintegrated _
  · exact hintegrated

end

/-! ## Calls -/

theorem perform_update {p : RatePid} (h : 0.0 ≤ p.config.integralLimit)
    (setpoint measurement : Scalar) (context : PidContext) :
    ∃ q, p.perform (.update setpoint measurement context) = .ok q ∧ q.gains = p.gains ∧
      q.config = p.config ∧ q.period = p.period ∧ q.average = (relax p.average setpoint).1 ∧
      q.integral = limit (-p.config.integralLimit) p.config.integralLimit
        (p.accumulate (setpoint - measurement) (relax p.average setpoint).2 context.onGround) := by
  have hclamp := clamp_eq_ok (neg_le_self h) (p.accumulate (setpoint - measurement)
    (relax p.average setpoint).2 context.onGround)
  exact ⟨_, bind_eq_ok.mpr ⟨_, bind_eq_ok.mpr ⟨_, hclamp, rfl⟩, rfl⟩, rfl, rfl, rfl, rfl, rfl⟩

/-- The controller after a proper call to one that was built with the given configuration. -/
structure Reached (c : RatePidConfig) (dt : Scalar) (p : RatePid) : Prop extends p.Sane where
  config_eq : p.config = c
  period_eq : p.period = dt
  held : p.integral.isNaN = false →
    -c.integralLimit ≤ p.integral ∧ p.integral ≤ c.integralLimit

/-- The call is a tick that multiplies an infinity by zero. -/
def LosesAt (p : RatePid) : Call → Prop
  | .update setpoint measurement context =>
    p.Loses (setpoint - measurement) (relax p.average setpoint).2 context.onGround
  | .gains _ | .reset => False

/-- Since the latest reset, one of the calls was a tick that multiplied an infinity by zero. -/
def Lost (start : RatePid) (calls : List Call) : Prop :=
  ∃ before call rest p, calls = before ++ call :: rest ∧ start.after before = .ok p ∧
    p.LosesAt call ∧ .reset ∉ rest

theorem lost_concat {start q : RatePid} {calls : List Call} (hq : start.after calls = .ok q)
    (call : Call) : start.Lost (calls ++ [call]) ↔
      (start.Lost calls ∧ call ≠ .reset) ∨ q.LosesAt call := by
  constructor
  · rintro ⟨before, lossy, rest, p, hcalls, hp, hloses, hrest⟩
    rcases List.eq_nil_or_concat' rest with rfl | ⟨rest, last, rfl⟩
    · obtain ⟨rfl, hlast⟩ := List.append_inj' hcalls rfl
      cases hlast
      cases hq.symm.trans hp
      exact Or.inr hloses
    · rw [← List.cons_append, ← List.append_assoc] at hcalls
      obtain ⟨rfl, hlast⟩ := List.append_inj' hcalls rfl
      cases hlast
      rw [List.mem_append, not_or] at hrest
      refine Or.inl ⟨⟨before, lossy, rest, p, rfl, hp, hloses, hrest.1⟩, ?_⟩
      rintro rfl
      exact hrest.2 (List.mem_singleton_self _)
  · rintro (⟨⟨before, lossy, rest, p, rfl, hp, hloses, hrest⟩, hcall⟩ | hloses)
    · refine ⟨before, lossy, rest ++ [call], p, by simp, hp, hloses, ?_⟩
      simp [hrest, hcall.symm]
    · exact ⟨calls, call, [], q, rfl, hq, hloses, List.not_mem_nil⟩

section

variable {c : RatePidConfig} {dt : Scalar} {p q : RatePid} {call : Call} {a b : ℕ}

theorem Reached.isFinite_integral (h : Reached c dt p) (hi : p.integral.isNaN = false) :
    p.integral.isFinite = true := by
  obtain ⟨hf, -⟩ := isNonneg_iff.mp h.limit
  rw [h.config_eq] at hf
  exact isFinite_of_mem (by rwa [isFinite_neg]) hf (h.held hi).1 (h.held hi).2

/-- What a proper call does to the integral: unless it resets it, it leaves what is no number, and
it makes no number of one exactly if it loses it. -/
theorem Reached.perform (h : Reached c dt p) (hcall : call.Proper) :
    ∃ q, p.perform call = .ok q ∧ Reached c dt q ∧ (q.integral.isNaN = true ↔
      (p.integral.isNaN = true ∧ call ≠ .reset) ∨ p.LosesAt call) := by
  have hlimit : -c.integralLimit ≤ c.integralLimit := by
    rw [← h.config_eq]
    exact neg_le_self (isNonneg_iff.mp h.limit).2
  cases call with
  | reset =>
    have h0 : 0.0 ≤ c.integralLimit := h.config_eq ▸ (isNonneg_iff.mp h.limit).2
    refine ⟨p.resetIntegral, rfl, ⟨⟨h.gains, h.limit, h.leak, h.period, h.average⟩, h.config_eq,
      h.period_eq, fun _ => ⟨neg_le_zero h0, h0⟩⟩, iff_of_false (Bool.eq_false_iff.mp isNaN_zero) ?_⟩
    rintro (⟨-, hne⟩ | hloses)
    · exact hne rfl
    · exact hloses
  | gains g =>
    exact ⟨{ p with gains := g }, rfl, ⟨⟨hcall, h.limit, h.leak, h.period, h.average⟩, h.config_eq,
      h.period_eq, h.held⟩, by simp [LosesAt]⟩
  | update setpoint measurement context =>
    obtain ⟨hs, hm⟩ := hcall
    obtain ⟨hshare, haverage⟩ := h.relax hs
    obtain ⟨q, hq, hgains, hconfig, hperiod, hfilter, hintegral⟩ :=
      perform_update (isNonneg_iff.mp h.limit).2 setpoint measurement context
    rw [h.config_eq] at hconfig hintegral
    refine ⟨q, hq, ⟨⟨hgains ▸ h.gains, ?_, ?_, hperiod ▸ h.period, hfilter ▸ haverage⟩, hconfig,
      hperiod.trans h.period_eq, ?_⟩, ?_⟩
    · rw [hconfig, ← h.config_eq]
      exact h.limit
    · rw [hconfig, ← h.config_eq]
      exact h.leak
    · intro hn
      rw [hintegral, isNaN_limit hlimit] at hn
      rw [hintegral]
      exact limit_mem hlimit hn
    · rw [hintegral, isNaN_limit hlimit]
      cases hi : p.integral.isNaN with
      | true =>
        exact iff_of_true (isNaN_accumulate hi _ _ _) (Or.inl ⟨rfl, fun h => by cases h⟩)
      | false =>
        rw [h.isNaN_accumulate_iff (h.isFinite_integral hi) (rounds_sub hs hm).isNaN hshare]
        simp [LosesAt]

theorem reached_after {start : RatePid} (h : Reached c dt start)
    (hi : start.integral.isNaN = false) {calls : List Call} (hcalls : ∀ call ∈ calls, call.Proper) :
    ∃ q, start.after calls = .ok q ∧ Reached c dt q ∧
      (q.integral.isNaN = true ↔ start.Lost calls) := by
  induction calls using List.reverseRecOn with
  | nil =>
    refine ⟨start, rfl, h, iff_of_false (by rw [hi]; decide) ?_⟩
    rintro ⟨before, call, rest, p, hcalls, -⟩
    simp at hcalls
  | append_singleton calls call ih =>
    rw [List.forall_mem_append, List.forall_mem_singleton] at hcalls
    obtain ⟨p, hp, hreached, hlost⟩ := ih hcalls.1
    obtain ⟨q, hq, hreached', hlost'⟩ := hreached.perform hcalls.2
    refine ⟨q, ?_, hreached', ?_⟩
    · rw [after_concat, hp]
      exact hq
    · rw [hlost', hlost, lost_concat hp]

/-! ## Ordinary sizes -/

theorem within_ki_of_perform (hki : Within a p.gains.ki) (hsized : call.Sized a b)
    (hq : p.perform call = .ok q) : Within a q.gains.ki := by
  cases call with
  | reset | gains g =>
    cases hq
    first | exact hki | exact hsized
  | update setpoint measurement context =>
    obtain ⟨⟨r, output⟩, hr, hrq⟩ := bind_eq_ok.mp hq
    obtain ⟨integral, -, hupdate⟩ := bind_eq_ok.mp hr
    cases hrq
    cases hupdate
    exact hki

/-- Nothing overflows in a tick with values of ordinary size. -/
theorem Reached.not_losesAt (h : Reached c dt p) (hi : p.integral.isNaN = false) (hdt : dt ≤ 1.0)
    (hlimit : Within 126 c.integralLimit) (hab : a + b ≤ 125) (hki : Within a p.gains.ki)
    (hsized : call.Sized a b) : ¬p.LosesAt call := by
  cases call with
  | reset | gains g => exact id
  | update setpoint measurement context =>
    obtain ⟨hs, hm⟩ := hsized
    have herror := hs.sub hm (by omega)
    have hproduct := hki.mul herror (by omega)
    have hperiod : Share p.period :=
      ⟨Scalar.le_of_lt (isPositive_iff.mp h.period).2, h.period_eq ▸ hdt⟩
    have hincrement : Within 126
        (p.increment (setpoint - measurement) (relax p.average setpoint).2) :=
      ((hproduct.mul (h.relax hs.isFinite).1.within (by omega)).mul hperiod.within (by omega)).mono
        (by omega)
    have hintegral : Within 126 p.integral := hlimit.of_mem (h.held hi).1 (h.held hi).2
    have hintegrated : (p.integrated (setpoint - measurement)
        (relax p.average setpoint).2).isFinite = true := by
      unfold integrated
      split_ifs
      · exact hintegral.isFinite
      · exact (hintegral.add hincrement (by decide)).isFinite
    rintro (⟨-, hinfinite, -⟩ | ⟨-, hinfinite, -⟩ | ⟨-, hinfinite, -⟩)
    · exact hinfinite herror.isFinite
    · exact hinfinite hproduct.isFinite
    · exact hinfinite hintegrated

theorem not_lost_of_sized {start : RatePid} (h : Reached c dt start)
    (hi : start.integral.isNaN = false) (hdt : dt ≤ 1.0) (hlimit : Within 126 c.integralLimit)
    (hab : a + b ≤ 125) (hki : Within a start.gains.ki) {calls : List Call}
    (hcalls : ∀ call ∈ calls, call.Proper) (hsized : ∀ call ∈ calls, call.Sized a b) :
    ¬start.Lost calls ∧ ∀ q, start.after calls = .ok q → Within a q.gains.ki := by
  induction calls using List.reverseRecOn with
  | nil =>
    refine ⟨?_, fun q hq => Except.ok.inj hq ▸ hki⟩
    rintro ⟨before, call, rest, p, hempty, -⟩
    simp at hempty
  | append_singleton calls call ih =>
    rw [List.forall_mem_append, List.forall_mem_singleton] at hcalls hsized
    obtain ⟨hkept, hgains⟩ := ih hcalls.1 hsized.1
    obtain ⟨p, hp, hreached, hlost⟩ := reached_after h hi hcalls.1
    have hnumber : p.integral.isNaN = false := by
      rw [← Bool.not_eq_true, hlost]
      exact hkept
    constructor
    · rw [lost_concat hp]
      rintro (⟨hbefore, -⟩ | hloses)
      · exact hkept hbefore
      · exact hreached.not_losesAt hnumber hdt hlimit hab (hgains p hp) hsized.2 hloses
    · intro q hq
      rw [after_concat, hp] at hq
      exact within_ki_of_perform (hgains p hp) hsized.2 hq

end

/-! ## The clamp -/

theorem reached_new {config : RatePidConfig} (hcheck : config.check = .ok ()) {gains : Gains}
    (hgains : gains.isValid = true) {period : Scalar} (hperiod : isPositive period = true) :
    Reached config period (new gains config period) := by
  have hsane := sane_new hcheck hgains hperiod
  have h0 : 0.0 ≤ config.integralLimit := (isNonneg_iff.mp hsane.limit).2
  exact ⟨hsane, rfl, rfl, fun _ => ⟨neg_le_zero h0, h0⟩⟩

/-- After any proper calls to a controller with an accepted configuration, the integral is within
its limit or no number. It is no number exactly if a tick has multiplied an infinity by zero since
the latest reset, which does not happen as long as all values are of ordinary size. -/
theorem integral_after (config : RatePidConfig) (hcheck : config.check = .ok ()) (gains : Gains)
    (hgains : gains.isValid = true) (period : Scalar) (hperiod : isPositive period = true)
    (calls : List Call) (hcalls : ∀ call ∈ calls, call.Proper) :
    ∃ p, (new gains config period).after calls = .ok p ∧
      (p.integral.isNaN = false →
        -config.integralLimit ≤ p.integral ∧ p.integral ≤ config.integralLimit) ∧
      (p.integral.isNaN = true ↔ (new gains config period).Lost calls) ∧
      ∀ a b, a + b ≤ 125 → period ≤ 1.0 → Within 126 config.integralLimit → Within a gains.ki →
        (∀ call ∈ calls, call.Sized a b) → p.integral.isNaN = false := by
  have hnew := reached_new hcheck hgains hperiod
  obtain ⟨p, hp, hreached, hlost⟩ := reached_after hnew isNaN_zero hcalls
  refine ⟨p, hp, hreached.held, hlost, fun a b hab hdt hlimit hki hsized => ?_⟩
  rw [← Bool.not_eq_true, hlost]
  exact (not_lost_of_sized hnew isNaN_zero hdt hlimit hab hki hcalls hsized).1

/-- Spins in both directions and a change of gains between them. -/
def spins : List Call :=
  [.update 20.0 (-15.0) {}, .update (-20.0) 15.0 { onGround := false }, .gains ⟨0.0, 32.0, 0.0⟩,
    .update 20.0 0.0 { onGround := false }]

theorem integral_after_spins : RateControlConfig.tiltAxis.check = .ok () ∧
    Gains.isValid ⟨0.0, 2.0, 0.0⟩ = true ∧ isPositive 0.001 = true ∧
    (∀ call ∈ spins, call.Proper) ∧
    ∃ p, (new ⟨0.0, 2.0, 0.0⟩ RateControlConfig.tiltAxis 0.001).after spins = .ok p ∧
      -1.7 ≤ p.integral ∧ p.integral ≤ 1.7 := by
  have hcheck : RateControlConfig.tiltAxis.check = .ok () := rfl
  have hgains : Gains.isValid ⟨0.0, 2.0, 0.0⟩ = true := by decide
  have hperiod : isPositive 0.001 = true := by decide
  have hproper : ∀ call ∈ spins, call.Proper := by decide
  obtain ⟨p, hp, hheld, -, hsmall⟩ := integral_after _ hcheck _ hgains _ hperiod spins hproper
  have hbound : Within 5 32.0 := by
    have hform : form 32.0 = .finite .positive (2 ^ 23) (-18) (by decide) := rfl
    exact within_of_form hform (by norm_num)
  have hwithin : ∀ x : Scalar, -32.0 ≤ x → x ≤ 32.0 → Within 5 x := fun x => hbound.of_mem
  have hsized : ∀ call ∈ spins, call.Sized 5 5 := by
    simp only [spins, List.forall_mem_cons, Call.Sized]
    refine ⟨⟨?_, ?_⟩, ⟨?_, ?_⟩, hbound, ⟨?_, ?_⟩, by simp⟩ <;> exact hwithin _ (by decide) (by decide)
  have hlimit : Within 126 RateControlConfig.tiltAxis.integralLimit :=
    (hwithin _ (by decide) (by decide)).mono (by decide)
  have hnumber := hsmall 5 5 (by decide) (by decide) hlimit (hwithin _ (by decide) (by decide)) hsized
  exact ⟨hcheck, hgains, hperiod, hproper, p, hp, hheld hnumber⟩

/-- A measurement that a gain of two makes infinite, while the setpoint is far from its average: the
integral is no number after it, and it does not become one until it is reset. -/
theorem integral_lost_for_good : RateControlConfig.tiltAxis.check = .ok () ∧
    Gains.isValid ⟨0.0, 2.0, 0.0⟩ = true ∧ ∀ calls : List Call, (∀ call ∈ calls, call.Proper) →
      .reset ∉ calls → ∃ p, (new ⟨0.0, 2.0, 0.0⟩ RateControlConfig.tiltAxis 0.001).after
        (.update 20.0 (-3e38) {} :: calls) = .ok p ∧ p.integral.isNaN = true := by
  have hcheck : RateControlConfig.tiltAxis.check = .ok () := rfl
  have hgains : Gains.isValid ⟨0.0, 2.0, 0.0⟩ = true := by decide
  have hperiod : isPositive 0.001 = true := by decide
  refine ⟨hcheck, hgains, fun calls hcalls hreset => ?_⟩
  have hnew := reached_new hcheck hgains hperiod
  have hproper : Call.Proper (.update 20.0 (-3e38) {}) := by decide +kernel
  have hloses : LosesAt (new ⟨0.0, 2.0, 0.0⟩ RateControlConfig.tiltAxis 0.001)
      (.update 20.0 (-3e38) {}) := by
    refine .product (by decide +kernel) (by decide +kernel) ?_
    exact (le_zero_iff (by decide +kernel)).mp (by decide +kernel)
  obtain ⟨p, hp, -, hlost⟩ := reached_after hnew isNaN_zero
    (List.forall_mem_cons.mpr ⟨hproper, hcalls⟩)
  exact ⟨p, hp, hlost.mpr ⟨[], _, calls, _, List.nil_append _, rfl, hloses, hreset⟩⟩

end RatePid

end Quadrotor

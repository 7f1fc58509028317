import Mathlib
import Quadrotor.Proofs.Control.Carryover
import Quadrotor.Proofs.Control.IntegralClamp

/-!
# What the derivative terms depend on

The derivative of a rate controller acts on the filtered measurement, so no setpoint has a part in
it. Of all that reaches the three controllers, the derivative term of an axis depends on the
measurements and the derivative gains of that axis, on the scale of the outputs and on whether the
axis is leveled.
-/

namespace Quadrotor

/-- What the derivative term of a controller is made from, and the term itself. -/
structure Slope where
  gain : Scalar
  period : Scalar
  /-- The latest filtered measurement. -/
  previous : Option Scalar
  filter : List (Lowpass Scalar)
  term : Scalar

/-- One more measurement. -/
def Slope.measure (s : Slope) (measurement outputScale : Scalar) : Slope :=
  let (filter, filtered) := Lowpass.updateAll s.filter measurement
  { s with
    previous := some filtered
    filter := filter
    term := -s.gain * (filtered - s.previous.getD filtered) / s.period * outputScale }

namespace RatePid

def slope (p : RatePid) : Slope where
  gain := p.gains.kd
  period := p.period
  previous := p.prevMeasurement
  filter := p.derivativeFilter
  term := p.terms.derivative

theorem update_slope {p q : RatePid} {setpoint measurement output : Scalar} {context : PidContext}
    (h : p.update setpoint measurement context = .ok (q, output)) :
    q.slope = p.slope.measure measurement context.outputScale := by
  obtain ⟨integral, -, hq⟩ := bind_eq_ok.mp h
  rw [← (Prod.mk.inj (Except.ok.inj hq)).1]
  rfl

/-! ## One controller and two histories of setpoints -/

/-- The calls differ at most in a setpoint. -/
inductive Call.Agree : Call → Call → Prop
  | update (setpoint setpoint' measurement : Scalar) (context : PidContext) :
    Agree (update setpoint measurement context) (update setpoint' measurement context)
  | gains (g : Gains) : Agree (gains g) (gains g)
  | reset : Agree reset reset

/-- The controllers make the same of a measurement, and both are aborted or neither. -/
structure SameSlope (p q : RatePid) : Prop where
  slope : p.slope = q.slope
  limit : p.config.integralLimit = q.config.integralLimit

/-- Whether an update is aborted depends on the limit of the integral alone. -/
theorem update_outcome (p : RatePid) (setpoint measurement : Scalar) (context : PidContext) :
    if -p.config.integralLimit ≤ p.config.integralLimit then
      ∃ q output, p.update setpoint measurement context = .ok (q, output) ∧ q.config = p.config
    else p.update setpoint measurement context = .error .invalidBounds := by
  split_ifs with hlimit
  · exact ⟨_, _, bind_eq_ok.mpr ⟨_, Scalar.clamp_eq_ok hlimit _, rfl⟩, rfl⟩
  · have habort : ∀ x, Scalar.clamp (-p.config.integralLimit) p.config.integralLimit x =
        .error .invalidBounds := fun x => if_neg hlimit
    simp only [update, habort]
    rfl

theorem SameSlope.perform {p q : RatePid} {call call' : Call} (h : p.SameSlope q)
    (hcalls : call.Agree call') :
    (p.perform call = .error .invalidBounds ∧ q.perform call' = .error .invalidBounds) ∨
      ∃ p' q', p.perform call = .ok p' ∧ q.perform call' = .ok q' ∧ p'.SameSlope q' := by
  cases hcalls with
  | gains g =>
    exact .inr ⟨_, _, rfl, rfl, congrArg (fun s => { s with gain := g.kd }) h.slope, h.limit⟩
  | reset => exact .inr ⟨_, _, rfl, rfl, h.slope, h.limit⟩
  | update setpoint setpoint' measurement context =>
    have hp := p.update_outcome setpoint measurement context
    have hq := q.update_outcome setpoint' measurement context
    rw [← h.limit] at hq
    split_ifs at hp hq with hlimit
    · obtain ⟨p', output, hp, hconfig⟩ := hp
      obtain ⟨q', output', hq, hconfig'⟩ := hq
      refine .inr ⟨p', q', bind_eq_ok.mpr ⟨_, hp, rfl⟩, bind_eq_ok.mpr ⟨_, hq, rfl⟩, ?_, ?_⟩
      · rw [update_slope hp, update_slope hq, h.slope]
      · rw [hconfig, hconfig', h.limit]
    · refine .inl ⟨?_, ?_⟩
      · rw [RatePid.perform, hp]
        rfl
      · rw [RatePid.perform, hq]
        rfl

theorem SameSlope.after {p q : RatePid} {calls calls' : List Call} (h : p.SameSlope q)
    (hcalls : List.Forall₂ Call.Agree calls calls') :
    (p.after calls).map (fun s => s.terms.derivative) =
      (q.after calls').map fun s => s.terms.derivative := by
  induction hcalls generalizing p q with
  | nil => exact congrArg (fun s : Slope => Except.ok s.term) h.slope
  | cons hcall _ ih =>
    simp only [RatePid.after, List.foldlM_cons]
    rcases h.perform hcall with ⟨hp, hq⟩ | ⟨p', q', hp, hq, hnext⟩
    · rw [hp, hq]
      rfl
    · rw [hp, hq]
      exact ih hnext

end RatePid

/-! ## One axis of the controllers -/

/-- What the derivative term of an axis is made from. -/
structure Slope.Shared extends Slope where
  outputScale : Scalar
  attenuation : Scalar

/-- What reaches the derivative term of an axis. -/
inductive Slope.Event where
  | scale (outputScale : Scalar)
  | gain (kd : Scalar)
  | measured (leveling : Bool) (measurement : Scalar)

/-- One more event. -/
def Slope.Shared.note (s : Slope.Shared) : Slope.Event → Slope.Shared
  | .scale outputScale => { s with outputScale := outputScale }
  | .gain kd => { s with gain := kd }
  | .measured leveling measurement =>
    { s with
      toSlope := s.measure measurement
        (if leveling then s.outputScale * s.attenuation else s.outputScale) }

namespace RateController

/-- The events that a call brings to an axis. No setpoint is among them, and nothing of another
axis. -/
def Call.events (a : Axis) : Call → List Slope.Event
  | prepare outputScale _ => [.scale (if outputScale.isFinite then outputScale else 1.0)]
  | gains new => [.gain (new.get a).kd]
  | axis b mode _ measured => if b = a then [.measured mode.isLeveling measured] else []
  | all mode _ measured => [.measured mode.isLeveling (measured.get a)]
  | reset => []

def slope (r : RateController) (a : Axis) : Slope.Shared where
  toSlope := (r.pids.get a).slope
  outputScale := r.context.outputScale
  attenuation := r.attenuation

section

variable {r s : RateController} {a : Axis}

theorem updateAxis_slope {axis : Axis} {mode : FlightMode} {setpoint measured x : Scalar}
    (h : r.updateAxis axis mode setpoint measured = .ok (s, x)) :
    s.slope a = if axis = a then (r.slope a).note (.measured mode.isLeveling measured)
      else r.slope a := by
  obtain ⟨⟨q, y⟩, hupdate, hs⟩ := bind_eq_ok.mp h
  rw [← (Prod.mk.inj (Except.ok.inj hs)).1]
  simp only [slope, Triple.get_set]
  split_ifs with ha
  · subst ha
    rw [RatePid.update_slope hupdate, contextIn]
    cases mode.isLeveling <;> rfl
  · rfl

theorem perform_slope {call : Call} {now : List Scalar} (h : r.perform call = .ok (s, now)) :
    s.slope a = (call.events a).foldl Slope.Shared.note (r.slope a) := by
  cases call with
  | prepare outputScale onGround =>
    obtain ⟨rfl, -⟩ := Prod.mk.inj (Except.ok.inj h)
    rfl
  | reset =>
    obtain ⟨rfl, -⟩ := Prod.mk.inj (Except.ok.inj h)
    cases a <;> rfl
  | gains new =>
    obtain ⟨rfl, -⟩ := Prod.mk.inj (Except.ok.inj h)
    cases a <;> rfl
  | axis axis mode setpoint measured =>
    obtain ⟨⟨r1, x⟩, h1, hs⟩ := bind_eq_ok.mp h
    obtain ⟨rfl, -⟩ := Prod.mk.inj (Except.ok.inj hs)
    rw [updateAxis_slope h1, Call.events]
    split_ifs <;> rfl
  | all mode setpoints measured =>
    obtain ⟨⟨r1, t⟩, hupdate, hs⟩ := bind_eq_ok.mp h
    obtain ⟨rfl, -⟩ := Prod.mk.inj (Except.ok.inj hs)
    obtain ⟨⟨b, x⟩, hb, hrest⟩ := bind_eq_ok.mp hupdate
    obtain ⟨⟨d, y⟩, hd, hrest⟩ := bind_eq_ok.mp hrest
    obtain ⟨⟨e, z⟩, he, hrest⟩ := bind_eq_ok.mp hrest
    obtain ⟨rfl, -⟩ := Prod.mk.inj (Except.ok.inj hrest)
    rw [updateAxis_slope he, updateAxis_slope hd, updateAxis_slope hb]
    cases a <;> rfl

/-- The derivative term of an axis is told by what reached it. -/
theorem after_slope {calls : List Call} (h : r.after calls = .ok s) :
    s.slope a = (calls.flatMap (Call.events a)).foldl Slope.Shared.note (r.slope a) := by
  induction calls generalizing r with
  | nil => rw [← Except.ok.inj h]; rfl
  | cons call calls ih =>
    obtain ⟨⟨r', now⟩, hperform, hrest⟩ := bind_eq_ok.mp h
    rw [ih hrest, perform_slope hperform, List.flatMap_cons, List.foldl_append]

end

/-- No setpoint has a part in a derivative term. A controller reports the same derivative term in two
histories that differ in setpoints only, or is aborted in both; and with all axes in use, the term of
an axis is the same in any two histories that brought the same events to this axis. Controllers that
are ready are not aborted. -/
theorem derivative_of_measurements :
    (∀ (p : RatePid) (calls calls' : List RatePid.Call),
      List.Forall₂ RatePid.Call.Agree calls calls' →
      (p.after calls).map (fun q => q.terms.derivative) =
        (p.after calls').map fun q => q.terms.derivative) ∧
    (∀ (a : Axis) (r r' s s' : RateController) (calls calls' : List Call), r.slope a = r'.slope a →
      calls.flatMap (Call.events a) = calls'.flatMap (Call.events a) →
      r.after calls = .ok s → r'.after calls' = .ok s' →
      (s.pids.get a).terms.derivative = (s'.pids.get a).terms.derivative) ∧
    ∀ r : RateController, r.Ready → ∀ calls, ∃ s, r.after calls = .ok s := by
  refine ⟨fun p calls calls' hcalls => ?_, fun a r r' s s' calls calls' hr hcalls hs hs' => ?_,
    fun r hr calls => ?_⟩
  · have hsame : p.SameSlope p := ⟨rfl, rfl⟩
    exact hsame.after hcalls
  · have hslope : s.slope a = s'.slope a := by rw [after_slope hs, after_slope hs', hr, hcalls]
    exact congrArg (fun t => t.term) hslope
  · obtain ⟨s, hs, -⟩ := after_ok hr calls
    exact ⟨s, hs⟩

/-- The motion of `RatePid.spins` with centred sticks. -/
def shoved : List RatePid.Call :=
  [.update 0.0 (-15.0) {}, .update 0.0 15.0 { onGround := false }, .gains ⟨0.0, 32.0, 0.0⟩,
    .update 0.0 0.0 { onGround := false }]

/-- Rolling as the sticks ask for, with a reset on the way. -/
def steered : List Call :=
  [.prepare 1.0 false, .all .angle ⟨20.0, 5.0, 0.0⟩ ⟨1.0, 2.0, 3.0⟩, .reset,
    .axis .roll .acro 20.0 4.0]

/-- The same roll without a stick, while pitch and yaw move otherwise. -/
def adrift : List Call :=
  [.prepare 1.0 true, .all .horizon ⟨0.0, 0.0, 0.0⟩ ⟨1.0, -9.0, 30.0⟩, .axis .yaw .race 2.0 6.0,
    .all .acro ⟨0.0, 0.0, 0.0⟩ ⟨4.0, 7.0, 8.0⟩]

theorem derivative_of_measurements_adrift :
    List.Forall₂ RatePid.Call.Agree RatePid.spins shoved ∧
    ((RatePid.new ⟨0.1, 2.0, 0.004⟩ RateControlConfig.tiltAxis 0.001).after RatePid.spins).map
        (fun q => q.terms.derivative) =
      ((RatePid.new ⟨0.1, 2.0, 0.004⟩ RateControlConfig.tiltAxis 0.001).after shoved).map
        (fun q => q.terms.derivative) ∧
    steered.flatMap (Call.events .roll) = adrift.flatMap (Call.events .roll) ∧
    ∃ s s', (new .standard (({} : TuningParams).gains .a) 0.9 0.001).after steered = .ok s ∧
      (new .standard (({} : TuningParams).gains .a) 0.9 0.001).after adrift = .ok s' ∧
      (s.pids.get .roll).terms.derivative = (s'.pids.get .roll).terms.derivative := by
  obtain ⟨hone, hevents, hready⟩ := derivative_of_measurements
  have hagree : List.Forall₂ RatePid.Call.Agree RatePid.spins shoved :=
    .cons (.update ..) (.cons (.update ..) (.cons (.gains _) (.cons (.update ..) .nil)))
  have hsame : steered.flatMap (Call.events .roll) = adrift.flatMap (Call.events .roll) := rfl
  have hnew : (new .standard (({} : TuningParams).gains .a) 0.9 0.001).Ready := ready_new rfl _ _ _
  obtain ⟨s, hs⟩ := hready _ hnew steered
  obtain ⟨s', hs'⟩ := hready _ hnew adrift
  exact ⟨hagree, hone _ _ _ hagree, hsame, s, s', hs, hs',
    hevents .roll _ _ s s' steered adrift rfl hsame hs hs'⟩

end RateController

end Quadrotor

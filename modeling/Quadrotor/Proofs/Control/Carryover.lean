import Mathlib
import Quadrotor.Flight.Core
import Quadrotor.Proofs.Control.Limits

/-!
# What a reset leaves

A reset takes the integrals and the latest outputs from the rate controllers. What their filters
remember stays, and so do the gains and the context of the latest tick. So after a reset the
controllers are new ones whose filters have seen the readings of before, and nothing else of the past
has a part in their commands; but the filters do, and a spin before a reset is felt after it.
-/

namespace Quadrotor

/-- What the filters of a controller remember. -/
structure RatePid.Memory where
  measurement : Option Scalar
  derivativeFilter : List (Lowpass Scalar)
  average : Option (WindupProtection × Lowpass Scalar)

namespace RatePid

/-- The memory of a controller that has seen nothing. -/
def Memory.new (config : RatePidConfig) (period : Scalar) : Memory where
  measurement := none
  derivativeFilter := config.derivative.build period
  average := config.windup.map fun w => (w, Lowpass.ofCutoff w.cutoff period)

/-- The memory after one more reading, a setpoint and a measurement. -/
def Memory.note (m : Memory) (reading : Scalar × Scalar) : Memory where
  measurement := some (Lowpass.updateAll m.derivativeFilter reading.2).2
  derivativeFilter := (Lowpass.updateAll m.derivativeFilter reading.2).1
  average := (relax m.average reading.1).1

def memory (p : RatePid) : Memory := ⟨p.prevMeasurement, p.derivativeFilter, p.average⟩

def withMemory (p : RatePid) (m : Memory) : RatePid :=
  { p with
    prevMeasurement := m.measurement
    derivativeFilter := m.derivativeFilter
    average := m.average }

/-- The controller without the terms that it reports. -/
def untold (p : RatePid) : RatePid := { p with terms := {} }

/-- The reported terms have no part in the next tick. -/
theorem update_untold (p : RatePid) (setpoint measurement : Scalar) (context : PidContext) :
    p.untold.update setpoint measurement context = p.update setpoint measurement context := rfl

/-- A tick adds its reading to what a reset would leave, and nothing else. -/
theorem update_residue {p q : RatePid} {setpoint measurement output : Scalar} {context : PidContext}
    (h : p.update setpoint measurement context = .ok (q, output)) :
    q.resetIntegral.untold =
      p.resetIntegral.untold.withMemory (p.memory.note (setpoint, measurement)) := by
  obtain ⟨integral, -, hq⟩ := bind_eq_ok.mp h
  rw [← (Prod.mk.inj (Except.ok.inj hq)).1]
  rfl

end RatePid

namespace RateController

/-! ## Uses of the controllers -/

inductive Call where
  | prepare (outputScale : Scalar) (onGround : Bool)
  | gains (gains : Triple Gains)
  | axis (axis : Axis) (mode : FlightMode) (setpoint measured : Scalar)
  | all (mode : FlightMode) (setpoints measured : Triple Scalar)
  | reset

/-- The controllers after a call, and the commands that it returns. -/
def perform (r : RateController) : Call → Checked (RateController × List Scalar)
  | .prepare outputScale onGround => .ok (r.prepare outputScale onGround, [])
  | .gains gains => .ok (r.withGains gains, [])
  | .axis axis mode setpoint measured => do
    let (r, x) ← r.updateAxis axis mode setpoint measured
    return (r, [x])
  | .all mode setpoints measured => do
    let (r, t) ← r.update mode setpoints measured
    return (r, t.toList)
  | .reset => .ok (r.reset, [])

/-- The controllers after some calls. -/
def after (r : RateController) : List Call → Checked RateController
  | [] => .ok r
  | call :: calls => do
    let (r, _) ← r.perform call
    r.after calls

/-- The commands of some calls. -/
def commands (r : RateController) : List Call → Checked (List (List Scalar))
  | [] => .ok []
  | call :: calls => do
    let (r, now) ← r.perform call
    let later ← r.commands calls
    return now :: later

namespace Call

def gainsAfter (present : Triple Gains) : Call → Triple Gains
  | gains new => new
  | prepare _ _ | axis _ _ _ _ | all _ _ _ | reset => present

def contextAfter (present : PidContext) : Call → PidContext
  | prepare outputScale onGround => ⟨if outputScale.isFinite then outputScale else 1.0, onGround⟩
  | gains _ | axis _ _ _ _ | all _ _ _ | reset => present

/-- The setpoints and measurements that a call brings to an axis. -/
def readings (a : Axis) : Call → List (Scalar × Scalar)
  | axis b _ setpoint measured => if b = a then [(setpoint, measured)] else []
  | all _ setpoints measured => [(setpoints.get a, measured.get a)]
  | prepare _ _ | gains _ | reset => []

end Call

/-- New controllers that have been prepared for a tick and whose filters remember something. -/
def recalling (config : RateControlConfig) (gains : Triple Gains) (attenuation period : Scalar)
    (context : PidContext) (memory : Axis → RatePid.Memory) : RateController where
  pids := .ofFn fun a => (RatePid.new (gains.get a) (config.get a) period).withMemory (memory a)
  context := context
  attenuation := attenuation

/-- What the filters of an axis remember after some calls to new controllers. -/
def remembered (config : RateControlConfig) (period : Scalar) (calls : List Call) (a : Axis) :
    RatePid.Memory :=
  (calls.flatMap (Call.readings a)).foldl RatePid.Memory.note (.new (config.get a) period)

/-! ## Nothing is aborted -/

theorem perform_ok {r : RateController} (h : r.Ready) (call : Call) :
    ∃ s now, r.perform call = .ok (s, now) ∧ s.Ready := by
  cases call with
  | prepare => exact ⟨_, _, rfl, h⟩
  | gains gains => exact ⟨_, _, rfl, h.withGains gains⟩
  | reset => exact ⟨_, _, rfl, h.reset⟩
  | axis axis mode setpoint measured =>
    obtain ⟨s, x, hs, hready⟩ := updateAxis_ok h axis mode setpoint measured
    exact ⟨s, [x], bind_eq_ok.mpr ⟨_, hs, rfl⟩, hready⟩
  | all mode setpoints measured =>
    obtain ⟨s, t, hs, hready⟩ := update_ok h mode setpoints measured
    exact ⟨s, t.toList, bind_eq_ok.mpr ⟨_, hs, rfl⟩, hready⟩

theorem after_ok {r : RateController} (h : r.Ready) (calls : List Call) :
    ∃ s, r.after calls = .ok s ∧ s.Ready := by
  induction calls generalizing r with
  | nil => exact ⟨r, rfl, h⟩
  | cons call calls ih =>
    obtain ⟨s, now, hs, hready⟩ := perform_ok h call
    obtain ⟨t, ht, hlast⟩ := ih hready
    exact ⟨t, bind_eq_ok.mpr ⟨_, hs, ht⟩, hlast⟩

theorem commands_ok {r : RateController} (h : r.Ready) (calls : List Call) :
    ∃ commands, r.commands calls = .ok commands := by
  induction calls generalizing r with
  | nil => exact ⟨[], rfl⟩
  | cons call calls ih =>
    obtain ⟨s, now, hs, hready⟩ := perform_ok h call
    obtain ⟨later, hlater⟩ := ih hready
    exact ⟨now :: later, bind_eq_ok.mpr ⟨_, hs, bind_eq_ok.mpr ⟨_, hlater, rfl⟩⟩⟩

/-! ## The reported terms have no part in the commands -/

/-- The controllers without the terms that they report. -/
def untold (r : RateController) : RateController := { r with pids := r.pids.map RatePid.untold }

theorem get_of_untold_eq {r s : RateController} (h : r.untold = s.untold) (a : Axis) :
    (r.pids.get a).untold = (s.pids.get a).untold := by
  have hpids : r.pids.map RatePid.untold = s.pids.map RatePid.untold :=
    congrArg RateController.pids h
  have hget := congrArg (fun t => t.get a) hpids
  simpa only [Triple.get_map] using hget

theorem untold_ext {r s : RateController} (hcontext : r.context = s.context)
    (hattenuation : r.attenuation = s.attenuation)
    (hpids : ∀ a, (r.pids.get a).untold = (s.pids.get a).untold) : r.untold = s.untold := by
  have hmap : r.pids.map RatePid.untold = s.pids.map RatePid.untold :=
    Triple.ext_get fun a => by rw [Triple.get_map, Triple.get_map, hpids a]
  simp only [untold, hmap, hcontext, hattenuation]

theorem updateAxis_congr {r s r' : RateController} {axis : Axis} {mode : FlightMode}
    {setpoint measured x : Scalar} (h : r.untold = s.untold)
    (hr : r.updateAxis axis mode setpoint measured = .ok (r', x)) :
    ∃ s', s.updateAxis axis mode setpoint measured = .ok (s', x) ∧ r'.untold = s'.untold := by
  obtain ⟨⟨q, y⟩, hupdate, hr'⟩ := bind_eq_ok.mp hr
  obtain ⟨rfl, rfl⟩ := Prod.mk.inj (Except.ok.inj hr')
  have hcontext : r.context = s.context := (RateController.mk.inj h).2.1
  have hattenuation : r.attenuation = s.attenuation := (RateController.mk.inj h).2.2
  have hin : r.contextIn mode = s.contextIn mode := by
    rw [contextIn, contextIn, hcontext, hattenuation]
  rw [hin, ← RatePid.update_untold, get_of_untold_eq h axis, RatePid.update_untold] at hupdate
  refine ⟨_, bind_eq_ok.mpr ⟨_, hupdate, rfl⟩, untold_ext hcontext hattenuation fun a => ?_⟩
  simp only [Triple.get_set]
  split_ifs
  · rfl
  · exact get_of_untold_eq h a

theorem perform_congr {r s r' : RateController} {call : Call} {now : List Scalar}
    (h : r.untold = s.untold) (hr : r.perform call = .ok (r', now)) :
    ∃ s', s.perform call = .ok (s', now) ∧ r'.untold = s'.untold := by
  have hcontext : r.context = s.context := (RateController.mk.inj h).2.1
  have hattenuation : r.attenuation = s.attenuation := (RateController.mk.inj h).2.2
  have hpids := get_of_untold_eq h
  cases call with
  | prepare outputScale onGround =>
    obtain ⟨rfl, rfl⟩ := Prod.mk.inj (Except.ok.inj hr)
    exact ⟨_, rfl, untold_ext rfl hattenuation hpids⟩
  | gains gains =>
    obtain ⟨rfl, rfl⟩ := Prod.mk.inj (Except.ok.inj hr)
    refine ⟨_, rfl, untold_ext hcontext hattenuation fun a => ?_⟩
    have hgains := congrArg (fun p : RatePid => { p with gains := gains.get a }) (hpids a)
    simpa [withGains, RatePid.untold] using hgains
  | reset =>
    obtain ⟨rfl, rfl⟩ := Prod.mk.inj (Except.ok.inj hr)
    refine ⟨_, rfl, untold_ext hcontext hattenuation fun a => ?_⟩
    have hreset := congrArg RatePid.resetIntegral (hpids a)
    simpa [reset, RatePid.untold, RatePid.resetIntegral] using hreset
  | axis axis mode setpoint measured =>
    obtain ⟨⟨r1, x⟩, h1, hr'⟩ := bind_eq_ok.mp hr
    obtain ⟨rfl, rfl⟩ := Prod.mk.inj (Except.ok.inj hr')
    obtain ⟨s1, hs1, hsame⟩ := updateAxis_congr h h1
    exact ⟨s1, bind_eq_ok.mpr ⟨_, hs1, rfl⟩, hsame⟩
  | all mode setpoints measured =>
    obtain ⟨⟨r1, t⟩, hupdate, hr'⟩ := bind_eq_ok.mp hr
    obtain ⟨rfl, rfl⟩ := Prod.mk.inj (Except.ok.inj hr')
    obtain ⟨⟨a, x⟩, ha, hrest⟩ := bind_eq_ok.mp hupdate
    obtain ⟨⟨b, y⟩, hb, hrest⟩ := bind_eq_ok.mp hrest
    obtain ⟨⟨d, z⟩, hd, hrest⟩ := bind_eq_ok.mp hrest
    obtain ⟨rfl, rfl⟩ := Prod.mk.inj (Except.ok.inj hrest)
    obtain ⟨a', ha', hsame⟩ := updateAxis_congr h ha
    obtain ⟨b', hb', hsame⟩ := updateAxis_congr hsame hb
    obtain ⟨d', hd', hsame⟩ := updateAxis_congr hsame hd
    have hs : s.update mode setpoints measured = .ok (d', ⟨x, y, z⟩) :=
      bind_eq_ok.mpr ⟨_, ha', bind_eq_ok.mpr ⟨_, hb', bind_eq_ok.mpr ⟨_, hd', rfl⟩⟩⟩
    exact ⟨d', bind_eq_ok.mpr ⟨_, hs, rfl⟩, hsame⟩

theorem commands_congr {r s : RateController} (h : r.untold = s.untold) {calls : List Call}
    {commands : List (List Scalar)} (hr : r.commands calls = .ok commands) :
    s.commands calls = .ok commands := by
  induction calls generalizing r s commands with
  | nil => exact hr
  | cons call calls ih =>
    obtain ⟨⟨r', now⟩, hperform, hrest⟩ := bind_eq_ok.mp hr
    obtain ⟨later, hlater, hcommands⟩ := bind_eq_ok.mp hrest
    obtain ⟨s', hs', hsame⟩ := perform_congr h hperform
    exact bind_eq_ok.mpr ⟨_, hs', bind_eq_ok.mpr ⟨later, ih hsame hlater, hcommands⟩⟩

/-! ## What a reset would leave -/

section Residue

variable {config : RateControlConfig} {gains : Triple Gains} {attenuation period : Scalar}
  {context : PidContext} {memory : Axis → RatePid.Memory} {r s : RateController}

theorem recalling_untold : (recalling config gains attenuation period context memory).untold =
    recalling config gains attenuation period context memory := rfl

theorem residue_iff :
    r.reset.untold = recalling config gains attenuation period context memory ↔
      r.context = context ∧ r.attenuation = attenuation ∧ ∀ a,
        (r.pids.get a).resetIntegral.untold =
          (RatePid.new (gains.get a) (config.get a) period).withMemory (memory a) := by
  constructor
  · intro h
    refine ⟨congrArg RateController.context h, congrArg RateController.attenuation h, fun a => ?_⟩
    have hpids := congrArg (fun t : RateController => t.pids.get a) h
    simpa [untold, reset, recalling] using hpids
  · rintro ⟨rfl, rfl, hpids⟩
    rw [← recalling_untold]
    refine untold_ext rfl rfl fun a => ?_
    simp only [reset, recalling, Triple.get_map, Triple.get_ofFn]
    exact hpids a

theorem updateAxis_residue {axis : Axis} {mode : FlightMode} {setpoint measured x : Scalar}
    (hr : r.reset.untold = recalling config gains attenuation period context memory)
    (h : r.updateAxis axis mode setpoint measured = .ok (s, x)) :
    s.reset.untold = recalling config gains attenuation period context
      (Function.update memory axis ((memory axis).note (setpoint, measured))) := by
  obtain ⟨hcontext, hattenuation, hpids⟩ := residue_iff.mp hr
  obtain ⟨⟨q, y⟩, hupdate, hs⟩ := bind_eq_ok.mp h
  rw [← (Prod.mk.inj (Except.ok.inj hs)).1]
  refine residue_iff.mpr ⟨hcontext, hattenuation, fun a => ?_⟩
  rw [Triple.get_set]
  by_cases ha : axis = a
  · subst ha
    have hmemory : (r.pids.get axis).memory = memory axis := congrArg RatePid.memory (hpids axis)
    rw [if_pos rfl, RatePid.update_residue hupdate, hpids axis, hmemory, Function.update_self]
    rfl
  · rw [if_neg ha, Function.update_of_ne (Ne.symm ha)]
    exact hpids a

/-- A call changes what a reset would leave by the gains, the context and the readings that it
brings. -/
theorem perform_residue {call : Call} {now : List Scalar}
    (hr : r.reset.untold = recalling config gains attenuation period context memory)
    (h : r.perform call = .ok (s, now)) :
    s.reset.untold = recalling config (call.gainsAfter gains) attenuation period
      (call.contextAfter context) fun a => (call.readings a).foldl RatePid.Memory.note (memory a) := by
  obtain ⟨hcontext, hattenuation, hpids⟩ := residue_iff.mp hr
  cases call with
  | prepare outputScale onGround =>
    obtain ⟨rfl, -⟩ := Prod.mk.inj (Except.ok.inj h)
    exact residue_iff.mpr ⟨rfl, hattenuation, hpids⟩
  | reset =>
    obtain ⟨rfl, -⟩ := Prod.mk.inj (Except.ok.inj h)
    refine residue_iff.mpr ⟨hcontext, hattenuation, fun a => ?_⟩
    rw [reset, Triple.get_map]
    exact hpids a
  | gains new =>
    obtain ⟨rfl, -⟩ := Prod.mk.inj (Except.ok.inj h)
    refine residue_iff.mpr ⟨hcontext, hattenuation, fun a => ?_⟩
    rw [withGains, Triple.get_zipWith]
    exact congrArg (fun p : RatePid => { p with gains := new.get a }) (hpids a)
  | axis axis mode setpoint measured =>
    obtain ⟨⟨r1, x⟩, h1, hs⟩ := bind_eq_ok.mp h
    obtain ⟨rfl, -⟩ := Prod.mk.inj (Except.ok.inj hs)
    rw [updateAxis_residue hr h1]
    congr 1
    funext a
    by_cases ha : axis = a
    · subst ha
      simp [Call.readings]
    · simp [Call.readings, ha, Function.update_of_ne (Ne.symm ha)]
  | all mode setpoints measured =>
    obtain ⟨⟨r1, t⟩, hupdate, hs⟩ := bind_eq_ok.mp h
    obtain ⟨rfl, -⟩ := Prod.mk.inj (Except.ok.inj hs)
    obtain ⟨⟨b, x⟩, hb, hrest⟩ := bind_eq_ok.mp hupdate
    obtain ⟨⟨d, y⟩, hd, hrest⟩ := bind_eq_ok.mp hrest
    obtain ⟨⟨e, z⟩, he, hrest⟩ := bind_eq_ok.mp hrest
    obtain ⟨rfl, -⟩ := Prod.mk.inj (Except.ok.inj hrest)
    rw [updateAxis_residue (updateAxis_residue (updateAxis_residue hr hb) hd) he]
    congr 1
    funext a
    cases a <;> rfl

theorem after_residue {calls : List Call}
    (hr : r.reset.untold = recalling config gains attenuation period context memory)
    (h : r.after calls = .ok s) :
    s.reset.untold = recalling config (calls.foldl Call.gainsAfter gains) attenuation period
      (calls.foldl Call.contextAfter context)
      fun a => (calls.flatMap (Call.readings a)).foldl RatePid.Memory.note (memory a) := by
  induction calls generalizing r gains context memory with
  | nil =>
    rw [← Except.ok.inj h]
    exact hr
  | cons call calls ih =>
    obtain ⟨⟨r', now⟩, hperform, hrest⟩ := bind_eq_ok.mp h
    rw [ih (perform_residue hr hperform) hrest]
    simp only [List.foldl_cons, List.flatMap_cons, List.foldl_append]

end Residue

/-- After a reset the controllers command as new ones would that have the present gains and the
present context and whose filters remember the readings; whatever else has been before the reset makes
no difference. The core resets them in exactly those steps that change the arming state. -/
theorem commands_of_reset (config : RateControlConfig) (h : config.check = .ok ())
    (gains : Triple Gains) (attenuation period : Scalar) (before : List Call) :
    (∃ r, (new config gains attenuation period).after before = .ok r ∧
      ∀ calls, ∃ commands, r.reset.commands calls = .ok commands ∧
        (recalling config (before.foldl Call.gainsAfter gains) attenuation period
          (before.foldl Call.contextAfter {}) (remembered config period before)).commands calls
            = .ok commands) ∧
    ∀ (c : FlightCore) (input : ArmingInput), (c.decide input).1.controller =
      if (c.decide input).2.1.state = c.arming.state then c.controller else c.controller.reset := by
  refine ⟨?_, fun c input => ?_⟩
  · obtain ⟨r, hr, hready⟩ := after_ok (ready_new h gains attenuation period) before
    have hnew : (new config gains attenuation period).reset.untold = recalling config gains
        attenuation period {} fun a => .new (config.get a) period :=
      residue_iff.mpr ⟨rfl, rfl, fun a => by rw [new, Triple.get_zipWith]; rfl⟩
    have hresidue := after_residue hnew hr
    refine ⟨r, hr, fun calls => ?_⟩
    obtain ⟨commands, hcommands⟩ := commands_ok hready.reset calls
    exact ⟨commands, hcommands, commands_congr (hresidue.trans recalling_untold.symm) hcommands⟩
  · unfold FlightCore.decide Arming.update
    simp only [bne_iff_ne, ne_eq]
    split_ifs <;> rfl

/-- Rolling fast, in one reading. -/
def spin : List Call := [.axis .roll .acro 0.0 20.0]

/-- The first tick of a flight, at rest. -/
def takeoff : List Call := [.prepare 1.0 true, .axis .roll .acro 0.0 0.0]

theorem commands_of_reset_spin : RateControlConfig.standard.check = .ok () ∧ ∃ r,
    (new .standard (({} : TuningParams).gains .a) 0.9 0.001).after spin = .ok r ∧
      ∃ commands, r.reset.commands takeoff = .ok commands ∧
        (recalling .standard (({} : TuningParams).gains .a) 0.9 0.001 {}
          (remembered .standard 0.001 spin)).commands takeoff = .ok commands := by
  have hcheck : RateControlConfig.standard.check = .ok () := rfl
  obtain ⟨⟨r, hr, hcommands⟩, -⟩ :=
    commands_of_reset .standard hcheck (({} : TuningParams).gains .a) 0.9 0.001 spin
  exact ⟨hcheck, r, hr, hcommands takeoff⟩

/-- The bits of some commands. -/
def bits (commands : Checked (List (List Scalar))) : Option (List (List UInt32)) :=
  commands.toOption.map (List.map (List.map Float32.toBits))

/-- New controllers command nothing at rest. After a spin and a reset they command -1.495, because the
filters have yet to see that the spin is over. -/
theorem spin_felt_after_reset : RateControlConfig.standard.check = .ok () ∧
    (({} : TuningParams).gains .a).all Gains.isValid = true ∧
    bits ((new .standard (({} : TuningParams).gains .a) 0.9 0.001).commands takeoff) =
      some [[], [0x00000000]] ∧
    bits (do
      let r ← (new .standard (({} : TuningParams).gains .a) 0.9 0.001).after spin
      r.reset.commands takeoff) = some [[], [0xbfbf6a25]] := by
  refine ⟨rfl, ?_, ?_, ?_⟩ <;> decide +kernel

end RateController

end Quadrotor

import Mathlib
import Quadrotor.Proofs.Tuning.NamedAccess

/-!
# Effects of gesture actions

An action changes what it is named for: a flag, the selected gains of one profile, or the selection.
Which gains are selected is what the actions before have made of the selection, so the effect of a
gesture is told by the whole history. Over a history the generation counts the changes, the selection
goes round with the actions that move it, and a parameter that no step names or selects keeps its value.
-/

namespace Quadrotor

namespace TuningStep

/-- The step applies the action. -/
def applies (action : GestureAction) : TuningStep → Bool
  | .set .. => false
  | .apply action' _ => action' = action

/-- How many of the steps apply the action. -/
def uses (action : GestureAction) (steps : List TuningStep) : Nat := steps.countP (applies action)

theorem uses_cons (action : GestureAction) (step : TuningStep) (rest : List TuningStep) :
    uses action (step :: rest) = uses action rest + uses action [step] := by
  rw [uses, ← List.singleton_append, List.countP_append, Nat.add_comm]
  rfl

end TuningStep

namespace TuningTable

variable {t : TuningTable} {action : GestureAction} {profile : Profile} {n : ParamName}

/-! ## Selected gains -/

/-- The gain is of the profile and of the selected term, and of yaw exactly if yaw is selected. -/
def Selects (t : TuningTable) (profile : Profile) (n : ParamName) : Prop :=
  ∃ axis, n = .gain profile axis t.term ∧ (axis = .yaw ↔ t.group = .yaw)

theorem mem_axes_iff {group : TuneGroup} {axis : Axis} :
    axis ∈ group.axes ↔ (axis = .yaw ↔ group = .yaw) := by
  cases group <;> cases axis <;> decide

/-- In the set `p` the selected gains are those of `t` multiplied by a factor, and all else is as in
`t`. -/
structure Scaled (t : TuningTable) (profile : Profile) (factor : Scalar) (p : TuningParams) :
    Prop where
  selected : ∀ n, t.Selects profile n → p.value n = t.params.value n * factor
  other : ∀ n, ¬t.Selects profile n → p.value n = t.params.value n

theorem scaled_scale (t : TuningTable) (profile : Profile) (factor : Scalar) :
    t.Scaled profile factor (t.scale profile factor).params where
  selected := by
    rintro n ⟨axis, rfl, haxis⟩
    rw [value_scale, if_pos ⟨rfl, mem_axes_iff.mpr haxis, rfl⟩]
  other n h := by
    rcases t.value_scale_cases profile factor n with hsame | ⟨axis, haxis, rfl, -⟩
    · exact hsame
    · exact absurd ⟨axis, rfl, mem_axes_iff.mp haxis⟩ h

theorem increase_eq : 1.0 + gainStep = 1.1 := by decide +kernel

theorem decrease_eq : 1.0 - gainStep = 0.9 := by decide +kernel

/-! ## One action -/

/-- What an action makes of a table and what it reports, where gains are those of the profile. -/
structure Effect (t : TuningTable) (action : GestureAction) (profile : Profile)
    (result : TuningTable × ActionOutcome) : Prop where
  changed_iff : result.2 = .changed ↔
    action ∈ [.toggleLvc, .toggleYawInversion, .increaseGain, .decreaseGain]
  generation : result.1.generation =
    if result.2 = .changed then t.generation + 1 else t.generation
  unchanged : result.2 ≠ .changed → result.1.params = t.params
  toggleLvc : action = .toggleLvc →
    result.1.params = { t.params with lvcEnabled := !t.params.lvcEnabled }
  toggleYawInversion : action = .toggleYawInversion →
    result.1.params = { t.params with yawInverted := !t.params.yawInverted }
  increaseGain : action = .increaseGain → t.Scaled profile 1.1 result.1.params
  decreaseGain : action = .decreaseGain → t.Scaled profile 0.9 result.1.params
  term : action ≠ .nextTerm → result.1.term = t.term
  group : action ≠ .nextAxis → result.1.group = t.group
  nextTerm : action = .nextTerm → (t.term, result.1.term) ∈ [(.p, .i), (.i, .d), (.d, .p)]
  nextAxis : action = .nextAxis →
    (t.group, result.1.group) ∈ [(.rollPitch, .yaw), (.yaw, .rollPitch)]

theorem effect (t : TuningTable) (action : GestureAction) (profile : Profile) :
    t.Effect action profile (t.apply action profile) where
  changed_iff := by cases action <;> simp [apply]
  generation := by cases action <;> rfl
  unchanged h := by
    cases action with
    | saveParams | stickCheckOn | stickCheckOff | nextTerm | nextAxis => rfl
    | toggleLvc | toggleYawInversion | increaseGain | decreaseGain => exact absurd rfl h
  toggleLvc := by rintro rfl; rfl
  toggleYawInversion := by rintro rfl; rfl
  increaseGain := by
    rintro rfl
    rw [← increase_eq]
    exact t.scaled_scale profile _
  decreaseGain := by
    rintro rfl
    rw [← decrease_eq]
    exact t.scaled_scale profile _
  term h := by
    cases action with
    | nextTerm => exact absurd rfl h
    | _ => rfl
  group h := by
    cases action with
    | nextAxis => exact absurd rfl h
    | _ => rfl
  nextTerm := by
    rintro rfl
    change (t.term, t.term.next) ∈ _
    cases t.term <;> decide
  nextAxis := by
    rintro rfl
    change (t.group, t.group.next) ∈ _
    cases t.group <;> decide

/-! ## Steps -/

/-- The step takes over a value, or is an action that reports a change. -/
def changes (t : TuningTable) : TuningStep → Bool
  | .set name v => (t.set name v).isOk
  | .apply action profile => (t.apply action profile).2 = .changed

/-- The step sets the parameter by name, flips it, or scales it. -/
def Touches (t : TuningTable) : TuningStep → ParamName → Prop
  | .set name _, n => name = n.text
  | .apply .toggleLvc _, n => n = .lvcEnabled
  | .apply .toggleYawInversion _, n => n = .yawInverted
  | .apply .increaseGain profile, n | .apply .decreaseGain profile, n => t.Selects profile n
  | .apply .., _ => False

theorem after_generation (t : TuningTable) (step : TuningStep) :
    (t.after step).generation = if t.changes step then t.generation + 1 else t.generation := by
  cases step with
  | set name v =>
    rw [after, changes, TuningTable.set]
    cases t.params.set name v <;> rfl
  | apply action profile =>
    rw [after, (t.effect action profile).generation]
    simp only [changes, decide_eq_true_eq]

theorem after_selection (t : TuningTable) (step : TuningStep) :
    (t.after step).group = TuneGroup.next^[TuningStep.uses .nextAxis [step]] t.group ∧
    (t.after step).term = Term.next^[TuningStep.uses .nextTerm [step]] t.term := by
  cases step with
  | set name v =>
    rw [after, TuningTable.set]
    cases t.params.set name v <;> exact ⟨rfl, rfl⟩
  | apply action profile => cases action <;> exact ⟨rfl, rfl⟩

/-- Only what a step touches moves. -/
theorem value_after_of_not_touches {step : TuningStep} (h : ¬t.Touches step n) :
    (t.after step).params.value n = t.params.value n := by
  cases step with
  | set name v =>
    cases hset : t.params.set name v with
    | error e => rw [((t.tracks name v).set_error e hset).2]
    | ok q =>
      obtain ⟨-, m, rfl, -, rfl⟩ := TuningParams.exists_put_of_set hset
      have hne : m ≠ n := fun hmn => h (congrArg ParamName.text hmn)
      rw [after, (t.tracks _ v).set_ok _ hset]
      exact (t.params.value_put m n v).trans (if_neg hne)
  | apply action profile =>
    have heffect := t.effect action profile
    change (t.apply action profile).1.params.value n = _
    cases action with
    | toggleLvc => cases n with
      | lvcEnabled => exact absurd rfl h
      | _ => rfl
    | toggleYawInversion => cases n with
      | yawInverted => exact absurd rfl h
      | _ => rfl
    | increaseGain => exact (heffect.increaseGain rfl).other n h
    | decreaseGain => exact (heffect.decreaseGain rfl).other n h
    | _ => rfl

/-! ## Runs -/

/-- How many of the steps change the set. -/
def changesIn (t : TuningTable) : List TuningStep → Nat
  | [] => 0
  | step :: rest => (t.changes step).toNat + (t.after step).changesIn rest

/-- No step touches the parameter in the table that it finds. -/
def Spares (t : TuningTable) (steps : List TuningStep) (n : ParamName) : Prop :=
  ∀ before step rest, steps = before ++ step :: rest → ¬(t.run before).Touches step n

theorem run_generation (t : TuningTable) (steps : List TuningStep) :
    (t.run steps).generation.toNat = (t.generation.toNat + t.changesIn steps) % 2 ^ 32 := by
  induction steps generalizing t with
  | nil => exact (Nat.mod_eq_of_lt t.generation.toNat_lt).symm
  | cons step rest ih =>
    have hstep := t.after_generation step
    change ((t.after step).run rest).generation.toNat = _
    rw [ih, hstep, changesIn]
    cases t.changes step with
    | false => rw [if_neg Bool.false_ne_true, Bool.toNat_false, Nat.zero_add]
    | true =>
      rw [if_pos rfl, UInt32.toNat_add, Bool.toNat_true, Nat.mod_add_mod, ← Nat.add_assoc]
      rfl

theorem run_selection (t : TuningTable) (steps : List TuningStep) :
    (t.run steps).group = TuneGroup.next^[TuningStep.uses .nextAxis steps] t.group ∧
    (t.run steps).term = Term.next^[TuningStep.uses .nextTerm steps] t.term := by
  induction steps generalizing t with
  | nil => exact ⟨rfl, rfl⟩
  | cons step rest ih =>
    obtain ⟨hgroup, hterm⟩ := t.after_selection step
    obtain ⟨ihgroup, ihterm⟩ := ih (t.after step)
    rw [TuningStep.uses_cons .nextAxis step rest, TuningStep.uses_cons .nextTerm step rest,
      Function.iterate_add_apply, Function.iterate_add_apply, ← hgroup, ← hterm]
    exact ⟨ihgroup, ihterm⟩

theorem value_run_of_spares {steps : List TuningStep} (h : t.Spares steps n) :
    (t.run steps).params.value n = t.params.value n := by
  -- From the front, as the selection that a step finds is told from the first table.
  induction steps generalizing t with
  | nil => rfl
  | cons step rest ih =>
    have hrest : (t.after step).Spares rest n := by
      rintro before step' rest' rfl
      exact h (step :: before) step' rest' rfl
    exact (ih hrest).trans (value_after_of_not_touches (h [] step rest rfl))

end TuningTable

/-- What tuning does to a table, after any steps. The generation has counted the values taken over and
the actions that reported a change; the selection has gone round with the actions that move it; a
parameter that no step touched is as it was; and the next action, whichever it is, changes what it is
named for and nothing else. -/
theorem actions_act_as_named (t : TuningTable) (steps : List TuningStep) :
    (t.run steps).generation.toNat = (t.generation.toNat + t.changesIn steps) % 2 ^ 32 ∧
    (t.run steps).group = TuneGroup.next^[TuningStep.uses .nextAxis steps] t.group ∧
    (t.run steps).term = Term.next^[TuningStep.uses .nextTerm steps] t.term ∧
    (∀ n, t.Spares steps n → (t.run steps).params.value n = t.params.value n) ∧
    ∀ action profile,
      (t.run steps).Effect action profile ((t.run steps).apply action profile) := by
  obtain ⟨hgroup, hterm⟩ := t.run_selection steps
  exact ⟨t.run_generation steps, hgroup, hterm, fun _ => TuningTable.value_run_of_spares,
    fun action profile => (t.run steps).effect action profile⟩

/-- A gain of yaw that was found by moving the selection. -/
example :
    let t := TuningTable.run ⟨{}, 0, .rollPitch, .p⟩
      [.apply .increaseGain .a, .apply .nextAxis .a, .apply .nextTerm .a, .apply .decreaseGain .b]
    t.generation = 2 ∧ t.params.value (.gain .b .yaw .i) = 1.2 * 0.9 ∧
      t.params.value (.gain .a .yaw .i) = 1.5 := by
  decide +kernel

end Quadrotor

import Mathlib
import Quadrotor.Proofs.Scalar.Nonneg
import Quadrotor.Proofs.Storage.RecordCodec
import Quadrotor.Tuning.Table

/-!
# Validity of tuned parameters

A value that is set by name is checked before it is taken over. A gain that is multiplied by a gesture
is not, and a gain near the end of the number range overflows to infinity. No other step takes a valid
set to one that is not, and no step at all takes a gain below zero or an offset out of its range.
-/

namespace Quadrotor

/-! ## Gains and axes -/

theorem Gains.get_set (g : Gains) (s t : Term) (v : Scalar) :
    (g.set s v).get t = if s = t then v else g.get t := by cases s <;> cases t <;> rfl

theorem Gains.ext_get {g g' : Gains} (h : ∀ t, g.get t = g'.get t) : g = g' := by
  cases g
  cases g'
  rw [Gains.mk.injEq]
  exact ⟨h .p, h .i, h .d⟩

theorem Tilt.ext_get {α : Type} {s t : Tilt α} (h : ∀ a, s.get a = t.get a) : s = t := by
  cases s
  cases t
  rw [Tilt.mk.injEq]
  exact ⟨h .roll, h .pitch⟩

theorem Gains.isValid_iff {g : Gains} :
    g.isValid = true ↔ ∀ t, 0.0 ≤ g.get t ∧ (g.get t).isFinite = true := by
  rw [Gains.isValid, Bool.and_eq_true, Bool.and_eq_true, Scalar.isNonneg_iff, Scalar.isNonneg_iff,
    Scalar.isNonneg_iff]
  constructor
  · rintro ⟨⟨hp, hi⟩, hd⟩ (_ | _ | _)
    · exact hp.symm
    · exact hi.symm
    · exact hd.symm
  · intro h
    exact ⟨⟨(h .p).symm, (h .i).symm⟩, (h .d).symm⟩

theorem Triple.all_iff {α : Type} {test : α → Bool} {t : Triple α} :
    t.all test = true ↔ ∀ a, test (t.get a) = true := by
  rw [Triple.all, Bool.and_eq_true, Bool.and_eq_true]
  constructor
  · rintro ⟨⟨hx, hy⟩, hz⟩ (_ | _ | _)
    · exact hx
    · exact hy
    · exact hz
  · intro h
    exact ⟨⟨h .roll, h .pitch⟩, h .yaw⟩

theorem Tilt.all_iff {α : Type} {test : α → Bool} {t : Tilt α} :
    t.all test = true ↔ ∀ a, test (t.get a) = true := by
  rw [Tilt.all, Bool.and_eq_true]
  constructor
  · rintro ⟨hroll, hpitch⟩ (_ | _)
    · exact hroll
    · exact hpitch
  · intro h
    exact ⟨h .roll, h .pitch⟩

/-! ## Ranges -/

/-- The range of a parameter, in which infinity counts as a gain. -/
def ParamName.Accepts : ParamName → Scalar → Prop
  | .gain .., v => 0.0 ≤ v
  | .trim _, v | .accOffset _, v => v.abs ≤ TuningParams.maxOffset
  | .lvcEnabled, _ | .yawInverted, _ => True

namespace TuningParams

variable {p q : TuningParams} {m n : ParamName} {v : Scalar}

/-- Every parameter is in its range. -/
def InRange (p : TuningParams) : Prop := ∀ n : ParamName, n.Accepts (p.value n)

/-- Every parameter is finite. -/
def Bounded (p : TuningParams) : Prop := ∀ n : ParamName, (p.value n).isFinite = true

theorem flagValue_isFinite (flag : Bool) : (flagValue flag).isFinite = true := by
  cases flag <;> rfl

theorem isOffset_iff : isOffset v = true ↔ v.abs ≤ maxOffset ∧ v.isFinite = true := by
  rw [isOffset, Bool.and_eq_true, decide_eq_true_iff, and_comm]

theorem le_maxOffset (hv : v.isFinite = true) (h : ¬maxOffset < v.abs) : v.abs ≤ maxOffset := by
  apply Scalar.le_of_not_lt rfl _ h
  rw [Scalar.isNaN_abs]
  exact Scalar.isNaN_of_isFinite hv

theorem isFinite_of_abs_le (h : v.abs ≤ maxOffset) : v.isFinite = true := by
  obtain ⟨hnan, -, hle⟩ := Scalar.le_iff.mp h
  rw [Scalar.isNaN_abs] at hnan
  rw [Scalar.value_abs] at hle
  have hmax : maxOffset.isFinite = true := by decide +kernel
  exact Scalar.isFinite_iff.mpr
    ⟨hnan, lt_of_le_of_lt (hle.trans (le_abs_self _)) (Scalar.isFinite_iff.mp hmax).2⟩

theorem isValid_iff : p.isValid = true ↔ p.InRange ∧ p.Bounded := by
  simp only [isValid, Bool.and_eq_true, Triple.all_iff, Tilt.all_iff, Gains.isValid_iff,
    isOffset_iff]
  constructor
  · rintro ⟨⟨⟨ha, hb⟩, htrims⟩, hacc⟩
    have hgain : ∀ profile axis term, 0.0 ≤ p.value (.gain profile axis term) ∧
        (p.value (.gain profile axis term)).isFinite = true := by
      rintro (_ | _) axis term
      · exact ha axis term
      · exact hb axis term
    constructor
    · rintro (⟨profile, axis, term⟩ | axis | axis | _ | _)
      · exact (hgain profile axis term).1
      · exact (htrims axis).1
      · exact (hacc axis).1
      · trivial
      · trivial
    · rintro (⟨profile, axis, term⟩ | axis | axis | _ | _)
      · exact (hgain profile axis term).2
      · exact (htrims axis).2
      · exact (hacc axis).2
      · exact flagValue_isFinite _
      · exact flagValue_isFinite _
  · rintro ⟨hrange, hbounded⟩
    exact ⟨⟨⟨fun axis term => ⟨hrange (.gain .a axis term), hbounded (.gain .a axis term)⟩,
      fun axis term => ⟨hrange (.gain .b axis term), hbounded (.gain .b axis term)⟩⟩,
      fun axis => ⟨hrange (.trim axis), hbounded (.trim axis)⟩⟩,
      fun axis => ⟨hrange (.accOffset axis), hbounded (.accOffset axis)⟩⟩

/-- Of a set in its ranges only the gains can be infinite. -/
theorem InRange.isValid_iff (h : p.InRange) : p.isValid = true ↔
    ∀ profile axis term, (p.value (.gain profile axis term)).isFinite = true := by
  rw [TuningParams.isValid_iff, and_iff_right h]
  constructor
  · intro hbounded profile axis term
    exact hbounded _
  · rintro hgains (⟨profile, axis, term⟩ | axis | axis | _ | _)
    · exact hgains profile axis term
    · exact isFinite_of_abs_le (h (.trim axis))
    · exact isFinite_of_abs_le (h (.accOffset axis))
    · exact flagValue_isFinite _
    · exact flagValue_isFinite _

/-! ## Values after a change -/

theorem gains_withGains (p : TuningParams) (profile profile' : Profile) (g : Triple Gains) :
    (p.withGains profile g).gains profile' = if profile = profile' then g else p.gains profile' := by
  cases profile <;> cases profile' <;> rfl

theorem value_withGains (p : TuningParams) (profile profile' : Profile) (g : Triple Gains)
    (axis : Axis) (term : Term) : (p.withGains profile g).value (.gain profile' axis term)
      = if profile = profile' then (g.get axis).get term else p.value (.gain profile' axis term) := by
  rw [value, value, gains_withGains]
  split_ifs <;> rfl

theorem value_set_gain (p : TuningParams) (profile profile' : Profile) (axis axis' : Axis)
    (term term' : Term) (v : Scalar) :
    (p.withGains profile ((p.gains profile).set axis
      (((p.gains profile).get axis).set term v))).value (.gain profile' axis' term')
      = if profile = profile' ∧ axis = axis' ∧ term = term' then v
        else p.value (.gain profile' axis' term') := by
  rw [value_withGains, Triple.get_set]
  by_cases hprofile : profile = profile'
  · subst hprofile
    by_cases haxis : axis = axis'
    · subst haxis
      rw [if_pos rfl, if_pos rfl, Gains.get_set]
      by_cases hterm : term = term'
      · rw [if_pos hterm, if_pos ⟨rfl, rfl, hterm⟩]
      · rw [if_neg hterm, if_neg fun h => hterm h.2.2]
        rfl
    · rw [if_pos rfl, if_neg haxis, if_neg fun h => haxis h.2.1]
      rfl
  · rw [if_neg hprofile, if_neg fun h => hprofile h.1]

/-- A parameter keeps its value or has one in its range. -/
theorem value_of_assign? (h : p.assign? n v = some q) (hv : v.isFinite = true) (m : ParamName) :
    q.value m = p.value m ∨ m.Accepts (q.value m) ∧ (q.value m).isFinite = true := by
  cases n with
  | gain profile axis term =>
    rw [assign?, Option.ite_none_left_eq_some] at h
    obtain ⟨hneg, h⟩ := h
    obtain rfl := Option.some_inj.mp h
    cases m with
    | gain profile' axis' term' =>
      rw [value_set_gain]
      split_ifs
      · exact Or.inr ⟨Scalar.le_of_not_lt (Scalar.isNaN_of_isFinite hv) rfl hneg, hv⟩
      · exact Or.inl rfl
    | _ => left; cases profile <;> rfl
  | trim axis =>
    rw [assign?, Option.ite_none_left_eq_some] at h
    obtain ⟨hlarge, h⟩ := h
    obtain rfl := Option.some_inj.mp h
    cases m with
    | trim axis' =>
      have hvalue : value { p with trims := p.trims.set axis v } (.trim axis')
          = if axis = axis' then v else p.value (.trim axis') := Tilt.get_set _ _ _ _
      rw [hvalue]
      split_ifs
      · exact Or.inr ⟨le_maxOffset hv hlarge, hv⟩
      · exact Or.inl rfl
    | _ => exact Or.inl rfl
  | accOffset axis =>
    rw [assign?, Option.ite_none_left_eq_some] at h
    obtain ⟨hlarge, h⟩ := h
    obtain rfl := Option.some_inj.mp h
    cases m with
    | accOffset axis' =>
      have hvalue : value { p with accOffsets := p.accOffsets.set axis v } (.accOffset axis')
          = if axis = axis' then v else p.value (.accOffset axis') := Triple.get_set _ _ _ _
      rw [hvalue]
      split_ifs
      · exact Or.inr ⟨le_maxOffset hv hlarge, hv⟩
      · exact Or.inl rfl
    | _ => exact Or.inl rfl
  | lvcEnabled =>
    obtain ⟨flag, -, rfl⟩ := Option.map_eq_some_iff.mp h
    cases m with
    | lvcEnabled => exact Or.inr ⟨trivial, flagValue_isFinite _⟩
    | _ => exact Or.inl rfl
  | yawInverted =>
    obtain ⟨flag, -, rfl⟩ := Option.map_eq_some_iff.mp h
    cases m with
    | yawInverted => exact Or.inr ⟨trivial, flagValue_isFinite _⟩
    | _ => exact Or.inl rfl

theorem value_of_set {name : String} (h : p.set name v = .ok q) (m : ParamName) :
    q.value m = p.value m ∨ m.Accepts (q.value m) ∧ (q.value m).isFinite = true := by
  rw [set] at h
  split_ifs at h with hv
  split at h
  · split at h
    · next hassign =>
      obtain rfl := Except.ok.inj h
      exact value_of_assign? hassign hv m
    · cases h
  · cases h

end TuningParams

/-! ## Steps -/

/-- A change of a table. -/
inductive TuningStep where
  | set (name : String) (v : Scalar)
  | apply (action : GestureAction) (profile : Profile)

namespace TuningTable

variable {t : TuningTable}

/-- The table after a step; a value that is refused leaves it as it is. -/
def after (t : TuningTable) : TuningStep → TuningTable
  | .set name v =>
    match t.set name v with
    | .ok t' => t'
    | .error _ => t
  | .apply action profile => (t.apply action profile).1

/-- The table after steps. -/
def run (t : TuningTable) (steps : List TuningStep) : TuningTable := steps.foldl after t

/-- The step takes a gain past the end of the number range. -/
def Overflows (t : TuningTable) : TuningStep → Prop
  | .apply .increaseGain profile => ∃ axis ∈ t.group.axes,
      (t.params.value (.gain profile axis t.term) * (1.0 + gainStep)).isFinite = false
  | _ => False

theorem get_scaled (t : TuningTable) (factor : Scalar) (g : Triple Gains) (axis : Axis) :
    (t.scaled factor g).get axis = if axis ∈ t.group.axes
      then (g.get axis).set t.term ((g.get axis).get t.term * factor) else g.get axis := by
  rw [scaled]
  cases t.group <;> cases axis <;> rfl

/-- Scaling multiplies the selected gains and leaves everything else. -/
theorem value_scale (t : TuningTable) (profile profile' : Profile) (factor : Scalar) (axis : Axis)
    (term : Term) : (t.scale profile factor).params.value (.gain profile' axis term)
      = if profile = profile' ∧ axis ∈ t.group.axes ∧ t.term = term
        then t.params.value (.gain profile' axis term) * factor
        else t.params.value (.gain profile' axis term) := by
  change (t.params.withGains profile _).value _ = _
  rw [TuningParams.value_withGains, get_scaled]
  by_cases hprofile : profile = profile'
  · subst hprofile
    rw [if_pos rfl]
    by_cases haxis : axis ∈ t.group.axes
    · rw [if_pos haxis, Gains.get_set]
      by_cases hterm : t.term = term
      · rw [if_pos hterm, if_pos ⟨rfl, haxis, hterm⟩, hterm]
        rfl
      · rw [if_neg hterm, if_neg fun h => hterm h.2.2]
        rfl
    · rw [if_neg haxis, if_neg fun h => haxis h.2.1]
      rfl
  · rw [if_neg hprofile, if_neg fun h => hprofile h.1]

theorem value_scale_cases (t : TuningTable) (profile : Profile) (factor : Scalar) (m : ParamName) :
    (t.scale profile factor).params.value m = t.params.value m ∨
      ∃ axis ∈ t.group.axes, m = .gain profile axis t.term ∧
        (t.scale profile factor).params.value m = t.params.value m * factor := by
  cases m with
  | gain profile' axis term =>
    rw [value_scale]
    split_ifs with h
    · obtain ⟨rfl, haxis, rfl⟩ := h
      exact Or.inr ⟨axis, haxis, rfl, rfl⟩
    · exact Or.inl rfl
  | _ => left; cases profile <;> rfl

/-- A step leaves a parameter as it is, gives it a value in its range, or scales it. -/
theorem value_after (t : TuningTable) (step : TuningStep) (m : ParamName) :
    (t.after step).params.value m = t.params.value m ∨
    m.Accepts ((t.after step).params.value m) ∧
      ((t.after step).params.value m).isFinite = true ∨
    ∃ profile, ∃ axis ∈ t.group.axes, m = .gain profile axis t.term ∧
      (step = .apply .increaseGain profile ∧
          (t.after step).params.value m = t.params.value m * (1.0 + gainStep) ∨
        step = .apply .decreaseGain profile ∧
          (t.after step).params.value m = t.params.value m * (1.0 - gainStep)) := by
  cases step with
  | set name v =>
    rw [after, TuningTable.set]
    cases hset : t.params.set name v with
    | error e => exact Or.inl rfl
    | ok q =>
      rcases TuningParams.value_of_set hset m with hsame | hnew
      · exact Or.inl hsame
      · exact Or.inr (Or.inl hnew)
  | apply action profile =>
    cases action with
    | increaseGain =>
      rcases value_scale_cases t profile (1.0 + gainStep) m with hsame | ⟨axis, haxis, hm, hvalue⟩
      · exact Or.inl hsame
      · exact Or.inr (Or.inr ⟨profile, axis, haxis, hm, Or.inl ⟨rfl, hvalue⟩⟩)
    | decreaseGain =>
      rcases value_scale_cases t profile (1.0 - gainStep) m with hsame | ⟨axis, haxis, hm, hvalue⟩
      · exact Or.inl hsame
      · exact Or.inr (Or.inr ⟨profile, axis, haxis, hm, Or.inr ⟨rfl, hvalue⟩⟩)
    | toggleLvc =>
      cases m with
      | lvcEnabled => exact Or.inr (Or.inl ⟨trivial, TuningParams.flagValue_isFinite _⟩)
      | _ => exact Or.inl rfl
    | toggleYawInversion =>
      cases m with
      | yawInverted => exact Or.inr (Or.inl ⟨trivial, TuningParams.flagValue_isFinite _⟩)
      | _ => exact Or.inl rfl
    | _ => exact Or.inl rfl

theorem increase_pos : 0.0 < 1.0 + gainStep ∧ (1.0 + gainStep).isFinite = true := by
  decide +kernel

theorem decrease_pos : 0.0 < 1.0 - gainStep ∧ (1.0 - gainStep).isFinite = true := by
  decide +kernel

theorem decrease_le_one : 1.0 - gainStep ≤ 1.0 := by
  decide +kernel

/-- Infinite gains are in range too, so this needs no bound on the gains. -/
theorem after_inRange (h : t.params.InRange) (step : TuningStep) :
    (t.after step).params.InRange := by
  intro m
  rcases t.value_after step m with hsame | ⟨hnew, -⟩ |
    ⟨profile, axis, -, rfl, ⟨-, hvalue⟩ | ⟨-, hvalue⟩⟩
  · rw [hsame]
    exact h m
  · exact hnew
  · rw [hvalue]
    exact Scalar.nonneg_mul (h (.gain profile axis t.term)) increase_pos.1 increase_pos.2
  · rw [hvalue]
    exact Scalar.nonneg_mul (h (.gain profile axis t.term)) decrease_pos.1 decrease_pos.2

/-- Reducing a gain keeps it finite. -/
theorem isFinite_reduced {x : Scalar} (h : x.isFinite = true) :
    (x * (1.0 - gainStep)).isFinite = true := by
  have hfactor : |(1.0 - gainStep).value| ≤ 1 := by
    have hpos := (Scalar.lt_iff.mp decrease_pos.1).2.2
    have hle := (Scalar.le_iff.mp decrease_le_one).2.2
    rw [Scalar.value_zero] at hpos
    rw [Scalar.value_one] at hle
    rw [abs_of_pos hpos]
    exact hle
  refine (Scalar.faithful_mul h decrease_pos.2).isFinite h ?_
  rw [abs_mul]
  exact mul_le_of_le_one_right (abs_nonneg _) hfactor

theorem after_bounded (h : t.params.Bounded) {step : TuningStep} (hno : ¬t.Overflows step) :
    (t.after step).params.Bounded := by
  intro m
  rcases t.value_after step m with hsame | ⟨-, hnew⟩ |
    ⟨profile, axis, haxis, rfl, ⟨rfl, hvalue⟩ | ⟨-, hvalue⟩⟩
  · rw [hsame]
    exact h m
  · exact hnew
  · rw [hvalue]
    by_contra hover
    exact hno ⟨axis, haxis, Bool.eq_false_of_not_eq_true hover⟩
  · rw [hvalue]
    exact isFinite_reduced (h _)

/-- From a valid set, only a step that overflows leads to one that is not. -/
theorem isValid_after_iff (h : t.params.isValid = true) (step : TuningStep) :
    (t.after step).params.isValid = true ↔ ¬t.Overflows step := by
  obtain ⟨hrange, hbounded⟩ := TuningParams.isValid_iff.mp h
  constructor
  · intro hafter hover
    cases step with
    | set name v => exact hover
    | apply action profile =>
      cases action with
      | increaseGain =>
        obtain ⟨axis, haxis, hinfinite⟩ := hover
        have hfinite := (TuningParams.isValid_iff.mp hafter).2 (.gain profile axis t.term)
        change ((t.scale profile (1.0 + gainStep)).params.value _).isFinite = true at hfinite
        rw [value_scale, if_pos ⟨rfl, haxis, rfl⟩, hinfinite] at hfinite
        cases hfinite
      | _ => exact hover
  · intro hno
    exact TuningParams.isValid_iff.mpr ⟨after_inRange hrange step, after_bounded hbounded hno⟩

/-! ## Runs -/

theorem run_append (t : TuningTable) (before : List TuningStep) (step : TuningStep) :
    t.run (before ++ [step]) = (t.run before).after step := List.foldl_append

theorem run_inRange (h : t.params.InRange) (steps : List TuningStep) :
    (t.run steps).params.InRange := by
  induction steps generalizing t with
  | nil => exact h
  | cons step rest ih => exact ih (after_inRange h step)

theorem run_isValid (h : t.params.isValid = true) {steps : List TuningStep}
    (hno : ∀ before step rest, steps = before ++ step :: rest → ¬(t.run before).Overflows step) :
    (t.run steps).params.isValid = true := by
  -- From the front, so that what holds before each step is known of the table after the first one.
  induction steps generalizing t with
  | nil => exact h
  | cons step rest ih =>
    have hstep := (isValid_after_iff h step).mpr (hno [] step rest rfl)
    apply ih hstep
    rintro before step' rest' rfl
    exact hno (step :: before) step' rest' rfl

end TuningTable

/-- What steps from a valid set on keep. Gains may become infinite and nothing else goes wrong; as
long as no step overflows, the set stays valid and its record is read back. -/
theorem tuning_keeps_ranges (t : TuningTable) (h : t.params.isValid = true)
    (steps : List TuningStep) :
    (t.run steps).params.InRange ∧
    ((t.run steps).params.isValid = true ↔ ∀ profile axis term,
      ((t.run steps).params.value (.gain profile axis term)).isFinite = true) ∧
    ((∀ before step rest, steps = before ++ step :: rest → ¬(t.run before).Overflows step) →
      (t.run steps).params.isValid = true) ∧
    (∀ step, (t.run steps).params.isValid = true →
      ((t.run (steps ++ [step])).params.isValid = true ↔ ¬(t.run steps).Overflows step)) ∧
    ∀ buffer, ∃ written, Record.encode (t.run steps).params buffer = .ok (102, written) ∧
      Record.decode written = if (t.run steps).params.isValid then .ok (t.run steps).params
        else .error .useDefaults := by
  have hrange := TuningTable.run_inRange (TuningParams.isValid_iff.mp h).1 steps
  refine ⟨hrange, hrange.isValid_iff, TuningTable.run_isValid h, fun step hvalid => ?_,
    fun buffer => ⟨_, Record.encode_eq _ buffer, Record.decode_of_carries (Record.carries_bytes _ _)⟩⟩
  rw [TuningTable.run_append]
  exact TuningTable.isValid_after_iff hvalid step

/-- The initial set with the selected gains of a profile increased. -/
theorem tuning_keeps_ranges_increase : ∃ written,
    Record.encode (TuningTable.run ⟨{}, 0, .rollPitch, .p⟩ [.apply .increaseGain .a]).params
      [] = .ok (102, written) ∧
    Record.decode written
      = .ok (TuningTable.run ⟨{}, 0, .rollPitch, .p⟩ [.apply .increaseGain .a]).params := by
  obtain ⟨-, -, -, -, hrecord⟩ := tuning_keeps_ranges ⟨{}, 0, .rollPitch, .p⟩
    (by decide +kernel) [.apply .increaseGain .a]
  obtain ⟨written, hencode, hdecode⟩ := hrecord []
  rw [if_pos (by decide +kernel)] at hdecode
  exact ⟨written, hencode, hdecode⟩

/-- A gain that can be set but not increased. -/
theorem increase_overflows :
    TuningParams.isValid {} = true ∧
    (TuningTable.run ⟨{}, 0, .rollPitch, .p⟩
      [.set "rate.roll.kp" 3.3e38, .apply .increaseGain .a]).params.isValid = false ∧
    Record.decode (Record.bytes (TuningTable.run ⟨{}, 0, .rollPitch, .p⟩
      [.set "rate.roll.kp" 3.3e38, .apply .increaseGain .a]).params) = .error .useDefaults := by
  have hinvalid : (TuningTable.run ⟨{}, 0, .rollPitch, .p⟩
      [.set "rate.roll.kp" 3.3e38, .apply .increaseGain .a]).params.isValid = false := by
    decide +kernel
  refine ⟨by decide +kernel, hinvalid, ?_⟩
  have hcarries := Record.carries_bytes (TuningTable.run ⟨{}, 0, .rollPitch, .p⟩
      [.set "rate.roll.kp" 3.3e38, .apply .increaseGain .a]).params []
  rw [List.append_nil] at hcarries
  rw [Record.decode_of_carries hcarries, hinvalid]
  rfl

end Quadrotor

import Mathlib
import Quadrotor.Proofs.Scalar.Alike
import Quadrotor.Proofs.Tuning.Validity

/-!
# Access by name

The name of a parameter is the path to it, with dots between the parts. No text but the twenty-five
names is read as one. The values under the names are coordinates of a parameter set: there is nothing
else in it, and any numbers are the values of one as long as the flags are zero or one. A value that is
set by name is found under that name, and no other moves.
-/

namespace Quadrotor

namespace ParamName

/-! ## Names -/

def gainNames : List String :=
  ["rate", "rate_b"].flatMap fun group => ["roll", "pitch", "yaw"].flatMap fun axis =>
    ["kp", "ki", "kd"].map fun term => ".".intercalate [group, axis, term]

def offsetNames : List String :=
  ["trim.roll", "trim.pitch", "acc_offset.x", "acc_offset.y", "acc_offset.z"]

def flagNames : List String := ["lvc_enabled", "yaw_inverted"]

def names : List String := gainNames ++ offsetNames ++ flagNames

/-- The parts of the path to a parameter. -/
def path : ParamName → List String
  | gain profile axis term => [groupText profile, axisText axis, termText term]
  | trim axis => ["trim", tiltText axis]
  | accOffset axis => ["acc_offset", directionText axis]
  | lvcEnabled => ["lvc_enabled"]
  | yawInverted => ["yaw_inverted"]

/-- What stands between the dots of a text. -/
def parts (name : String) : List String := (name.toList.splitOn '.').map String.ofList

def axisOf? : String → Option Axis
  | "roll" => some .roll
  | "pitch" => some .pitch
  | "yaw" => some .yaw
  | _ => none

def termOf? : String → Option Term
  | "kp" => some .p
  | "ki" => some .i
  | "kd" => some .d
  | _ => none

def gainOf? (profile : Profile) (axis term : String) : Option ParamName := do
  let axis ← axisOf? axis
  let term ← termOf? term
  return gain profile axis term

/-- The parameter at the end of a path, which is read part by part. -/
def ofPath? : List String → Option ParamName
  | ["rate", axis, term] => gainOf? .a axis term
  | ["rate_b", axis, term] => gainOf? .b axis term
  | ["trim", "roll"] => some (trim .roll)
  | ["trim", "pitch"] => some (trim .pitch)
  | ["acc_offset", "x"] => some (accOffset .roll)
  | ["acc_offset", "y"] => some (accOffset .pitch)
  | ["acc_offset", "z"] => some (accOffset .yaw)
  | ["lvc_enabled"] => some lvcEnabled
  | ["yaw_inverted"] => some yawInverted
  | _ => none

theorem mem_all (n : ParamName) : n ∈ all := by
  rcases n with ⟨_ | _, _ | _ | _, _ | _ | _⟩ | ⟨_ | _⟩ | ⟨_ | _ | _⟩ | _ | _ <;> decide

theorem names_eq : names = all.map text := by decide

theorem nodup_names : names.Nodup := by decide

theorem text_injective : Function.Injective text := by
  intro m n h
  have hnodup : (all.map text).Nodup := names_eq ▸ nodup_names
  exact List.inj_on_of_nodup_map hnodup (mem_all m) (mem_all n) h

theorem mem_names_iff {name : String} : name ∈ names ↔ ∃ n : ParamName, n.text = name := by
  rw [names_eq, List.mem_map]
  exact ⟨fun ⟨n, _, h⟩ => ⟨n, h⟩, fun ⟨n, h⟩ => ⟨n, mem_all n, h⟩⟩

@[simp] theorem text_mem_names (n : ParamName) : n.text ∈ names := mem_names_iff.mpr ⟨n, rfl⟩

theorem ofText?_eq_some_iff {name : String} {n : ParamName} :
    ofText? name = some n ↔ n.text = name := by
  constructor
  · intro h
    exact beq_iff_eq.mp (List.find?_some (p := fun n : ParamName => n.text == name) h)
  · rintro rfl
    cases h : ofText? n.text with
    | none =>
      have hne := List.find?_eq_none.mp h n (mem_all n)
      simp at hne
    | some m =>
      have hm := List.find?_some (p := fun m : ParamName => m.text == n.text) h
      rw [text_injective (beq_iff_eq.mp hm)]

theorem toList_text (n : ParamName) :
    n.text.toList = ['.'].intercalate (n.path.map String.toList) := by
  rcases n with ⟨_ | _, _ | _ | _, _ | _ | _⟩ | ⟨_ | _⟩ | ⟨_ | _ | _⟩ | _ | _ <;> rfl

theorem parts_text (n : ParamName) : parts n.text = n.path := by
  rcases n with ⟨_ | _, _ | _ | _, _ | _ | _⟩ | ⟨_ | _⟩ | ⟨_ | _ | _⟩ | _ | _ <;> rfl

theorem parts_eq_path_iff {name : String} {n : ParamName} :
    parts name = n.path ↔ n.text = name := by
  constructor
  · intro h
    have hsplit : name.toList.splitOn '.' = n.path.map String.toList := by
      rw [← h, parts, List.map_map]
      exact (List.map_id'' (fun l => String.toList_ofList) _).symm
    apply String.toList_injective
    rw [toList_text, ← hsplit, List.intercalate_splitOn]
  · rintro rfl
    exact parts_text n

theorem axisText_of_axisOf? {axis : String} {a : Axis} (h : axisOf? axis = some a) :
    axisText a = axis := by
  unfold axisOf? at h
  split at h <;> cases h <;> rfl

theorem termText_of_termOf? {term : String} {t : Term} (h : termOf? term = some t) :
    termText t = term := by
  unfold termOf? at h
  split at h <;> cases h <;> rfl

theorem path_of_gainOf? {profile : Profile} {axis term : String} {n : ParamName}
    (h : gainOf? profile axis term = some n) : n.path = [groupText profile, axis, term] := by
  simp only [gainOf?, Option.bind_eq_bind, Option.bind_eq_some_iff] at h
  obtain ⟨a, ha, t, ht, h⟩ := h
  cases h
  rw [path, axisText_of_axisOf? ha, termText_of_termOf? ht]

theorem ofPath?_eq_some_iff {ps : List String} {n : ParamName} :
    ofPath? ps = some n ↔ ps = n.path := by
  constructor
  · intro h
    unfold ofPath? at h
    split at h
    · exact (path_of_gainOf? h).symm
    · exact (path_of_gainOf? h).symm
    all_goals cases h
    all_goals rfl
  · rintro rfl
    rcases n with ⟨_ | _, _ | _ | _, _ | _ | _⟩ | ⟨_ | _⟩ | ⟨_ | _ | _⟩ | _ | _ <;> rfl

/-- A text is read as a name by going along its parts. -/
theorem ofText?_eq_ofPath? (name : String) : ofText? name = ofPath? (parts name) := by
  apply Option.ext
  intro n
  rw [ofText?_eq_some_iff, ofPath?_eq_some_iff, parts_eq_path_iff]

example : ofText? "rate.roll.kp." = none ∧ ofText? "rate..kp" = none := by decide

/-! ## Ranges -/

/-- The values that a parameter can be set to. -/
def Takes : ParamName → Scalar → Prop
  | gain .., v => 0.0 ≤ v
  | trim _, v | accOffset _, v => v.abs ≤ TuningParams.maxOffset
  | lvcEnabled, v | yawInverted, v => (v == 0.0) = true ∨ (v == 1.0) = true

/-- The values that can be set under a name: gains from zero on, offsets of at most one half, and
flags that are zero or one. -/
structure Admits (name : String) (v : Scalar) : Prop where
  gain : name ∈ gainNames → 0.0 ≤ v
  offset : name ∈ offsetNames → v.abs ≤ 0.5
  flag : name ∈ flagNames → (v == 0.0) = true ∨ (v == 1.0) = true

theorem admits_iff {n : ParamName} {v : Scalar} : Admits n.text v ↔ n.Takes v := by
  cases n with
  | gain profile axis term =>
    have hkind : (gain profile axis term).text ∈ gainNames ∧
        (gain profile axis term).text ∉ offsetNames ∧
        (gain profile axis term).text ∉ flagNames := by
      cases profile <;> cases axis <;> cases term <;> decide
    exact ⟨fun h => h.gain hkind.1, fun h => ⟨fun _ => h, fun hm => absurd hm hkind.2.1,
      fun hm => absurd hm hkind.2.2⟩⟩
  | trim axis =>
    have hkind : (trim axis).text ∉ gainNames ∧ (trim axis).text ∈ offsetNames ∧
        (trim axis).text ∉ flagNames := by
      cases axis <;> decide
    exact ⟨fun h => h.offset hkind.2.1, fun h => ⟨fun hm => absurd hm hkind.1, fun _ => h,
      fun hm => absurd hm hkind.2.2⟩⟩
  | accOffset axis =>
    have hkind : (accOffset axis).text ∉ gainNames ∧ (accOffset axis).text ∈ offsetNames ∧
        (accOffset axis).text ∉ flagNames := by
      cases axis <;> decide
    exact ⟨fun h => h.offset hkind.2.1, fun h => ⟨fun hm => absurd hm hkind.1, fun _ => h,
      fun hm => absurd hm hkind.2.2⟩⟩
  | lvcEnabled =>
    exact ⟨fun h => h.flag (by decide), fun h => ⟨fun hm => absurd hm (by decide),
      fun hm => absurd hm (by decide), fun _ => h⟩⟩
  | yawInverted =>
    exact ⟨fun h => h.flag (by decide), fun h => ⟨fun hm => absurd hm (by decide),
      fun hm => absurd hm (by decide), fun _ => h⟩⟩

end ParamName

/-! ## Values -/

namespace TuningParams

variable {p q : TuningParams} {n : ParamName} {v : Scalar}

theorem beq_one_eq_false (h : (v == 0.0) = true) : (v == 1.0) = false := by
  have hzero : v.value = 0 := by
    obtain ⟨-, -, rfl | ⟨hv, -⟩⟩ := Scalar.beq_iff.mp h
    · exact Scalar.value_zero
    · exact (Scalar.isZero_iff.mp hv).2
  rw [← Bool.not_eq_true, Scalar.beq_iff]
  rintro ⟨-, -, rfl | ⟨-, hone⟩⟩
  · exact one_ne_zero (Scalar.value_one.symm.trans hzero)
  · exact one_ne_zero (Scalar.value_one.symm.trans (Scalar.isZero_iff.mp hone).2)

theorem flagOf?_eq_some_iff {flag : Bool} : flagOf? v = some flag ↔
    ((v == 0.0) = true ∨ (v == 1.0) = true) ∧ flag = (v == 1.0) := by
  unfold flagOf?
  split_ifs with hzero hone
  · rw [and_iff_right (Or.inl hzero), beq_one_eq_false hzero, Option.some_inj, eq_comm]
  · rw [and_iff_right (Or.inr hone), hone, Option.some_inj, eq_comm]
  · exact iff_of_false nofun fun h => h.1.elim hzero hone

theorem map_flagOf?_eq_some_iff {f : Bool → TuningParams} : (flagOf? v).map f = some q ↔
    ((v == 0.0) = true ∨ (v == 1.0) = true) ∧ f (v == 1.0) = q := by
  rw [Option.map_eq_some_iff]
  constructor
  · rintro ⟨flag, hflag, hq⟩
    obtain ⟨htakes, rfl⟩ := flagOf?_eq_some_iff.mp hflag
    exact ⟨htakes, hq⟩
  · rintro ⟨htakes, hq⟩
    exact ⟨_, flagOf?_eq_some_iff.mpr ⟨htakes, rfl⟩, hq⟩

theorem flagValue_injective : Function.Injective flagValue := by
  rintro (_ | _) (_ | _) h
  · rfl
  · exact absurd h (by decide)
  · exact absurd h (by decide)
  · rfl

/-- There is nothing in a set but its values. -/
theorem value_injective : Function.Injective value := by
  intro p q h
  have hvalue : ∀ n, p.value n = q.value n := congrFun h
  have hgains : ∀ profile, p.gains profile = q.gains profile := fun profile =>
    Triple.ext_get fun axis => Gains.ext_get fun term => hvalue (.gain profile axis term)
  have htrims : p.trims = q.trims := Tilt.ext_get fun axis => hvalue (.trim axis)
  have hoffsets : p.accOffsets = q.accOffsets := Triple.ext_get fun axis => hvalue (.accOffset axis)
  have hlvc := flagValue_injective (hvalue .lvcEnabled)
  have hyaw := flagValue_injective (hvalue .yawInverted)
  cases p
  cases q
  rw [mk.injEq]
  exact ⟨hgains .a, hgains .b, htrims, hoffsets, hlvc, hyaw⟩

/-- The parameter set of the given values. -/
def ofValues (f : ParamName → Scalar) : TuningParams where
  profileA := .ofFn fun a => ⟨f (.gain .a a .p), f (.gain .a a .i), f (.gain .a a .d)⟩
  profileB := .ofFn fun a => ⟨f (.gain .b a .p), f (.gain .b a .i), f (.gain .b a .d)⟩
  trims := ⟨f (.trim .roll), f (.trim .pitch)⟩
  accOffsets := .ofFn fun a => f (.accOffset a)
  lvcEnabled := f .lvcEnabled == 1.0
  yawInverted := f .yawInverted == 1.0

theorem flagValue_beq_one (h : v = 0.0 ∨ v = 1.0) : flagValue (v == 1.0) = v := by
  rcases h with rfl | rfl <;> decide

theorem value_ofValues {f : ParamName → Scalar} (hlvc : f .lvcEnabled = 0.0 ∨ f .lvcEnabled = 1.0)
    (hyaw : f .yawInverted = 0.0 ∨ f .yawInverted = 1.0) : (ofValues f).value = f := by
  funext n
  rcases n with ⟨_ | _, _ | _ | _, _ | _ | _⟩ | ⟨_ | _⟩ | ⟨_ | _ | _⟩ | _ | _
  case lvcEnabled => exact flagValue_beq_one hlvc
  case yawInverted => exact flagValue_beq_one hyaw
  all_goals rfl

/-! ## Changes of one value -/

/-- `p` with another value of a parameter, in its range or not. -/
def put (p : TuningParams) (n : ParamName) (v : Scalar) : TuningParams :=
  match n with
  | .gain profile axis term =>
    let g := p.gains profile
    p.withGains profile (g.set axis ((g.get axis).set term v))
  | .trim axis => { p with trims := p.trims.set axis v }
  | .accOffset axis => { p with accOffsets := p.accOffsets.set axis v }
  | .lvcEnabled => { p with lvcEnabled := v == 1.0 }
  | .yawInverted => { p with yawInverted := v == 1.0 }

/-- What is read back of a value. -/
def stored : ParamName → Scalar → Scalar
  | .lvcEnabled, v | .yawInverted, v => flagValue (v == 1.0)
  | _, v => v

theorem assign?_eq_some_iff (hv : v.isFinite = true) :
    p.assign? n v = some q ↔ n.Takes v ∧ p.put n v = q := by
  have hnan := Scalar.isNaN_of_isFinite hv
  have hgain : ¬v < 0.0 ↔ 0.0 ≤ v := Scalar.not_lt_iff_le hnan rfl
  have hoffset : ¬maxOffset < v.abs ↔ v.abs ≤ maxOffset :=
    Scalar.not_lt_iff_le rfl (by rwa [Scalar.isNaN_abs])
  cases n with
  | gain profile axis term =>
    rw [assign?, Option.ite_none_left_eq_some, hgain, Option.some_inj]
    rfl
  | trim axis =>
    rw [assign?, Option.ite_none_left_eq_some, hoffset, Option.some_inj]
    rfl
  | accOffset axis =>
    rw [assign?, Option.ite_none_left_eq_some, hoffset, Option.some_inj]
    rfl
  | lvcEnabled =>
    rw [assign?, map_flagOf?_eq_some_iff]
    rfl
  | yawInverted =>
    rw [assign?, map_flagOf?_eq_some_iff]
    rfl

/-- A change of one value moves no other. -/
theorem value_put (p : TuningParams) (n m : ParamName) (v : Scalar) :
    (p.put n v).value m = if n = m then stored n v else p.value m := by
  cases n with
  | gain profile axis term =>
    cases m with
    | gain profile' axis' term' =>
      simp only [put, value_set_gain, ParamName.gain.injEq]
      rfl
    | _ => cases profile <;> rfl
  | trim axis =>
    cases m with
    | trim axis' =>
      simp only [put, value, Tilt.get_set, ParamName.trim.injEq]
      rfl
    | _ => rfl
  | accOffset axis =>
    cases m with
    | accOffset axis' =>
      simp only [put, value, Triple.get_set, ParamName.accOffset.injEq]
      rfl
    | _ => rfl
  | lvcEnabled => cases m <;> rfl
  | yawInverted => cases m <;> rfl

theorem stored_beq (hv : v.isFinite = true) (h : n.Takes v) : (stored n v == v) = true := by
  have hself : (v == v) = true := by
    have hnan := Scalar.isNaN_of_isFinite hv
    exact Scalar.beq_iff.mpr ⟨hnan, hnan, Or.inl rfl⟩
  have hflag : (v == 0.0) = true ∨ (v == 1.0) = true → (flagValue (v == 1.0) == v) = true := by
    rintro (hzero | hone)
    · rw [beq_one_eq_false hzero]
      exact Scalar.beq_symm hzero
    · rw [hone]
      exact Scalar.beq_symm hone
  cases n with
  | lvcEnabled => exact hflag h
  | yawInverted => exact hflag h
  | _ => exact hself

/-! ## Access -/

theorem get_text (p : TuningParams) (n : ParamName) : p.get n.text = .ok (p.value n) := by
  rw [get, ParamName.ofText?_eq_some_iff.mpr rfl]

theorem ofText?_eq_none {name : String} (h : name ∉ ParamName.names) :
    ParamName.ofText? name = none := by
  cases hn : ParamName.ofText? name with
  | none => rfl
  | some n => exact absurd (ParamName.mem_names_iff.mpr ⟨n, ParamName.ofText?_eq_some_iff.mp hn⟩) h

theorem get_ok_iff {name : String} : (∃ x, p.get name = .ok x) ↔ name ∈ ParamName.names := by
  constructor
  · rintro ⟨x, hx⟩
    by_contra h
    rw [get, ofText?_eq_none h] at hx
    cases hx
  · intro h
    obtain ⟨n, rfl⟩ := ParamName.mem_names_iff.mp h
    exact ⟨_, get_text p n⟩

/-- Numbers for all names are the values of a set, and of one set only, exactly if those for the
flags are zero or one. -/
theorem existsUnique_get_iff {f : String → Scalar} :
    (∃! p : TuningParams, ∀ name ∈ ParamName.names, p.get name = .ok (f name)) ↔
      ∀ name ∈ ParamName.flagNames, f name = 0.0 ∨ f name = 1.0 := by
  have hvalues : ∀ p : TuningParams, (∀ name ∈ ParamName.names, p.get name = .ok (f name)) ↔
      p.value = fun n => f n.text := by
    intro p
    constructor
    · intro h
      funext n
      have hn := h n.text n.text_mem_names
      exact Except.ok.inj ((get_text p n).symm.trans hn)
    · intro h name hname
      obtain ⟨n, rfl⟩ := ParamName.mem_names_iff.mp hname
      rw [get_text, h]
  have hflags : (∀ name ∈ ParamName.flagNames, f name = 0.0 ∨ f name = 1.0) ↔
      (f "lvc_enabled" = 0.0 ∨ f "lvc_enabled" = 1.0) ∧
        (f "yaw_inverted" = 0.0 ∨ f "yaw_inverted" = 1.0) := by
    simp [ParamName.flagNames]
  simp only [hvalues, hflags]
  constructor
  · rintro ⟨p, hp, -⟩
    have hvalue : ∀ flag, flagValue flag = 0.0 ∨ flagValue flag = 1.0 := by
      rintro (_ | _)
      · exact Or.inl rfl
      · exact Or.inr rfl
    exact ⟨congrFun hp .lvcEnabled ▸ hvalue p.lvcEnabled,
      congrFun hp .yawInverted ▸ hvalue p.yawInverted⟩
  · rintro ⟨hlvc, hyaw⟩
    exact ⟨ofValues fun n => f n.text, value_ofValues hlvc hyaw, fun q hq =>
      value_injective (hq.trans (value_ofValues hlvc hyaw).symm)⟩

/-- What comes of setting a value by name. -/
theorem set_cases (p : TuningParams) (name : String) (v : Scalar) :
    (v.isFinite = true ∧ ∃ n : ParamName, n.text = name ∧ n.Takes v ∧
      p.set name v = .ok (p.put n v)) ∨
    (v.isFinite = true ∧ name ∉ ParamName.names ∧ p.set name v = .error .unknownName) ∨
    ((v.isFinite = false ∨ name ∈ ParamName.names ∧ ¬ParamName.Admits name v) ∧
      p.set name v = .error .invalidValue) := by
  cases hv : v.isFinite with
  | false => exact Or.inr (Or.inr ⟨Or.inl rfl, by rw [set, hv]; rfl⟩)
  | true =>
    by_cases hname : name ∈ ParamName.names
    · obtain ⟨n, rfl⟩ := ParamName.mem_names_iff.mp hname
      have hn := ParamName.ofText?_eq_some_iff.mpr (Eq.refl n.text)
      by_cases ht : n.Takes v
      · refine Or.inl ⟨rfl, n, rfl, ht, ?_⟩
        rw [set, if_pos hv, hn]
        dsimp only
        rw [(assign?_eq_some_iff hv).mpr ⟨ht, rfl⟩]
      · have hassign : p.assign? n v = none :=
          Option.eq_none_iff_forall_ne_some.mpr fun q hq => ht ((assign?_eq_some_iff hv).mp hq).1
        refine Or.inr (Or.inr ⟨Or.inr ⟨hname, mt ParamName.admits_iff.mp ht⟩, ?_⟩)
        rw [set, if_pos hv, hn]
        dsimp only
        rw [hassign]
    · exact Or.inr (Or.inl ⟨rfl, hname, by rw [set, if_pos hv, ofText?_eq_none hname]⟩)

section

variable {name : String}

theorem exists_set_iff : (∃ q, p.set name v = .ok q) ↔
    v.isFinite = true ∧ name ∈ ParamName.names ∧ ParamName.Admits name v := by
  rcases p.set_cases name v with
    ⟨hv, n, rfl, ht, hset⟩ | ⟨hv, hname, hset⟩ | ⟨hv | ⟨hname, hno⟩, hset⟩
  · simp [hset, hv, ParamName.admits_iff, ht]
  · simp [hset, hname]
  · simp [hset, hv]
  · simp [hset, hno]

theorem set_unknownName_iff : p.set name v = .error .unknownName ↔
    v.isFinite = true ∧ name ∉ ParamName.names := by
  rcases p.set_cases name v with
    ⟨hv, n, rfl, ht, hset⟩ | ⟨hv, hname, hset⟩ | ⟨hv | ⟨hname, hno⟩, hset⟩
  · simp [hset]
  · simp [hset, hv, hname]
  · simp [hset, hv]
  · simp [hset, hname]

theorem set_invalidValue_iff : p.set name v = .error .invalidValue ↔
    v.isFinite = false ∨ name ∈ ParamName.names ∧ ¬ParamName.Admits name v := by
  rcases p.set_cases name v with
    ⟨hv, n, rfl, ht, hset⟩ | ⟨hv, hname, hset⟩ | ⟨hv | ⟨hname, hno⟩, hset⟩
  · simp [hset, hv, ParamName.admits_iff, ht]
  · simp [hset, hv, hname]
  · simp [hset, hv]
  · simp [hset, hname, hno]

theorem exists_put_of_set (h : p.set name v = .ok q) :
    v.isFinite = true ∧ ∃ n : ParamName, n.text = name ∧ n.Takes v ∧ p.put n v = q := by
  rcases p.set_cases name v with ⟨hv, n, hn, ht, hset⟩ | ⟨-, -, hset⟩ | ⟨-, hset⟩
  · exact ⟨hv, n, hn, ht, Except.ok.inj (hset.symm.trans h)⟩
  · cases hset.symm.trans h
  · cases hset.symm.trans h

theorem get_of_set (h : p.set name v = .ok q) : ∃ x, q.get name = .ok x ∧ (x == v) = true := by
  obtain ⟨hv, n, rfl, ht, rfl⟩ := exists_put_of_set h
  refine ⟨stored n v, ?_, stored_beq hv ht⟩
  rw [get_text, value_put, if_pos rfl]

theorem get_of_set_of_ne (h : p.set name v = .ok q) {other : String}
    (hother : other ∈ ParamName.names) (hne : other ≠ name) : q.get other = p.get other := by
  obtain ⟨-, n, rfl, -, rfl⟩ := exists_put_of_set h
  obtain ⟨m, rfl⟩ := ParamName.mem_names_iff.mp hother
  have hne : n ≠ m := fun h => hne (congrArg ParamName.text h.symm)
  rw [get_text, get_text, value_put, if_neg hne]

end

/-- The set after a value was set by name; a value that is refused leaves it as it is. -/
def written (p : TuningParams) (name : String) (v : Scalar) : TuningParams :=
  match p.set name v with
  | .ok q => q
  | .error _ => p

/-- What a text gives access to, and what setting a value by it does. -/
structure Access (p : TuningParams) (name : String) (v : Scalar) : Prop where
  get_ok : (∃ x, p.get name = .ok x) ↔ name ∈ ParamName.names
  set_ok : (∃ q, p.set name v = .ok q) ↔
    v.isFinite = true ∧ name ∈ ParamName.names ∧ ParamName.Admits name v
  set_unknown : p.set name v = .error .unknownName ↔ v.isFinite = true ∧ name ∉ ParamName.names
  set_invalid : p.set name v = .error .invalidValue ↔
    v.isFinite = false ∨ name ∈ ParamName.names ∧ ¬ParamName.Admits name v
  get_written : ∀ q, p.set name v = .ok q →
    ∃ x, (p.written name v).get name = .ok x ∧ (x == v) = true
  get_other : ∀ q, p.set name v = .ok q → ∀ other ∈ ParamName.names, other ≠ name →
    (p.written name v).get other = p.get other
  unchanged : ∀ e, p.set name v = .error e → p.written name v = p

theorem access (p : TuningParams) (name : String) (v : Scalar) : p.Access name v := by
  have hwritten : ∀ q, p.set name v = .ok q → p.written name v = q := by
    intro q hq
    rw [written, hq]
  refine ⟨get_ok_iff, exists_set_iff, set_unknownName_iff, set_invalidValue_iff, fun q hq => ?_,
    fun q hq other hother hne => ?_, fun e he => ?_⟩
  · rw [hwritten q hq]
    exact get_of_set hq
  · rw [hwritten q hq]
    exact get_of_set_of_ne hq hother hne
  · rw [written, he]

end TuningParams

namespace TuningTable

/-- What setting a value by name does to a table. -/
structure Tracks (t : TuningTable) (name : String) (v : Scalar) : Prop where
  generation_iff : (t.after (.set name v)).generation.toNat = (t.generation.toNat + 1) % 2 ^ 32 ↔
    ∃ q, t.params.set name v = .ok q
  set_ok : ∀ q, t.params.set name v = .ok q →
    t.set name v = .ok { t with params := q, generation := t.generation + 1 }
  set_error : ∀ e, t.params.set name v = .error e →
    t.set name v = .error e ∧ t.after (.set name v) = t

theorem tracks (t : TuningTable) (name : String) (v : Scalar) : t.Tracks name v := by
  have hok : ∀ q, t.params.set name v = .ok q → t.set name v = .ok (t.replace q) := by
    intro q hq
    rw [TuningTable.set, hq]
    rfl
  have herror : ∀ e, t.params.set name v = .error e →
      t.set name v = .error e ∧ t.after (.set name v) = t := by
    intro e he
    have hset : t.set name v = .error e := by
      rw [TuningTable.set, he]
      rfl
    exact ⟨hset, by rw [after, hset]⟩
  refine ⟨?_, hok, herror⟩
  cases hset : t.params.set name v with
  | ok q =>
    refine iff_of_true ?_ ⟨q, rfl⟩
    rw [after, hok q hset]
    exact UInt32.toNat_add t.generation 1
  | error e =>
    refine iff_of_false ?_ ?_
    · rw [(herror e hset).2]
      have hlt := t.generation.toNat_lt
      omega
    · rintro ⟨q, hq⟩
      cases hq

end TuningTable

/-- Of all texts exactly twenty-five are names, which are read part by part. What they name are
coordinates of a parameter set, and setting one of them by name moves no other. The generation of a
table counts the values that were not refused. -/
theorem named_access :
    ParamName.names.length = 25 ∧ ParamName.names.Nodup ∧
    (∀ name, ParamName.ofText? name = ParamName.ofPath? (ParamName.parts name)) ∧
    (∀ f : String → Scalar,
      (∃! p : TuningParams, ∀ name ∈ ParamName.names, p.get name = .ok (f name)) ↔
        ∀ name ∈ ParamName.flagNames, f name = 0.0 ∨ f name = 1.0) ∧
    ∀ (name : String) (v : Scalar), (∀ p : TuningParams, p.Access name v) ∧
      ∀ t : TuningTable, t.Tracks name v :=
  ⟨by decide, ParamName.nodup_names, ParamName.ofText?_eq_ofPath?,
    fun _ => TuningParams.existsUnique_get_iff, fun name v =>
      ⟨fun p => p.access name v, fun t => t.tracks name v⟩⟩

end Quadrotor

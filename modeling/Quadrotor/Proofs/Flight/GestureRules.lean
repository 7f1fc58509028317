import Mathlib
import Quadrotor.Flight.Gesture
import Quadrotor.Proofs.Checks
import Quadrotor.Proofs.Scalar.Order

/-!
# The rules of gestures

What the sticks have to do for a symbol to count, and which symbols make a gesture, told without any
counter or list that a recogniser might keep. The rules determine everything: there is one way only
to follow them.
-/

namespace Quadrotor

/-! ## Symbols and their sequences -/

/-- The sticks are far enough out for a symbol: to the left, or else to the right, or else up, or else
down. -/
def GestureConfig.Deflects (c : GestureConfig) (roll pitch : Scalar) : Symbol → Prop
  | .left => roll ≤ -c.threshold
  | .right => ¬roll ≤ -c.threshold ∧ c.threshold ≤ roll
  | .up => ¬roll ≤ -c.threshold ∧ ¬c.threshold ≤ roll ∧ c.threshold ≤ pitch
  | .down => ¬roll ≤ -c.threshold ∧ ¬c.threshold ≤ roll ∧ ¬c.threshold ≤ pitch ∧
      pitch ≤ -c.threshold

/-- The symbols that ask for an action. -/
def GestureAction.sequence : GestureAction → List Symbol
  | .toggleLvc => [.left, .left, .left]
  | .toggleYawInversion => [.down, .up, .down]
  | .saveParams => [.down, .down, .down]
  | .stickCheckOn => [.right, .right, .down]
  | .stickCheckOff => [.left, .left, .down]
  | .nextTerm => [.up, .down, .up]
  | .nextAxis => [.up, .down, .down]
  | .increaseGain => [.up, .down, .right]
  | .decreaseGain => [.up, .down, .left]

theorem GestureConfig.symbol?_eq_some_iff {c : GestureConfig} {roll pitch : Scalar} {s : Symbol} :
    c.symbol? roll pitch = some s ↔ c.Deflects roll pitch s := by
  unfold symbol?
  split_ifs with hleft hright hup hdown <;> cases s <;> simp [Deflects, *]

theorem GestureAction.ofSymbols?_eq_some_iff {symbols : List Symbol} {a : GestureAction} :
    ofSymbols? symbols = some a ↔ a.sequence = symbols := by
  constructor
  · intro h
    unfold ofSymbols? at h
    split at h <;> cases h <;> rfl
  · rintro rfl
    cases a <;> rfl

/-- A gesture is made of three symbols. -/
theorem GestureAction.exists_sequence_eq (a : GestureAction) : ∃ x y z, a.sequence = [x, y, z] := by
  cases a <;> exact ⟨_, _, _, rfl⟩

theorem GestureConfig.check_eq_ok {c : GestureConfig} : c.check = .ok () ↔
    c.divider ≠ 0 ∧ c.timeout ≠ 0 ∧ (0.0 < c.centre ∧ c.centre < c.threshold) ∧
      c.threshold ≤ 1.0 := by
  simp only [check, check_bind_eq_ok, require_eq_ok, bne_iff_ne, Bool.and_eq_true,
    decide_eq_true_iff]

/-- Sticks that make a symbol are not centred, however little the centre is below the threshold. -/
theorem GestureConfig.isCentred_of_deflects {c : GestureConfig} (h : c.centre < c.threshold)
    {roll pitch : Scalar} {s : Symbol} (hs : c.Deflects roll pitch s) :
    c.isCentred roll pitch = false := by
  have hout : ∀ {x : Scalar}, c.threshold ≤ x ∨ x ≤ -c.threshold → ¬x.abs < c.centre := by
    intro x hx hcentred
    have hc := (Scalar.lt_iff.mp h).2.2
    have hv := (Scalar.lt_iff.mp hcentred).2.2
    rw [Scalar.value_abs, abs_lt] at hv
    rcases hx with hx | hx
    · have hx := (Scalar.le_iff.mp hx).2.2
      linarith
    · have hx := (Scalar.le_iff.mp hx).2.2
      rw [Scalar.value_neg] at hx
      linarith
  rw [isCentred, ← Bool.not_eq_true, Bool.and_eq_true, decide_eq_true_iff, decide_eq_true_iff]
  rintro ⟨hroll, hpitch⟩
  cases s with
  | left => exact hout (Or.inr hs) hroll
  | right => exact hout (Or.inl hs.2) hroll
  | up => exact hout (Or.inl hs.2.2) hpitch
  | down => exact hout (Or.inr hs.2.2.2) hpitch

namespace Gestures

/-! ## Calls -/

/-- What can be done with a recogniser. -/
inductive Call where
  | update (channels : Channels) (live : Bool)
  | reset

namespace Call

def isUpdate : Call → Bool
  | update _ _ => true
  | reset => false

/-- The sticks of a live update. -/
def sticks? : Call → Option Channels
  | update channels true => some channels
  | update _ false | reset => none

def isLive (call : Call) : Bool := call.sticks?.isSome

theorem isLive_of_sticks? {call : Call} {sticks : Channels} (h : call.sticks? = some sticks) :
    call.isLive = true := by
  rw [isLive, h]
  rfl

end Call

/-! ## The rules -/

section Rules

variable (config : GestureConfig) (calls : List Call)

/-- The number of live updates among the first `n` calls. -/
def liveBefore (n : Nat) : Nat := (calls.take n).countP Call.isLive

/-- The sticks that call `t` looks at: those of each live update whose number is a multiple of the
divider. -/
def sticksAt (t : Nat) : Option Channels :=
  (calls[t]?.bind Call.sticks?).filter fun _ => liveBefore calls (t + 1) % config.divider.toNat == 0

/-- Call `t` finds both sticks at the centre. -/
def CentredAt (t : Nat) : Prop :=
  ∃ sticks ∈ sticksAt config calls t,
    sticks.roll.abs < config.centre ∧ sticks.pitch.abs < config.centre

/-- Call `t` is a reset, or an update with sticks that are not live. -/
def DropsAt (t : Nat) : Prop := ∃ call ∈ calls[t]?, call.isLive = false

/-- After call `p` and before call `t` nothing is dropped and no symbol is registered. -/
def Calm (registered : Nat → Option Symbol) (p t : Nat) : Prop :=
  ∀ u, p < u → u < t → ¬DropsAt calls u ∧ registered u = none

variable (registered : Nat → Option Symbol) (action : Nat → Option GestureAction)

/-- The symbols registered by calls `i`, `j` and `t` make a gesture. -/
structure Makes (i j t : Nat) (a : GestureAction) : Prop where
  first : i < j
  second : j < t
  /-- They are the sequence of the action. -/
  symbols : ∃ x y z, registered i = some x ∧ registered j = some y ∧ registered t = some z ∧
    a.sequence = [x, y, z]
  /-- They come in a row. -/
  calm_first : Calm calls registered i j
  calm_second : Calm calls registered j t
  /-- None of them waits too long for the next. -/
  timely_first : j ≤ i + config.timeout.toNat
  timely_second : t ≤ j + config.timeout.toNat
  /-- None of them has been used. -/
  unused : ∀ u, i ≤ u → u < t → action u = none

/-- What is registered, and what is asked for, is what the rules say. -/
structure Rules : Prop where
  registered_iff : ∀ t s, registered t = some s ↔ ∃ sticks ∈ sticksAt config calls t,
    config.Deflects sticks.roll sticks.pitch s ∧
      ∃ c < t, CentredAt config calls c ∧ Calm calls registered c t
  action_iff : ∀ t a, action t = some a ↔ ∃ i j, Makes config calls registered action i j t a

end Rules

section Consequences

variable {config : GestureConfig} {calls : List Call} {registered registered' : Nat → Option Symbol}
  {action action' : Nat → Option GestureAction}

theorem centredAt_iff {t : Nat} {sticks : Channels} (h : sticks ∈ sticksAt config calls t) :
    CentredAt config calls t ↔ config.isCentred sticks.roll sticks.pitch = true := by
  rw [GestureConfig.isCentred, Bool.and_eq_true, decide_eq_true_iff, decide_eq_true_iff]
  constructor
  · rintro ⟨sticks', h', hcentred⟩
    obtain rfl := Option.mem_unique h h'
    exact hcentred
  · exact fun hcentred => ⟨sticks, h, hcentred⟩

theorem not_centredAt (hconfig : config.centre < config.threshold) {t : Nat} {sticks : Channels}
    {s : Symbol} (h : sticks ∈ sticksAt config calls t)
    (hs : config.Deflects sticks.roll sticks.pitch s) : ¬CentredAt config calls t := by
  rw [centredAt_iff h, GestureConfig.isCentred_of_deflects hconfig hs]
  exact Bool.false_ne_true

/-- It stays calm as long as a call neither drops nor registers. -/
theorem calm_succ {p t : Nat} (hp : p < t) : Calm calls registered p (t + 1) ↔
    Calm calls registered p t ∧ ¬DropsAt calls t ∧ registered t = none := by
  constructor
  · intro h
    exact ⟨fun u hu hut => h u hu (Nat.lt_succ_of_lt hut), h t hp t.lt_succ_self⟩
  · rintro ⟨h, hlast⟩ u hu hut
    rcases Nat.lt_succ_iff_lt_or_eq.mp hut with hlt | rfl
    · exact h u hu hlt
    · exact hlast

theorem calm_self (p : Nat) : Calm calls registered p (p + 1) :=
  fun u hu hup => absurd hup (by omega)

theorem calm_succ_of_still {p t : Nat} (hkeeps : ¬DropsAt calls t) (hnone : registered t = none)
    (hp : p < t) : Calm calls registered p (t + 1) ↔ Calm calls registered p t :=
  (calm_succ hp).trans (and_iff_left ⟨hkeeps, hnone⟩)

/-- A call that drops or registers ends the calm for every call before it. -/
theorem eq_of_calm {p t : Nat} (hend : DropsAt calls t ∨ registered t ≠ none) (hp : p < t + 1)
    (hcalm : Calm calls registered p (t + 1)) : p = t := by
  by_contra hne
  obtain ⟨-, hkeeps, hnone⟩ := (calm_succ (by omega)).mp hcalm
  rcases hend with hdrops | hregistered
  · exact hkeeps hdrops
  · exact hregistered hnone

theorem Calm.congr {p t : Nat} (h : ∀ u < t, registered u = registered' u) :
    Calm calls registered p t ↔ Calm calls registered' p t := by
  refine forall_congr' fun u => imp_congr_right fun _ => imp_congr_right fun hu => ?_
  rw [h u hu]

theorem Makes.of_agree {i j t : Nat} {a : GestureAction} (h : ∀ u < t, action u = action' u)
    (hm : Makes config calls registered action i j t a) :
    Makes config calls registered action' i j t a :=
  { hm with unused := fun u hi hu => (h u hu).symm.trans (hm.unused u hi hu) }

/-- The rules determine what is registered and what is asked for. -/
theorem Rules.unique (h : Rules config calls registered action)
    (h' : Rules config calls registered' action') : registered = registered' ∧ action = action' := by
  have hregistered : registered = registered' := by
    funext t
    induction t using Nat.strong_induction_on with
    | _ t ih =>
      refine Option.ext fun s => ?_
      have hcalm : ∀ c, Calm calls registered c t ↔ Calm calls registered' c t :=
        fun c => Calm.congr ih
      simp only [h.registered_iff, h'.registered_iff, hcalm]
  subst hregistered
  refine ⟨rfl, funext fun t => ?_⟩
  induction t using Nat.strong_induction_on with
  | _ t ih =>
    refine Option.ext fun a => ?_
    rw [h.action_iff, h'.action_iff]
    exact ⟨fun ⟨i, j, hm⟩ => ⟨i, j, hm.of_agree ih⟩,
      fun ⟨i, j, hm⟩ => ⟨i, j, hm.of_agree fun u hu => (ih u hu).symm⟩⟩

/-- No symbol is part of two gestures. -/
theorem Rules.disjoint (h : Rules config calls registered action) {i j t i' j' t' : Nat}
    {a a' : GestureAction} (hm : Makes config calls registered action i j t a)
    (hm' : Makes config calls registered action i' j' t' a') (hlt : t < t') : t < i' := by
  by_contra hle
  have hnone := hm'.unused t (Nat.le_of_not_lt hle) hlt
  rw [(h.action_iff t a).mpr ⟨i, j, hm⟩] at hnone
  cases hnone

/-- Between two symbols the sticks have been centred. -/
theorem Rules.recentred (h : Rules config calls registered action)
    (hconfig : config.centre < config.threshold) {p t : Nat} {s s' : Symbol} (hlt : p < t)
    (hp : registered p = some s) (ht : registered t = some s') :
    ∃ c, p < c ∧ c < t ∧ CentredAt config calls c := by
  obtain ⟨sticks, hsticks, -, c, hc, hcentred, hcalm⟩ := (h.registered_iff t s').mp ht
  rcases lt_trichotomy c p with hcp | rfl | hpc
  · rw [(hcalm p hcp hlt).2] at hp
    cases hp
  · -- The first of the two is itself out of the centre.
    obtain ⟨out, hout, hdeflects, -⟩ := (h.registered_iff c s).mp hp
    exact absurd hcentred (not_centredAt hconfig hout hdeflects)
  · exact ⟨c, hpc, hc, hcentred⟩

end Consequences

end Gestures

end Quadrotor

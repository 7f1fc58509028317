import Mathlib
import Quadrotor.Flight.Watch

/-!
# Handing values over

A watch and each of its readers count messages for themselves, with words that come round. As long as
there are fewer messages than a word can tell apart, a reader is given something exactly where a
message has come since it was last given something, and then it is given what the latest message has
left. What other readers do makes no difference to it.
-/

namespace Quadrotor.Watch

variable {α : Type}

/-- What can be done with a watch; readers are numbered in the order in which they are made. -/
inductive Act (α : Type) where
  | send (v : α)
  | modify (f : α → α)
  /-- A look at the latest message without a reader. -/
  | peek
  | newReader
  | changed (i : Nat)
  | get (i : Nat)

namespace Act

def isMessage : Act α → Bool
  | send _ | modify _ => true
  | peek | newReader | changed _ | get _ => false

def makesReader : Act α → Bool
  | newReader => true
  | send _ | modify _ | peek | changed _ | get _ => false

/-- Reader `i` is asked. -/
def asks (i : Nat) : Act α → Bool
  | changed j | get j => j == i
  | send _ | modify _ | peek | newReader => false

/-- Some other reader than `i` is asked. -/
def asksAnother (i : Nat) : Act α → Bool
  | changed j | get j => j != i
  | send _ | modify _ | peek | newReader => false

/-- The value after an act that finds `value`. -/
def leaves (value : Option α) : Act α → Option α
  | send v => some v
  | modify f => value.map f
  | peek | newReader | changed _ | get _ => value

end Act

/-- A watch with its readers. -/
structure Shared (α : Type) where
  watch : Watch α := {}
  readers : List Reader := []

namespace Shared

/-- Reader `i` makes a query; a reader that does not exist makes none. -/
def ask (s : Shared α) (query : Watch α → Reader → Reader × Option α) (i : Nat) :
    Shared α × Option α :=
  match s.readers[i]? with
  | some r => ({ s with readers := s.readers.set i (query s.watch r).1 }, (query s.watch r).2)
  | none => (s, none)

/-- One act, and what it answers. -/
def act (s : Shared α) : Act α → Shared α × Option α
  | .send v => ({ s with watch := s.watch.send v }, none)
  | .modify f => ({ s with watch := s.watch.modify f }, none)
  | .peek => (s, s.watch.value)
  | .newReader => ({ s with readers := s.readers ++ [{}] }, none)
  | .changed i => s.ask changed i
  | .get i => s.ask get i

/-- Reader `i`, or one that has seen nothing if it does not exist yet. -/
def reader (s : Shared α) (i : Nat) : Reader := s.readers.getD i {}

end Shared

/-- An act with what it finds, what it leaves, and its answer. -/
structure Step (α : Type) where
  act : Act α
  before : Shared α
  after : Shared α
  answer : Option α

def log (s : Shared α) : List (Act α) → List (Step α)
  | [] => []
  | a :: acts => ⟨a, s, (s.act a).1, (s.act a).2⟩ :: log (s.act a).1 acts

/-- The answers that reader `i` is given. -/
def answersTo (i : Nat) (steps : List (Step α)) : List (Option α) :=
  (steps.filter fun step => step.act.asks i).map Step.answer

/-! ## What an act does -/

namespace Shared

theorem get_eq (w : Watch α) (r : Reader) :
    w.get r = (if w.value.isSome then ⟨w.number⟩ else r, w.value) := by
  unfold get
  cases w.value <;> rfl

theorem ask_readers (s : Shared α) (query : Watch α → Reader → Reader × Option α) (i j : Nat)
    (h : ∀ r, (query s.watch r).1 = if (query s.watch r).2.isSome then ⟨s.watch.number⟩ else r) :
    (s.ask query i).1.reader j =
      if i = j ∧ (s.ask query i).2.isSome then ⟨s.watch.number⟩ else s.reader j := by
  unfold ask
  cases hr : s.readers[i]? with
  | none => simp
  | some r =>
    simp only [reader, List.getD_eq_getElem?_getD, List.getElem?_set]
    by_cases hij : i = j
    · subst hij
      have hlt : i < s.readers.length := (List.getElem?_eq_some_iff.mp hr).1
      simp only [hr, if_true, if_pos hlt, Option.getD_some, true_and]
      exact h r
    · simp [hij]

theorem changed_reader (w : Watch α) (r : Reader) :
    (w.changed r).1 = if (w.changed r).2.isSome then ⟨w.number⟩ else r := by
  unfold changed
  split_ifs with h <;> simp_all [get_eq]

/-- An answer makes its reader know the latest message; nothing else changes any reader. -/
theorem act_reader (s : Shared α) (a : Act α) (j : Nat) :
    (s.act a).1.reader j =
      if a.asks j = true ∧ (s.act a).2.isSome then ⟨s.watch.number⟩ else s.reader j := by
  cases a with
  | send | modify | peek => simp [act, reader, Act.asks]
  | newReader =>
    simp only [act, reader, Act.asks, List.getD_eq_getElem?_getD, Bool.false_eq_true, false_and,
      if_false]
    rcases lt_trichotomy j s.readers.length with h | rfl | h
    · rw [List.getElem?_append_left h]
    · simp
    · rw [List.getElem?_eq_none (by simp; omega), List.getElem?_eq_none (by omega)]
  | changed i =>
    have := s.ask_readers changed i j fun r => changed_reader s.watch r
    simpa [act, Act.asks] using this
  | get i =>
    have := s.ask_readers get i j fun r => by simp [get_eq]
    simpa [act, Act.asks] using this

theorem act_length (s : Shared α) (a : Act α) :
    (s.act a).1.readers.length = s.readers.length + if a.makesReader then 1 else 0 := by
  cases a with
  | send | modify | peek | newReader => simp [act, Act.makesReader]
  | changed i | get i =>
    simp only [act, ask, Act.makesReader]
    cases s.readers[i]? <;> simp

theorem act_value (s : Shared α) (a : Act α) :
    (s.act a).1.watch.value = a.leaves s.watch.value := by
  cases a with
  | send | peek | newReader => rfl
  | modify f =>
    simp only [act, modify, Act.leaves]
    cases h : s.watch.value <;> simp [h]
  | changed i | get i =>
    simp only [act, ask, Act.leaves]
    cases s.readers[i]? <;> rfl

/-- A message takes the next number, unless it modifies one that is not there. -/
theorem act_number (s : Shared α) (a : Act α) :
    (s.act a).1.watch.number =
      if a.isMessage = true ∧ (a.leaves s.watch.value).isSome then s.watch.number + 1
      else s.watch.number := by
  cases a with
  | send => simp [act, send, Act.isMessage, Act.leaves]
  | peek | newReader => simp [act, Act.isMessage]
  | modify f =>
    simp only [act, modify, Act.isMessage, Act.leaves]
    cases s.watch.value <;> simp
  | changed i | get i =>
    simp only [act, ask, Act.isMessage]
    cases s.readers[i]? <;> simp

/-- A reader that is told nothing is left as it is. -/
theorem ask_of_none {s : Shared α} {query : Watch α → Reader → Reader × Option α} {i : Nat}
    (h : ∀ r, (query s.watch r).1 = if (query s.watch r).2.isSome then ⟨s.watch.number⟩ else r)
    (hnone : (s.ask query i).2 = none) : (s.ask query i).1 = s := by
  unfold ask at hnone ⊢
  cases hr : s.readers[i]? with
  | none => rfl
  | some r =>
    simp only [hr] at hnone ⊢
    have hsame : (query s.watch r).1 = r := by rw [h r, hnone]; rfl
    obtain ⟨hlt, hget⟩ := List.getElem?_eq_some_iff.mp hr
    rw [hsame, ← hget, List.set_getElem_self]

end Shared

/-! ## Histories -/

section History

variable (acts : List (Act α)) (steps : List (Step α))

/-- The value that the latest message has left. -/
def latest : Option α := acts.foldl Act.leaves none

/-- Act `m` leaves a message: one that is sent, or one that is made from an earlier one. -/
def LeavesMessage (m : Nat) : Prop :=
  (∃ v, acts[m]? = some (.send v)) ∨
    (∃ f, acts[m]? = some (.modify f)) ∧ ∃ s < m, ∃ v, acts[s]? = some (.send v)

/-- In step `u` reader `i` is given something. -/
def GivenAt (i u : Nat) : Prop :=
  ∃ step, steps[u]? = some step ∧ step.act.asks i = true ∧ step.answer.isSome = true

/-- Ahead of act `t` there is a message since reader `i` was last given something. -/
def News (i t : Nat) : Prop :=
  ∃ m < t, LeavesMessage acts m ∧ ∀ u, m < u → u < t → ¬GivenAt steps i u

variable {acts steps}

theorem latest_take_succ {t : Nat} {a : Act α} (ha : acts[t]? = some a) :
    latest (acts.take (t + 1)) = a.leaves (latest (acts.take t)) := by
  unfold latest
  rw [List.take_add_one, ha, List.foldl_append]
  rfl

theorem latest_isSome_iff {t : Nat} (ht : t ≤ acts.length) :
    (latest (acts.take t)).isSome = true ↔ ∃ s < t, ∃ v, acts[s]? = some (.send v) := by
  induction t with
  | zero => simp [latest]
  | succ t ih =>
    obtain ⟨a, ha⟩ : ∃ a, acts[t]? = some a := ⟨_, List.getElem?_eq_getElem ht⟩
    have hstep : (∃ s < t + 1, ∃ v, acts[s]? = some (.send v)) ↔
        (∃ v, a = .send v) ∨ ∃ s < t, ∃ v, acts[s]? = some (.send v) := by
      constructor
      · rintro ⟨s, hs, v, hv⟩
        rcases Nat.lt_succ_iff_lt_or_eq.mp hs with hlt | rfl
        · exact Or.inr ⟨s, hlt, v, hv⟩
        · exact Or.inl ⟨v, Option.some_inj.mp (ha.symm.trans hv)⟩
      · rintro (⟨v, rfl⟩ | ⟨s, hs, v, hv⟩)
        · exact ⟨t, by omega, v, ha⟩
        · exact ⟨s, by omega, v, hv⟩
    rw [latest_take_succ ha, hstep, ← ih (by omega)]
    cases a <;> simp [Act.leaves]

theorem leavesMessage_iff {t : Nat} {a : Act α} (ha : acts[t]? = some a) :
    LeavesMessage acts t ↔ a.isMessage = true ∧ (a.leaves (latest (acts.take t))).isSome = true := by
  have hlt : t < acts.length := (List.getElem?_eq_some_iff.mp ha).1
  have hsent := latest_isSome_iff hlt.le
  unfold LeavesMessage
  rw [← hsent, ha]
  cases a <;> simp [Act.isMessage, Act.leaves]

/-- One act later there is news if the act leaves a message, or if there was news and it has not been
given. -/
theorem news_succ {i t : Nat} :
    News acts steps i (t + 1) ↔
      LeavesMessage acts t ∨ News acts steps i t ∧ ¬GivenAt steps i t := by
  constructor
  · rintro ⟨m, hm, hleaves, hquiet⟩
    rcases Nat.lt_succ_iff_lt_or_eq.mp hm with hlt | rfl
    · exact Or.inr ⟨⟨m, hlt, hleaves, fun u hu hut => hquiet u hu (by omega)⟩,
        hquiet t hlt (by omega)⟩
    · exact Or.inl hleaves
  · rintro (hleaves | ⟨⟨m, hm, hleaves, hquiet⟩, hnow⟩)
    · exact ⟨t, by omega, hleaves, fun u hu hut => by omega⟩
    · refine ⟨m, by omega, hleaves, fun u hu hut => ?_⟩
      rcases Nat.lt_succ_iff_lt_or_eq.mp hut with hlt | rfl
      · exact hquiet u hu hlt
      · exact hnow

/-! ## What the numbers know of the history -/

variable (acts steps) in
/-- Ahead of act `t` the watch holds what the latest message has left, and a reader knows the number
of the watch exactly if there is no news for it. -/
structure Tracks (s : Shared α) (t : Nat) : Prop where
  value : s.watch.value = latest (acts.take t)
  length : s.readers.length = (acts.take t).countP Act.makesReader
  number : s.watch.number.toNat ≤ (acts.take t).countP Act.isMessage
  unnumbered : s.watch.value = none → s.watch.number = 0
  seen_le : ∀ i, (s.reader i).seen ≤ s.watch.number
  news : ∀ i, s.watch.number = (s.reader i).seen ↔ ¬News acts steps i t

theorem tracks_start : Tracks acts steps ({} : Shared α) 0 where
  value := rfl
  length := rfl
  number := le_rfl
  unnumbered _ := rfl
  seen_le _ := UInt64.le_refl 0
  news i := by
    refine iff_of_true rfl ?_
    rintro ⟨m, hm, -⟩
    exact absurd hm (Nat.not_lt_zero m)

variable {s : Shared α} {a : Act α} {t : Nat}

theorem Tracks.leavesMessage_iff (h : Tracks acts steps s t) (ha : acts[t]? = some a) :
    LeavesMessage acts t ↔ a.isMessage = true ∧ (a.leaves s.watch.value).isSome = true := by
  rw [h.value]
  exact Watch.leavesMessage_iff ha

/-- The numbers do not come round. -/
theorem Tracks.number_of_message (h : Tracks acts steps s t)
    (hfew : acts.countP Act.isMessage < 2 ^ 64) (ha : acts[t]? = some a)
    (hm : LeavesMessage acts t) :
    (s.act a).1.watch.number.toNat = s.watch.number.toNat + 1 := by
  rw [h.leavesMessage_iff ha] at hm
  have hle : (acts.take (t + 1)).countP Act.isMessage ≤ acts.countP Act.isMessage :=
    (List.take_sublist _ _).countP_le
  have hnumber := h.number
  rw [List.take_add_one, ha, Option.toList_some, List.countP_append, List.countP_singleton,
    if_pos hm.1] at hle
  rw [s.act_number a, if_pos hm, UInt64.toNat_add, UInt64.toNat_one]
  exact Nat.mod_eq_of_lt (by omega)

theorem Tracks.number_of_quiet (h : Tracks acts steps s t) (ha : acts[t]? = some a)
    (hm : ¬LeavesMessage acts t) : (s.act a).1.watch.number = s.watch.number := by
  rw [h.leavesMessage_iff ha] at hm
  rw [s.act_number a, if_neg hm]

theorem givenAt_iff (hstep : steps[t]? = some ⟨a, s, (s.act a).1, (s.act a).2⟩) (i : Nat) :
    GivenAt steps i t ↔ a.asks i = true ∧ (s.act a).2.isSome = true := by
  simp [GivenAt, hstep]

theorem reader_of_given (hstep : steps[t]? = some ⟨a, s, (s.act a).1, (s.act a).2⟩) {i : Nat}
    (hg : GivenAt steps i t) : (s.act a).1.reader i = ⟨s.watch.number⟩ := by
  rw [s.act_reader a i, if_pos ((givenAt_iff hstep i).mp hg)]

theorem reader_of_not_given (hstep : steps[t]? = some ⟨a, s, (s.act a).1, (s.act a).2⟩) {i : Nat}
    (hg : ¬GivenAt steps i t) : (s.act a).1.reader i = s.reader i := by
  rw [s.act_reader a i, if_neg fun hc => hg ((givenAt_iff hstep i).mpr hc)]

theorem Tracks.seen_le_number (h : Tracks acts steps s t)
    (hstep : steps[t]? = some ⟨a, s, (s.act a).1, (s.act a).2⟩) (i : Nat) :
    ((s.act a).1.reader i).seen ≤ s.watch.number := by
  by_cases hg : GivenAt steps i t
  · rw [reader_of_given hstep hg]
    exact UInt64.le_refl _
  · rw [reader_of_not_given hstep hg]
    exact h.seen_le i

theorem Tracks.step (h : Tracks acts steps s t) (hfew : acts.countP Act.isMessage < 2 ^ 64)
    (ha : acts[t]? = some a) (hstep : steps[t]? = some ⟨a, s, (s.act a).1, (s.act a).2⟩) :
    Tracks acts steps (s.act a).1 (t + 1) := by
  have htake : acts.take (t + 1) = acts.take t ++ [a] := by rw [List.take_add_one, ha]; rfl
  refine ⟨?_, ?_, ?_, fun hnone => ?_, fun i => ?_, fun i => ?_⟩
  · rw [s.act_value a, h.value, latest_take_succ ha]
  · rw [s.act_length a, h.length, htake, List.countP_append, List.countP_singleton]
  · have hnumber := h.number
    rw [htake, List.countP_append, List.countP_singleton]
    by_cases hm : LeavesMessage acts t
    · rw [h.number_of_message hfew ha hm, if_pos ((h.leavesMessage_iff ha).mp hm).1]
      omega
    · rw [h.number_of_quiet ha hm]
      omega
  · rw [s.act_value a] at hnone
    have hquiet : ¬LeavesMessage acts t := by
      rw [h.leavesMessage_iff ha, hnone]
      simp
    rw [h.number_of_quiet ha hquiet]
    apply h.unnumbered
    cases a <;> simp_all [Act.leaves]
  · have hle := h.seen_le_number hstep i
    by_cases hm : LeavesMessage acts t
    · rw [UInt64.le_iff_toNat_le] at hle ⊢
      rw [h.number_of_message hfew ha hm]
      omega
    · rw [h.number_of_quiet ha hm]
      exact hle
  · rw [news_succ]
    by_cases hm : LeavesMessage acts t
    · refine iff_of_false (fun heq => ?_) (by simp [hm])
      have hle := UInt64.le_iff_toNat_le.mp (h.seen_le_number hstep i)
      rw [← heq, h.number_of_message hfew ha hm] at hle
      omega
    · rw [h.number_of_quiet ha hm]
      by_cases hg : GivenAt steps i t
      · simp [reader_of_given hstep hg, hm, hg]
      · simp [reader_of_not_given hstep hg, hm, hg, h.news i]

/-- Every step is one from a state that keeps up with the history. -/
theorem exists_tracks {s : Shared α} {t : Nat} (h : Tracks acts steps s t)
    (hfew : acts.countP Act.isMessage < 2 ^ 64) (hsteps : steps.drop t = log s (acts.drop t))
    {n : Nat} {step : Step α} (hn : t ≤ n) (hstep : steps[n]? = some step) :
    Tracks acts steps step.before n ∧ acts[n]? = some step.act ∧
      step.after = (step.before.act step.act).1 ∧ step.answer = (step.before.act step.act).2 := by
  -- Along the acts that are left, with the position moving on.
  generalize hrest : acts.drop t = rest at hsteps
  induction rest generalizing s t with
  | nil =>
    have hlen : steps.length ≤ t := List.drop_eq_nil_iff.mp hsteps
    rw [List.getElem?_eq_none (by omega)] at hstep
    cases hstep
  | cons a rest ih =>
    have ha : acts[t]? = some a := by
      have h0 := congrArg (fun l => l[0]?) hrest
      simpa using h0
    have hnow : steps[t]? = some ⟨a, s, (s.act a).1, (s.act a).2⟩ := by
      have h0 := congrArg (fun l => l[0]?) hsteps
      simpa [log] using h0
    rcases Nat.eq_or_lt_of_le hn with rfl | hlt
    · obtain rfl := Option.some_inj.mp (hnow.symm.trans hstep)
      exact ⟨h, ha, rfl, rfl⟩
    · refine ih (h.step hfew ha hnow) hlt ?_ ?_
      · rw [← List.tail_drop, hrest]
        rfl
      · rw [← List.tail_drop, hsteps]
        rfl

end History

theorem log_acts (s : Shared α) (acts : List (Act α)) : (log s acts).map Step.act = acts := by
  induction acts generalizing s with
  | nil => rfl
  | cons a acts ih => rw [log, List.map_cons, ih]

/-! ## Readers among each other -/

/-- Reader `i` cannot tell the one from the other. -/
structure Shared.Alike (i : Nat) (s t : Shared α) : Prop where
  watch : s.watch = t.watch
  length : s.readers.length = t.readers.length
  reader : s.readers[i]? = t.readers[i]?

theorem Shared.Alike.ask {i : Nat} {s t : Shared α} (h : s.Alike i t)
    (query : Watch α → Reader → Reader × Option α) :
    (s.ask query i).1.Alike i (t.ask query i).1 ∧ (s.ask query i).2 = (t.ask query i).2 := by
  unfold Shared.ask
  rw [h.watch, h.reader]
  cases hr : t.readers[i]? with
  | none => exact ⟨h, rfl⟩
  | some r =>
    refine ⟨⟨rfl, ?_, ?_⟩, rfl⟩
    · simp [h.length]
    · simp [List.getElem?_set, h.length]

theorem Shared.Alike.act {i : Nat} {s t : Shared α} (h : s.Alike i t) {a : Act α}
    (ha : a.asksAnother i = false) :
    (s.act a).1.Alike i (t.act a).1 ∧ (s.act a).2 = (t.act a).2 := by
  cases a with
  | send v => exact ⟨⟨by simp [Shared.act, h.watch], h.length, h.reader⟩, rfl⟩
  | modify f => exact ⟨⟨by simp [Shared.act, h.watch], h.length, h.reader⟩, rfl⟩
  | peek => exact ⟨h, by simp [Shared.act, h.watch]⟩
  | newReader =>
    refine ⟨⟨h.watch, by simp [Shared.act, h.length], ?_⟩, rfl⟩
    simp only [Shared.act, List.getElem?_append, h.length, h.reader]
  | changed j | get j =>
    obtain rfl : j = i := by simpa [Act.asksAnother] using ha
    exact h.ask _

/-- What another reader asks for makes no difference. -/
theorem Shared.alike_act {i : Nat} (s : Shared α) {a : Act α} (ha : a.asksAnother i = true) :
    (s.act a).1.Alike i s := by
  have hask : ∀ (query : Watch α → Reader → Reader × Option α) (j : Nat), j ≠ i →
      (s.ask query j).1.Alike i s := by
    intro query j hj
    unfold Shared.ask
    cases s.readers[j]? with
    | none => exact ⟨rfl, rfl, rfl⟩
    | some r => exact ⟨rfl, by simp, by simp [List.getElem?_set_ne hj]⟩
  cases a with
  | send | modify | peek | newReader => cases ha
  | changed j | get j => exact hask _ j (by simpa [Act.asksAnother] using ha)

theorem Shared.Alike.trans {i : Nat} {s t u : Shared α} (h : s.Alike i t) (k : t.Alike i u) :
    s.Alike i u := ⟨h.watch.trans k.watch, h.length.trans k.length, h.reader.trans k.reader⟩

theorem answersTo_filter {i : Nat} {s t : Shared α} (h : s.Alike i t) (acts : List (Act α)) :
    answersTo i (log s acts) = answersTo i (log t (acts.filter fun a => !a.asksAnother i)) := by
  induction acts generalizing s t with
  | nil => rfl
  | cons a acts ih =>
    cases ha : a.asksAnother i with
    | true =>
      have hno : a.asks i = false := by
        cases a with
        | send | modify | peek | newReader => rfl
        | changed j | get j => simpa [Act.asks, Act.asksAnother] using ha
      rw [List.filter_cons_of_neg (by simp [ha]), ← ih ((s.alike_act ha).trans h)]
      simp [answersTo, log, hno]
    | false =>
      obtain ⟨hnext, hsame⟩ := h.act ha
      have hrest := ih hnext
      rw [List.filter_cons_of_pos (by simp [ha])]
      unfold answersTo at hrest ⊢
      cases hi : a.asks i <;> simp [log, hi, hsame, hrest]

/-! ## What readers are given -/

section Answers

variable {acts : List (Act α)} {steps : List (Step α)} {s : Shared α} {t i : Nat}

theorem Shared.reader_of_lt (hi : i < s.readers.length) : s.readers[i]? = some (s.reader i) := by
  simp [Shared.reader, hi]

/-- Where nothing has been sent yet, no reader can be behind. -/
theorem Tracks.value_isSome (h : Tracks acts steps s t)
    (hbehind : s.watch.number ≠ (s.reader i).seen) : s.watch.value.isSome = true := by
  by_contra hc
  have hzero := h.unnumbered (by simpa using hc)
  have hle := h.seen_le i
  rw [hzero] at hle hbehind
  exact hbehind (UInt64.le_zero_iff.mp hle).symm

/-- A reader is given the latest value exactly if there is news for it. -/
theorem Tracks.answer_changed (h : Tracks acts steps s t) (hi : i < s.readers.length) :
    ((s.act (.changed i)).2.isSome = true ↔ News acts steps i t) ∧
      ∀ v, (s.act (.changed i)).2 = some v → latest (acts.take t) = some v := by
  have hchanged : (s.act (.changed i)).2 = (s.watch.changed (s.reader i)).2 := by
    simp [Shared.act, Shared.ask, Shared.reader_of_lt hi]
  by_cases hseen : s.watch.number = (s.reader i).seen
  · have hnone : (s.act (.changed i)).2 = none := by rw [hchanged, Watch.changed, if_pos hseen]
    rw [hnone]
    exact ⟨iff_of_false Bool.false_ne_true ((h.news i).mp hseen), fun v hv => by cases hv⟩
  · have hvalue : (s.act (.changed i)).2 = s.watch.value := by
      rw [hchanged, Watch.changed, if_neg hseen, Shared.get_eq]
    have hnews : News acts steps i t := by
      by_contra hc
      exact hseen ((h.news i).mpr hc)
    rw [hvalue, ← h.value]
    exact ⟨iff_of_true (h.value_isSome hseen) hnews, fun v hv => hv⟩

theorem Tracks.answer_get (h : Tracks acts steps s t) (hi : i < s.readers.length) :
    (s.act (.get i)).2 = latest (acts.take t) := by
  rw [← h.value]
  simp [Shared.act, Shared.ask, Shared.reader_of_lt hi, Shared.get_eq]

/-- Without a value there is nothing to modify. -/
theorem Tracks.modify_of_unsent (h : Tracks acts steps s t) (ht : t ≤ acts.length)
    (hunsent : ∀ u < t, ∀ v, acts[u]? ≠ some (.send v)) (f : α → α) : (s.act (.modify f)).1 = s := by
  have hnone : s.watch.value = none := by
    rw [h.value, ← Option.not_isSome_iff_eq_none, latest_isSome_iff ht]
    rintro ⟨u, hu, v, hv⟩
    exact hunsent u hu v hv
  simp only [Shared.act, Watch.modify, hnone]

end Answers

/-- How a watch hands values over, in all steps of a history. -/
structure HandsOver (acts : List (Act α)) (steps : List (Step α)) : Prop where
  acts_eq : steps.map Step.act = acts
  /-- A reader is given something exactly if there is news for it, and nothing changes otherwise. -/
  changed : ∀ (t : Nat) (step : Step α) (i : Nat), steps[t]? = some step → step.act = .changed i →
    i < (acts.take t).countP Act.makesReader →
      (step.answer.isSome = true ↔ News acts steps i t) ∧
      (∀ v, step.answer = some v → latest (acts.take t) = some v) ∧
      (step.answer = none → step.after = step.before)
  get : ∀ (t : Nat) (step : Step α) (i : Nat), steps[t]? = some step → step.act = .get i →
    i < (acts.take t).countP Act.makesReader →
      step.answer = latest (acts.take t) ∧ (step.answer = none → step.after = step.before)
  peek : ∀ (t : Nat) (step : Step α), steps[t]? = some step → step.act = .peek →
    step.answer = latest (acts.take t) ∧ step.after = step.before
  /-- There is nothing to modify before the first value has been sent. -/
  modify : ∀ (t : Nat) (step : Step α) (f : α → α), steps[t]? = some step → step.act = .modify f →
    (∀ s < t, ∀ v, acts[s]? ≠ some (.send v)) → step.after = step.before
  /-- A reader is answered as if it were the only one. -/
  alone : ∀ i, answersTo i steps
    = answersTo i (log {} (acts.filter fun a => !a.asksAnother i))

theorem handsOver_of_few (acts : List (Act α)) (hfew : acts.countP Act.isMessage < 2 ^ 64) :
    HandsOver acts (log {} acts) := by
  have htracks : ∀ t step, (log {} acts)[t]? = some step →
      Tracks acts (log {} acts) step.before t ∧ acts[t]? = some step.act ∧
        step.after = (step.before.act step.act).1 ∧
        step.answer = (step.before.act step.act).2 :=
    fun t step hstep => exists_tracks tracks_start hfew rfl (Nat.zero_le t) hstep
  refine ⟨log_acts _ _, ?_, ?_, ?_, ?_, fun i => answersTo_filter ⟨rfl, rfl, rfl⟩ acts⟩
  · intro t step i hstep hact hi
    obtain ⟨h, -, hafter, hanswer⟩ := htracks t step hstep
    rw [hact] at hafter hanswer
    rw [← h.length] at hi
    obtain ⟨hnews, hlatest⟩ := h.answer_changed hi
    rw [hafter, hanswer]
    exact ⟨hnews, hlatest, Shared.ask_of_none fun r => Shared.changed_reader _ r⟩
  · intro t step i hstep hact hi
    obtain ⟨h, -, hafter, hanswer⟩ := htracks t step hstep
    rw [hact] at hafter hanswer
    rw [← h.length] at hi
    rw [hafter, hanswer]
    exact ⟨h.answer_get hi, Shared.ask_of_none fun r => by simp [Shared.get_eq]⟩
  · intro t step hstep hact
    obtain ⟨h, -, hafter, hanswer⟩ := htracks t step hstep
    rw [hact] at hafter hanswer
    exact ⟨hanswer.trans h.value, hafter⟩
  · intro t step f hstep hact hunsent
    obtain ⟨h, hat, hafter, -⟩ := htracks t step hstep
    rw [hafter, hact]
    exact h.modify_of_unsent (List.getElem?_eq_some_iff.mp hat).1.le hunsent f

/-- Something is sent and modified before the second reader is there; the first reader asks twice. -/
def relay : List (Act Nat) :=
  [.newReader, .modify (· + 1), .send 7, .modify (· + 1), .newReader, .changed 0, .changed 0, .get 1]

theorem handsOver_of_few_relay :
    relay.countP Act.isMessage < 2 ^ 64 ∧
    (log {} relay).map Step.answer = [none, none, none, none, none, some 8, none, some 8] ∧
    News relay (log {} relay) 0 5 ∧ ¬News relay (log {} relay) 0 6 ∧
    answersTo 0 (log {} relay) = answersTo 0 (log {} (relay.filter fun a => !a.asksAnother 0)) := by
  have hfew : relay.countP Act.isMessage < 2 ^ 64 := by decide
  have h := handsOver_of_few relay hfew
  refine ⟨hfew, rfl, ?_, ?_, h.alone 0⟩
  · exact (h.changed 5 _ 0 rfl rfl (by decide)).1.mp rfl
  · intro hnews
    have hanswered := (h.changed 6 _ 0 rfl rfl (by decide)).1.mpr hnews
    cases hanswered

end Quadrotor.Watch

import Mathlib
import Quadrotor.Proofs.Flight.Listening
import Quadrotor.Proofs.Storage.RecordCodec

/-!
# Deferred saves

A gesture that asks for a save is recognised within a tick, but the store is not at hand there: the
save is left to the next idle call, which makes it once, with the parameters of that moment, and
reports how it went. What is pending in between can be told from the ticks and the idle calls alone.
-/

namespace Quadrotor.FlightCore

/-! ## What a tick leaves pending -/

/-- Of all gestures, one leaves a save pending. -/
theorem carryOut_savePending (c : FlightCore) (action : GestureAction) (profile : Profile) :
    ({ c with table := (c.table.apply action profile).1 }.carryOut
      (c.table.apply action profile).2).savePending = true ↔
        c.savePending = true ∨ action = .saveParams := by
  cases action <;> simp [TuningTable.apply, carryOut]

theorem listen_savePending {d : FlightCore} {listened : FlightCore × List Event}
    (h : d.listen = .ok listened) : listened.1.savePending = true ↔
      d.savePending = true ∨ .gestureMatched .saveParams ∈ listened.2 := by
  obtain ⟨travel, htravel⟩ := checkTravel_frame d
  have hnone := gestureMatched_not_mem_travel d .saveParams
  unfold listen at h
  simp only [bind_eq_ok, htravel] at h
  obtain ⟨⟨gestures, action⟩, -, hr⟩ := h
  cases action with
  | none =>
    rw [← Except.ok.inj hr]
    simp [hnone]
  | some action =>
    rw [← Except.ok.inj hr]
    refine (carryOut_savePending { d with travel := travel, gestures := gestures } action _).trans
      (or_congr_right ?_)
    simp [hnone, eq_comm]

/-- After a tick a save is pending if one was before, or if the tick has matched the gesture. -/
theorem tick_savePending {c next : FlightCore} {input : TickInputs} {out : TickOutput}
    (h : c.tick input = .ok (next, out)) : next.savePending = true ↔
      c.savePending = true ∨ .gestureMatched .saveParams ∈ out.events := by
  obtain ⟨d, listened, hl⟩ := exists_listens h
  have hbefore : d.savePending = c.savePending := congrArg Tuning.savePending hl.tuning
  have hafter : next.savePending = listened.1.savePending :=
    congrArg Tuning.savePending hl.tuning_after
  have hlisten := hl.listen
  rw [hafter, hl.events, ← hbefore]
  by_cases hs : out.state = .disarmed
  · rw [hs] at hlisten
    exact listen_savePending hlisten
  · rw [listenIn_of_flying hs hlisten]
    simp

/-- Gestures are matched by ticks that end disarmed. -/
theorem disarmed_of_gestureMatched {c next : FlightCore} {input : TickInputs} {out : TickOutput}
    (h : c.tick input = .ok (next, out)) {action : GestureAction}
    (hmatched : .gestureMatched action ∈ out.events) : next.arming.state = .disarmed := by
  obtain ⟨told, hdecides⟩ := exists_decides h
  obtain ⟨d, listened, hl⟩ := exists_listens h
  rw [hdecides.arming_state]
  by_contra hs
  rw [hl.events, listenIn_of_flying hs hl.listen] at hmatched
  cases hmatched

/-! ## Journals -/

/-- A call between two ticks, on a store of its own. -/
structure IdleCall (σ : Type) where
  before : FlightCore
  store : σ
  after : FlightCore
  /-- The store after the call. -/
  left : σ
  outcome : Option (Except StoreError Unit)

/-- The event that the call returns. -/
def IdleCall.event {σ : Type} (i : IdleCall σ) : Option Event := i.outcome.map savedEvent

/-- One of the calls that are made on a flight core. -/
inductive Entry (σ : Type) where
  | tick (r : RunTick)
  | idle (i : IdleCall σ)

variable {σ : Type}

/-- The core that is called. -/
def Entry.before : Entry σ → FlightCore
  | .tick r => r.before
  | .idle i => i.before

/-- The core after the call. -/
def Entry.after : Entry σ → FlightCore
  | .tick r => r.after
  | .idle i => i.after

/-- The call comes to what the entry says. -/
def Entry.Happens [ParamStore σ] : Entry σ → Prop
  | .tick r => r.before.tick r.input = .ok (r.after, r.output)
  | .idle i => i.before.idle i.store = .ok (i.after, i.left, i.outcome)

/-- The tick of an entry that is one. -/
def Entry.tick? : Entry σ → Option RunTick
  | .tick r => some r
  | .idle _ => none

/-- The entry is a tick that has matched the gesture for a save. -/
def Entry.AsksForSave (e : Entry σ) : Prop :=
  ∃ r, e = .tick r ∧ .gestureMatched .saveParams ∈ r.output.events

/-- The calls made on a flight core since its start, in any order, and the core they have led to.
Every idle call may find its store in any condition. -/
inductive Journal [ParamStore σ] (config : FlightConfig) : List (Entry σ) → FlightCore → Prop
  | new {params : TuningParams} {c : FlightCore} (hnew : FlightCore.new config params = .ok c) :
      Journal config [] c
  | boot {store : σ} {c : FlightCore} (hboot : (FlightCore.boot config store).1 = .ok c) :
      Journal config [] c
  | step {entries : List (Entry σ)} {e : Entry σ} (h : Journal config entries e.before)
      (happens : e.Happens) : Journal config (entries ++ [e]) e.after

/-- The gesture for a save has been matched since the latest idle call. -/
def Awaits (entries : List (Entry σ)) : Prop :=
  ∃ (t : Nat) (e : Entry σ), entries[t]? = some e ∧ e.AsksForSave ∧
    ∀ (u : Nat) (i : IdleCall σ), t < u → entries[u]? ≠ some (.idle i)

theorem not_awaits_nil : ¬Awaits ([] : List (Entry σ)) := by
  rintro ⟨t, e, ht, -⟩
  cases ht

theorem not_awaits_concat_idle (entries : List (Entry σ)) (i : IdleCall σ) :
    ¬Awaits (entries ++ [.idle i]) := by
  rintro ⟨t, e, ht, ⟨r, rfl, -⟩, hlast⟩
  rcases getElem?_concat_eq_some.mp ht with ht | ⟨-, h⟩
  · exact hlast _ i (List.getElem?_eq_some_iff.mp ht).1 List.getElem?_concat_length
  · cases h

theorem awaits_concat_tick (entries : List (Entry σ)) (r : RunTick) :
    Awaits (entries ++ [.tick r]) ↔
      Awaits entries ∨ .gestureMatched .saveParams ∈ r.output.events := by
  have hidle : ∀ (u : Nat) (i : IdleCall σ),
      (entries ++ [.tick r])[u]? = some (.idle i) ↔ entries[u]? = some (.idle i) := by
    simp [getElem?_concat_eq_some]
  simp only [Awaits, ne_eq, hidle]
  constructor
  · rintro ⟨t, e, ht, hasks, hlast⟩
    rcases getElem?_concat_eq_some.mp ht with ht | ⟨-, rfl⟩
    · exact Or.inl ⟨t, e, ht, hasks, hlast⟩
    · obtain ⟨q, hq, hmatched⟩ := hasks
      cases hq
      exact Or.inr hmatched
  · rintro (⟨t, e, ht, hasks, hlast⟩ | hmatched)
    · exact ⟨t, e, getElem?_concat_eq_some.mpr (Or.inl ht), hasks, hlast⟩
    · refine ⟨_, _, List.getElem?_concat_length, ⟨r, rfl, hmatched⟩, fun u i hu hi => ?_⟩
      exact Nat.lt_asymm hu (List.getElem?_eq_some_iff.mp hi).1

/-- What is awaited has been asked for by an entry with no idle call after it. -/
theorem Awaits.exists_asked {entries : List (Entry σ)} {t : Nat} (h : Awaits (entries.take t)) :
    ∃ (s : Nat) (e : Entry σ), s < t ∧ entries[s]? = some e ∧ e.AsksForSave ∧
      ∀ (u : Nat) (i : IdleCall σ), s < u → u < t → entries[u]? ≠ some (.idle i) := by
  obtain ⟨s, e, hs, hasks, hlast⟩ := h
  rw [List.getElem?_take] at hs
  split_ifs at hs with hst
  refine ⟨s, e, hst, hs, hasks, fun u i hsu hut hi => hlast u i hsu ?_⟩
  rw [List.getElem?_take, if_pos hut, hi]

/-- An idle call follows every tick, before anything else is done. -/
def Paced (entries : List (Entry σ)) : Prop :=
  ∀ (t : Nat) (r : RunTick), entries[t]? = some (.tick r) →
    t + 1 = entries.length ∨ ∃ i : IdleCall σ, entries[t + 1]? = some (.idle i)

theorem Paced.take {entries : List (Entry σ)} (h : Paced entries) (n : Nat) :
    Paced (entries.take n) := by
  intro t r ht
  rw [List.getElem?_take] at ht
  split_ifs at ht with htn
  rcases h t r ht with hend | ⟨i, hi⟩
  · exact Or.inl (by rw [List.length_take, ← hend]; omega)
  · by_cases hnext : t + 1 < n
    · exact Or.inr ⟨i, by rw [List.getElem?_take, if_pos hnext, hi]⟩
    · have hlength := (List.getElem?_eq_some_iff.mp hi).1
      exact Or.inl (by rw [List.length_take]; omega)

namespace Journal

variable [ParamStore σ] {config : FlightConfig} {entries : List (Entry σ)} {c : FlightCore}

/-- The ticks of a journal are those of a session. -/
theorem session (h : Journal config entries c) :
    Session config (entries.filterMap Entry.tick?) c := by
  induction h with
  | new hnew => exact .new hnew
  | boot hboot => exact .boot hboot
  | @step entries e h happens ih =>
    rw [List.filterMap_append]
    cases e with
    | tick r => exact ih.tick happens
    | idle i =>
      rw [List.filterMap_cons_none rfl, List.filterMap_nil, List.append_nil]
      exact ih.idle happens

/-- Each entry continues the journal up to it. -/
theorem before (h : Journal config entries c) {t : Nat} {e : Entry σ} (he : entries[t]? = some e) :
    Journal config (entries.take t) e.before ∧ e.Happens := by
  induction h with
  | new hnew => cases he
  | boot hboot => cases he
  | @step entries last h happens ih =>
    rcases getElem?_concat_eq_some.mp he with he | ⟨rfl, rfl⟩
    · rw [List.take_append_of_le_length (Nat.le_of_lt (List.getElem?_eq_some_iff.mp he).1)]
      exact ih he
    · rw [List.take_left]
      exact ⟨h, happens⟩

/-- The core is the one that the latest entry has left. -/
theorem latest (h : Journal config entries c) {e : Entry σ} (he : entries.getLast? = some e) :
    c = e.after := by
  cases h with
  | new hnew => cases he
  | boot hboot => cases he
  | step h happens =>
    rw [List.getLast?_concat, Option.some_inj] at he
    rw [he]

/-- The journal tells whether a save is pending. -/
theorem savePending_iff (h : Journal config entries c) : c.savePending = true ↔ Awaits entries := by
  induction h with
  | new hnew =>
    obtain ⟨-, rfl⟩ := new_eq_ok.mp hnew
    exact iff_of_false Bool.false_ne_true not_awaits_nil
  | boot hboot =>
    obtain ⟨-, params, failed, rfl⟩ := boot_eq_ok hboot
    exact iff_of_false Bool.false_ne_true not_awaits_nil
  | @step entries e h happens ih =>
    cases e with
    | tick r => exact (tick_savePending happens).trans ((or_congr_left ih).trans
        (awaits_concat_tick entries r).symm)
    | idle i =>
      have hafter : i.after.savePending = false := by rw [idle_eq happens]
      exact iff_of_false (by simp [Entry.after, hafter]) (not_awaits_concat_idle entries i)

/-- With an idle call after every tick, the vehicle is still disarmed when it comes to a save. -/
theorem disarmed_of_awaits (h : Journal config entries c) (hpaced : Paced entries)
    (hawaits : Awaits entries) : c.arming.state = .disarmed := by
  obtain ⟨s, e, hs, ⟨r, rfl, hmatched⟩, hlast⟩ := hawaits
  rcases hpaced s r hs with hend | ⟨i, hi⟩
  · have hlatest : entries.getLast? = some (.tick r) := by
      rw [List.getLast?_eq_getElem?, ← hend, Nat.add_sub_cancel, hs]
    rw [h.latest hlatest]
    exact disarmed_of_gestureMatched (h.before hs).2 hmatched
  · exact absurd hi (hlast (s + 1) i s.lt_succ_self)

theorem tick {input : TickInputs} {next : FlightCore} {out : TickOutput}
    (h : Journal config entries c) (htick : c.tick input = .ok (next, out)) :
    Journal config (entries ++ [.tick ⟨c, input, next, out⟩]) next :=
  h.step (e := .tick ⟨c, input, next, out⟩) htick

theorem idle {store left : σ} {next : FlightCore} {outcome : Option (Except StoreError Unit)}
    (h : Journal config entries c) (hidle : c.idle store = .ok (next, left, outcome)) :
    Journal config (entries ++ [.idle ⟨c, store, next, left, outcome⟩]) next :=
  h.step (e := .idle ⟨c, store, next, left, outcome⟩) hidle

/-- A journal goes on with any run from where it is. -/
theorem run (h : Journal config entries c) {inputs : List TickInputs} {ticks : List RunTick}
    (hrun : c.run inputs = .ok ticks) :
    ∃ next, Journal config (entries ++ ticks.map .tick) next := by
  induction inputs generalizing entries c ticks with
  | nil =>
    rw [← Except.ok.inj hrun, List.map_nil, List.append_nil]
    exact ⟨c, h⟩
  | cons input inputs ih =>
    obtain ⟨next, out, rest, htick, hrest, rfl⟩ := run_cons_eq_ok.mp hrun
    obtain ⟨last, hlast⟩ := ih (h.tick htick) hrest
    rw [List.append_assoc] at hlast
    exact ⟨last, hlast⟩

end Journal

/-! ## Idle calls -/

/-- What an idle call does, by whether a save is awaited: it makes one, with the present parameters,
and tells how it went, or it leaves the store alone. -/
structure IdleCall.Serves [ParamStore σ] (i : IdleCall σ) (awaited : Prop) : Prop where
  saves : awaited → ∃ outcome,
    ParamStore.save i.store i.before.table.params = .ok (outcome, i.left) ∧
    (outcome = .ok () → i.event = some .saveComplete) ∧
    ∀ e, outcome = .error e → i.event = some .saveFailed
  rests : ¬awaited → i.left = i.store ∧ i.event = none
  after : i.after = { i.before with savePending := false }

/-- An idle call, whatever the store, by whether a save is pending. -/
theorem idle_of_pending [ParamStore σ] {c : FlightCore} (h : c.savePending = true) (store : σ) :
    c.idle store = (ParamStore.save store c.table.params).map fun saved =>
      ({ c with savePending := false }, saved.2, some saved.1) := by
  unfold idle
  rw [if_pos h]
  cases ParamStore.save store c.table.params <;> rfl

theorem idle_of_not_pending [ParamStore σ] {c : FlightCore} (h : ¬c.savePending = true)
    (store : σ) : c.idle store = .ok (c, store, none) := if_neg h

theorem IdleCall.serves [ParamStore σ] {i : IdleCall σ}
    (h : i.before.idle i.store = .ok (i.after, i.left, i.outcome)) :
    i.Serves (i.before.savePending = true) := by
  refine ⟨fun hpending => ?_, fun hpending => ?_, idle_eq h⟩
  · rw [idle_of_pending hpending] at h
    cases hsave : ParamStore.save i.store i.before.table.params with
    | error e =>
      rw [hsave] at h
      cases h
    | ok saved =>
      rw [hsave] at h
      obtain ⟨-, hrest⟩ := Prod.mk.inj (Except.ok.inj h)
      obtain ⟨hleft, houtcome⟩ := Prod.mk.inj hrest
      have hevent : i.event = some (savedEvent saved.1) := by rw [IdleCall.event, ← houtcome]; rfl
      exact ⟨saved.1, by rw [← hleft], fun hok => hevent.trans (by rw [hok]; rfl),
        fun e herror => hevent.trans (by rw [herror]; rfl)⟩
  · rw [idle_of_not_pending hpending] at h
    obtain ⟨-, hrest⟩ := Prod.mk.inj (Except.ok.inj h)
    obtain ⟨hleft, houtcome⟩ := Prod.mk.inj hrest
    exact ⟨hleft.symm, by rw [IdleCall.event, ← houtcome]; rfl⟩

/-- How saves are made in a journal that has led to `c`. -/
structure SavesWhenAsked [ParamStore σ] (entries : List (Entry σ)) (c : FlightCore) : Prop where
  /-- An idle call makes exactly the save that is awaited, if one is. -/
  served : ∀ (t : Nat) (i : IdleCall σ), entries[t]? = some (.idle i) →
    i.Serves (Awaits (entries.take t))
  /-- No save is made again, whether it has failed or not, unless it is asked for again. -/
  renewed : ∀ (t u : Nat) (i j : IdleCall σ), t < u → entries[t]? = some (.idle i) →
    entries[u]? = some (.idle j) → j.event.isSome = true →
      ∃ (s : Nat) (e : Entry σ), t < s ∧ s < u ∧ entries[s]? = some e ∧ e.AsksForSave
  /-- With an idle call after every tick, saves are made on the ground. -/
  grounded : Paced entries → ∀ (t : Nat) (i : IdleCall σ), entries[t]? = some (.idle i) →
    i.event.isSome = true → i.before.arming.state = .disarmed
  disarmed : Paced entries → Awaits entries → c.arming.state = .disarmed
  /-- The next call may be a tick, which does not get to see a store, whatever it brings. -/
  tick : ∀ input, ∃ next out, c.tick input = .ok (next, out)
  /-- It may also be an idle call, whatever store it finds. -/
  idle_of_awaits : Awaits entries → ∀ store : σ, c.idle store =
    (ParamStore.save store c.table.params).map fun saved =>
      ({ c with savePending := false }, saved.2, some saved.1)
  idle_of_not_awaits : ¬Awaits entries → ∀ store : σ, c.idle store = .ok (c, store, none)

/-- However ticks and idle calls take turns, and however saving goes, a save is made by the idle
call after the gesture for it, once, and by no other. -/
theorem saves_of_journal [ParamStore σ] (config : FlightConfig) {entries : List (Entry σ)}
    {c : FlightCore} (h : Journal config entries c) : SavesWhenAsked entries c := by
  have hserved : ∀ (t : Nat) (i : IdleCall σ), entries[t]? = some (.idle i) →
      i.Serves (Awaits (entries.take t)) := by
    intro t i hi
    obtain ⟨hbefore, happens⟩ := h.before hi
    rw [← hbefore.savePending_iff]
    exact IdleCall.serves happens
  have hawaited : ∀ (t : Nat) (i : IdleCall σ), entries[t]? = some (.idle i) →
      i.event.isSome = true → Awaits (entries.take t) := by
    intro t i hi hevent
    by_contra hnot
    rw [((hserved t i hi).rests hnot).2] at hevent
    cases hevent
  refine ⟨hserved, fun t u i j htu hi hj hevent => ?_, fun hpaced t i hi hevent => ?_,
    h.disarmed_of_awaits, fun input => ?_, fun hawaits => ?_, fun hawaits => ?_⟩
  · obtain ⟨s, e, hsu, hs, hasks, hlast⟩ := (hawaited u j hj hevent).exists_asked
    refine ⟨s, e, ?_, hsu, hs, hasks⟩
    rcases lt_trichotomy t s with hlt | rfl | hgt
    · exact hlt
    · obtain ⟨r, rfl, -⟩ := hasks
      rw [hi] at hs
      cases hs
    · exact absurd hi (hlast t i hgt htu)
  · exact (h.before hi).1.disarmed_of_awaits (hpaced.take t) (hawaited t i hi hevent)
  · obtain ⟨next, out, htick, -⟩ := h.session.sound.tick input
    exact ⟨next, out, htick⟩
  · exact idle_of_pending (h.savePending_iff.mpr hawaits)
  · exact idle_of_not_pending fun hpending => hawaits (h.savePending_iff.mp hpending)

/-- The sticks go down and back, three times over, on the ground. -/
def threeDowns : List TickInputs :=
  let sample : MotionSample := { time := 1000, gyro := .fill 0.0, acc := some ⟨0.0, 0.0, 1.0⟩ }
  let frame (pitch : Scalar) : Option RadioFrame :=
    some { linkOk := true, channels := { pitch := pitch } }
  [{ sample := some sample, radio := frame 0.0 }, { radio := frame (-1.0) }, { radio := frame 0.0 },
    { radio := frame (-1.0) }, { radio := frame 0.0 }, { radio := frame (-1.0) }]

/-- With a look at the sticks in every tick, the parameters are saved after the last of them. -/
theorem saves_of_threeDowns : ∃ (entries : List (Entry MemoryStore)) (c : FlightCore)
    (i : IdleCall MemoryStore), Journal { gesture := { divider := 1 } } entries c ∧
      entries[6]? = some (.idle i) ∧ Awaits (entries.take 6) ∧ i.store.saves = 0 ∧
      i.left.saves = 1 ∧ i.event = some .saveComplete := by
  have hvalid : FlightConfig.validate { gesture := { divider := 1 } } = .ok () := rfl
  obtain ⟨ticks, -, hrun, -⟩ := Session.exists_run hvalid {} threeDowns
  have hevents : ((build { gesture := { divider := 1 } } {}).run threeDowns).toOption.map
      (List.map fun r => r.output.events) =
        some [[], [], [], [], [], [.gestureMatched .saveParams]] := by
    decide +kernel
  rw [hrun] at hevents
  have hticks : ticks.map (fun r => r.output.events) =
      [[], [], [], [], [], [.gestureMatched .saveParams]] := Option.some_inj.mp hevents
  have hlength : ticks.length = 6 := by
    rw [← List.length_map, hticks]
    rfl
  have hlast : ticks[5]?.map (fun r => r.output.events) = some [.gestureMatched .saveParams] := by
    rw [← List.getElem?_map, hticks]
    rfl
  obtain ⟨r, hr, hmatched⟩ := Option.map_eq_some_iff.mp hlast
  have hstart : Journal (σ := MemoryStore) { gesture := { divider := 1 } } []
      (build { gesture := { divider := 1 } } {}) := .new (new_eq_ok.mpr ⟨hvalid, rfl⟩)
  obtain ⟨c, hjournal⟩ := hstart.run hrun
  rw [List.nil_append] at hjournal
  have hawaits : Awaits (ticks.map (Entry.tick (σ := MemoryStore))) := by
    refine ⟨5, .tick r, by rw [List.getElem?_map, hr]; rfl, ⟨r, rfl, ?_⟩, fun u i _ hi => ?_⟩
    · rw [hmatched]
      exact List.mem_singleton_self _
    · obtain ⟨q, -, hq⟩ := List.mem_map.mp (List.mem_of_getElem? hi)
      cases hq
  obtain ⟨left, hsaves, hsave⟩ : ∃ left : MemoryStore, left.saves = 1 ∧
      ParamStore.save ({} : MemoryStore) c.table.params = .ok (.ok (), left) := by
    refine ⟨(MemoryStore.save {} c.table.params).2, ?_, ?_⟩
    · rw [MemoryStore.save, Record.encode_eq]
    · change Except.ok (MemoryStore.save {} c.table.params) = _
      rw [MemoryStore.save, Record.encode_eq]
  have hidle : c.idle ({} : MemoryStore) =
      .ok ({ c with savePending := false }, left, some (.ok ())) := by
    rw [(saves_of_journal _ hjournal).idle_of_awaits hawaits, hsave]
    rfl
  refine ⟨_, _, ⟨c, {}, { c with savePending := false }, left, some (.ok ())⟩, hjournal.idle hidle,
    ?_, ?_, rfl, hsaves, rfl⟩
  · rw [List.getElem?_append_right (by rw [List.length_map, hlength]), List.length_map, hlength]
    rfl
  · rw [List.take_left' (by rw [List.length_map, hlength])]
    exact hawaits

end Quadrotor.FlightCore

import Mathlib
import Quadrotor.Proofs.Flight.GestureRules
import Quadrotor.Proofs.Flight.Listening

/-!
# Where gestures come from

Gestures change parameters, so one that was begun at another time must not complete by accident: the
symbols of a gesture come from a stretch of ticks that the vehicle has spent disarmed and with both
its link and its sensor. Outside of such stretches nothing that gestures can change is changed.
-/

namespace Quadrotor

namespace Gestures

/-- The symbol that is entered in a live tick: the sticks are looked at, have been centred, and are
out far enough. -/
def entered? (g : Gestures) (channels : Channels) : Option Symbol :=
  if g.advance.tick % g.config.divider = 0 ∧ g.centred = true ∧
      g.config.isCentred channels.roll channels.pitch = false then
    g.config.symbol? channels.roll channels.pitch
  else none

/-- A live tick enters that symbol, and no other. -/
theorem update_of_live {g next : Gestures} {channels : Channels} {action : Option GestureAction}
    (h : g.update channels true = .ok (next, action)) :
    match g.entered? channels with
    | some s => (next, action) = g.advance.enter s
    | none => next.history = g.advance.history ∧ action = none := by
  have hcentred : g.advance.centred = g.centred := rfl
  have hconfig : g.advance.config = g.config := rfl
  unfold update at h
  simp only [if_true] at h
  rw [hconfig] at h
  split_ifs at h with hdivider hlook
  · have hlooked := Except.ok.inj h
    rw [look, hcentred, hconfig] at hlooked
    by_cases hnow : g.config.isCentred channels.roll channels.pitch = true
    · rw [if_pos hnow] at hlooked
      obtain ⟨rfl, rfl⟩ := Prod.mk.inj hlooked
      simp [entered?, hnow]
    · rw [if_neg hnow] at hlooked
      rw [entered?]
      simp only [hlook, Bool.not_eq_true _ ▸ hnow, true_and, and_true]
      split_ifs at hlooked ⊢ with hbefore
      · cases hs : g.config.symbol? channels.roll channels.pitch with
        | none =>
          rw [hs] at hlooked
          obtain ⟨rfl, rfl⟩ := Prod.mk.inj hlooked
          exact ⟨rfl, rfl⟩
        | some s =>
          rw [hs] at hlooked
          exact hlooked.symm
      · obtain ⟨rfl, rfl⟩ := Prod.mk.inj hlooked
        exact ⟨rfl, rfl⟩
  · obtain ⟨rfl, rfl⟩ := Prod.mk.inj (Except.ok.inj h)
    simp [entered?, hlook]

/-- What entering a symbol makes of the history, and which action it completes. -/
theorem enter_eq (g : Gestures) (s : Symbol) :
    (g.enter s).2 = GestureAction.ofSymbols? (remember g.history s) ∧
    ((g.enter s).1.history = remember g.history s ∨ (g.enter s).1.history = []) := by
  unfold enter
  simp only
  split
  · rename_i action hmatch
    exact ⟨hmatch.symm, Or.inr rfl⟩
  · rename_i hmatch
    exact ⟨hmatch.symm, Or.inl rfl⟩

end Gestures

namespace FlightCore

/-- The tick ends disarmed, and neither the link nor the sensor is lost. -/
def RunTick.Healthy (r : RunTick) : Prop :=
  r.output.state = .disarmed ∧ r.after.arming.fault = none

instance (r : RunTick) : Decidable r.Healthy :=
  inferInstanceAs (Decidable (_ ∧ _))

/-- The symbol that a tick registers. -/
def RunTick.registered (r : RunTick) : Option Symbol :=
  if r.Healthy then r.before.gestures.entered? r.after.channels else none

/-- The latest symbols among those that some ticks have registered. -/
def Remembers (ticks : List RunTick) (history : List Symbol) : Prop :=
  ∃ recent, recent <:+ ticks ∧ (∀ r ∈ recent, r.Healthy) ∧
    recent.filterMap RunTick.registered = history

theorem remembers_nil (ticks : List RunTick) : Remembers ticks [] :=
  ⟨[], List.nil_suffix, fun _ hr => absurd hr List.not_mem_nil, rfl⟩

theorem Remembers.tail {ticks : List RunTick} {history : List Symbol}
    (h : Remembers ticks history) : Remembers ticks history.tail := by
  obtain ⟨recent, hsuffix, hhealthy, rfl⟩ := h
  -- Down to the first tick that registers anything.
  induction recent with
  | nil => exact remembers_nil ticks
  | cons r recent ih =>
    have hshorter : recent <:+ ticks := (List.suffix_cons r recent).trans hsuffix
    have hrest : ∀ q ∈ recent, q.Healthy := fun q hq => hhealthy q (List.mem_cons_of_mem r hq)
    cases hs : r.registered with
    | none =>
      rw [List.filterMap_cons_none hs]
      exact ih hshorter hrest
    | some s =>
      rw [List.filterMap_cons_some hs]
      exact ⟨recent, hshorter, hrest, rfl⟩

/-- A healthy tick adds what it registers. -/
theorem Remembers.concat {ticks : List RunTick} {history : List Symbol}
    (h : Remembers ticks history) {r : RunTick} (hr : r.Healthy) :
    Remembers (ticks ++ [r]) (history ++ r.registered.toList) := by
  obtain ⟨recent, hsuffix, hhealthy, rfl⟩ := h
  refine ⟨recent ++ [r], ?_, fun q hq => ?_, ?_⟩
  · obtain ⟨older, rfl⟩ := hsuffix
    exact ⟨older, by rw [List.append_assoc]⟩
  · rcases List.mem_append.mp hq with hq | hq
    · exact hhealthy q hq
    · rw [List.mem_singleton.mp hq]
      exact hr
  · rw [List.filterMap_append]
    cases hs : r.registered <;> simp [hs]

/-- A live tick registers a symbol or none, and a gesture completes only with one. -/
theorem Remembers.update {ticks : List RunTick} {r : RunTick}
    (h : Remembers ticks r.before.gestures.history) (hr : r.Healthy) {next : Gestures}
    {action : Option GestureAction}
    (hupdate : r.before.gestures.update r.after.channels true = .ok (next, action)) :
    Remembers (ticks ++ [r]) next.history ∧ ∀ a, action = some a →
      ∃ symbols, Remembers (ticks ++ [r]) symbols ∧ GestureAction.ofSymbols? symbols = some a := by
  have hentered : r.registered = r.before.gestures.entered? r.after.channels := if_pos hr
  have hadvance : Remembers ticks r.before.gestures.advance.history := by
    unfold Gestures.advance
    simp only
    split_ifs
    · exact remembers_nil ticks
    · exact h
  have hlive := Gestures.update_of_live hupdate
  rw [← hentered] at hlive
  cases hs : r.registered with
  | none =>
    rw [hs] at hlive
    obtain ⟨hhistory, rfl⟩ := hlive
    have hconcat := hadvance.concat hr
    rw [hs, Option.toList_none, List.append_nil, ← hhistory] at hconcat
    exact ⟨hconcat, fun a ha => by cases ha⟩
  | some s =>
    rw [hs] at hlive
    obtain ⟨haction, hhistory⟩ := r.before.gestures.advance.enter_eq s
    simp only [← hlive] at haction hhistory
    have hremember : Remembers (ticks ++ [r])
        (Gestures.remember r.before.gestures.advance.history s) := by
      have hs' : r.registered.toList = [s] := by
        rw [hs]
        rfl
      unfold Gestures.remember
      rw [← hs']
      split_ifs
      · exact hadvance.tail.concat hr
      · exact hadvance.concat hr
    refine ⟨?_, fun a ha => ⟨_, hremember, haction ▸ ha⟩⟩
    rcases hhistory with hkept | hempty
    · rw [hkept]
      exact hremember
    · rw [hempty]
      exact remembers_nil _

/-- A tick of a core that remembers leaves one that remembers, and reports only gestures whose
symbols are all remembered; if it is not healthy, it changes nothing that gestures can change. -/
theorem tick_remembers {ticks : List RunTick} {r : RunTick}
    (h : Remembers ticks r.before.gestures.history)
    (htick : r.before.tick r.input = .ok (r.after, r.output)) :
    Remembers (ticks ++ [r]) r.after.gestures.history ∧
    (∀ action, .gestureMatched action ∈ r.output.events → ∃ symbols,
      Remembers (ticks ++ [r]) symbols ∧ GestureAction.ofSymbols? symbols = some action) ∧
    (¬r.Healthy → r.after.tuning = r.before.tuning) := by
  obtain ⟨d, listened, hl⟩ := exists_listens htick
  have hlisten := hl.listen
  by_cases hs : r.output.state = .disarmed
  · rw [hs] at hlisten
    obtain ⟨action, hupdate, hevents, hkeeps, -⟩ := listen_cases hlisten
    rw [hl.gestures, hl.channels, hl.fault, ← hl.gestures_after] at hupdate
    cases hf : r.after.arming.fault with
    | none =>
      rw [hf] at hupdate
      have hr : r.Healthy := ⟨hs, hf⟩
      obtain ⟨hhistory, hmatch⟩ := h.update hr hupdate
      refine ⟨hhistory, fun a ha => hmatch a ?_, fun hn => absurd hr hn⟩
      exact (hevents a).mp ((hl.events a).mp ha)
    | some fault =>
      rw [hf] at hupdate
      obtain ⟨hgestures, rfl⟩ := Prod.mk.inj (Except.ok.inj hupdate)
      refine ⟨?_, fun a ha => ?_, fun _ => ?_⟩
      · rw [← hgestures]
        exact remembers_nil _
      · cases (hevents a).mp ((hl.events a).mp ha)
      · rw [hl.tuning_after, hkeeps rfl, hl.tuning]
  · have hflying := listenIn_of_flying hs hlisten
    refine ⟨?_, fun a ha => ?_, fun _ => ?_⟩
    · rw [hl.gestures_after, hflying]
      exact remembers_nil _
    · rw [hl.events, hflying] at ha
      cases ha
    · rw [hl.tuning_after, hflying, ← hl.tuning]
      rfl

theorem Session.remembers {config : FlightConfig} {ticks : List RunTick} {c : FlightCore}
    (h : Session config ticks c) : Remembers ticks c.gestures.history := by
  refine invariant (P := fun ticks c => Remembers ticks c.gestures.history) ?_ ?_ ?_ h
  · exact fun _ params failed => remembers_nil []
  · intro ticks c input next out _ ih htick
    exact (tick_remembers (r := ⟨c, input, next, out⟩) ih htick).1
  · exact fun ih => ih

/-- The action is what has been entered on the ticks from some tick through tick `t`, which were all
healthy. -/
def EnteredBy (ticks : List RunTick) (t : Nat) (action : GestureAction) : Prop :=
  ∃ m ≤ t, (∀ u q, m ≤ u → u ≤ t → ticks[u]? = some q → q.Healthy) ∧
    ∃ x y z, ((ticks.take (t + 1)).drop m).filterMap RunTick.registered = [x, y, z] ∧
      GestureAction.ofSymbols? [x, y, z] = some action

theorem Remembers.enteredBy {ticks : List RunTick} {t : Nat} {symbols : List Symbol}
    {action : GestureAction} (ht : t < ticks.length) (h : Remembers (ticks.take (t + 1)) symbols)
    (haction : GestureAction.ofSymbols? symbols = some action) : EnteredBy ticks t action := by
  obtain ⟨recent, ⟨older, holder⟩, hhealthy, hsymbols⟩ := h
  obtain ⟨x, y, z, hsequence⟩ := action.exists_sequence_eq
  obtain rfl := (GestureAction.ofSymbols?_eq_some_iff.mp haction).symm.trans hsequence
  have hnonempty : 0 < recent.length := by
    have hle := List.length_filterMap_le RunTick.registered recent
    rw [hsymbols] at hle
    exact Nat.lt_of_lt_of_le (Nat.zero_lt_succ 2) hle
  have hlength : older.length + recent.length = t + 1 := by
    rw [← List.length_append, holder, List.length_take]
    omega
  refine ⟨older.length, by omega, fun u q hu hut hq => ?_, x, y, z, ?_, haction⟩
  · refine hhealthy q (List.mem_iff_getElem?.mpr ⟨u - older.length, ?_⟩)
    rw [← List.getElem?_append_right hu, holder, List.getElem?_take, if_pos (by omega), hq]
  · rw [← holder, List.drop_left, hsymbols]

/-- What a session does with what gestures can change. -/
structure Guarded (ticks : List RunTick) (c : FlightCore) : Prop where
  /-- Only a healthy tick changes any of it. -/
  untouched : ∀ r ∈ ticks, ¬r.Healthy → r.after.tuning = r.before.tuning
  /-- The check of the sticks and what blocks arming go together, and only while disarmed. -/
  checked : ∀ r ∈ ticks, r.after.tuning.checking = r.after.tuning.blocking ∧
    (r.output.state ≠ .disarmed → r.after.tuning.checking = false)
  present : c.tuning.checking = c.tuning.blocking ∧
    (c.arming.state ≠ .disarmed → c.tuning.checking = false)
  /-- The symbols of a gesture are entered on healthy ticks with only such ticks in between. -/
  entered : ∀ (t : Nat) (r : RunTick) (action : GestureAction), ticks[t]? = some r →
    .gestureMatched action ∈ r.output.events → EnteredBy ticks t action
  /-- The session goes on, whatever arrives. -/
  progress : ∀ input, ∃ next out, c.tick input = .ok (next, out)

/-- Nothing is tuned outside of healthy stretches of a session, however it goes, and no gesture
reaches over the end of one. -/
theorem guarded_of_session (config : FlightConfig) {ticks : List RunTick} {c : FlightCore}
    (h : Session config ticks c) : Guarded ticks c := by
  have hquiet : ∀ {c : FlightCore}, c.Quiet → c.tuning.checking = c.tuning.blocking ∧
      (c.arming.state ≠ .disarmed → c.tuning.checking = false) :=
    fun hq => ⟨hq.agree, fun hs => hq.agree.trans (hq.checking hs)⟩
  refine ⟨fun r hr => ?_, fun r hr => ?_, hquiet h.quiet, fun t r action hr hevent => ?_,
    fun input => ?_⟩
  · obtain ⟨t, ht⟩ := List.mem_iff_getElem?.mp hr
    obtain ⟨hbefore, htick⟩ := h.before ht
    exact (tick_remembers hbefore.remembers htick).2.2
  · obtain ⟨t, ht⟩ := List.mem_iff_getElem?.mp hr
    obtain ⟨told, hdecides⟩ := exists_decides (h.before ht).2
    rw [← hdecides.arming_state]
    exact hquiet (h.after ht).quiet
  · obtain ⟨hbefore, htick⟩ := h.before hr
    obtain ⟨symbols, hsymbols, haction⟩ :=
      (tick_remembers hbefore.remembers htick).2.1 action hevent
    have htake : ticks.take t ++ [r] = ticks.take (t + 1) := by
      rw [List.take_add_one, hr]
      rfl
    rw [htake] at hsymbols
    exact hsymbols.enteredBy (List.getElem?_eq_some_iff.mp hr).1 haction
  · obtain ⟨next, out, htick, -⟩ := h.sound.tick input
    exact ⟨next, out, htick⟩

/-- The sticks go to the left and back, three times over, on the ground. -/
def threeLefts : List TickInputs :=
  let sample : MotionSample := { time := 1000, gyro := .fill 0.0, acc := some ⟨0.0, 0.0, 1.0⟩ }
  let frame (roll : Scalar) : Option RadioFrame := some { linkOk := true, channels := { roll := roll } }
  [{ sample := some sample, radio := frame 0.0 }, { radio := frame (-1.0) }, { radio := frame 0.0 },
    { radio := frame (-1.0) }, { radio := frame 0.0 }, { radio := frame (-1.0) }]

/-- With a look at the sticks in every tick, they ask for the switch of the low-voltage cutoff. -/
theorem guarded_of_threeLefts : ∃ ticks c r, Session { gesture := { divider := 1 } } ticks c ∧
    ticks[5]? = some r ∧ r.output.events = [.gestureMatched .toggleLvc] ∧ r.Healthy ∧
    c.tuning.checking = c.tuning.blocking ∧ EnteredBy ticks 5 .toggleLvc := by
  have hvalid : FlightConfig.validate { gesture := { divider := 1 } } = .ok () := rfl
  obtain ⟨ticks, c, hrun, hsession⟩ := Session.exists_run hvalid {} threeLefts
  have hguarded := guarded_of_session { gesture := { divider := 1 } } hsession
  have hevents : ((build { gesture := { divider := 1 } } {}).run threeLefts).toOption.map
      (List.map fun r => r.output.events) =
        some [[], [], [], [], [], [.gestureMatched .toggleLvc]] := by
    decide +kernel
  rw [hrun] at hevents
  have hticks : ticks.map (fun r => r.output.events) =
      [[], [], [], [], [], [.gestureMatched .toggleLvc]] := Option.some_inj.mp hevents
  have hlast : ticks[5]?.map (fun r => r.output.events) = some [.gestureMatched .toggleLvc] := by
    rw [← List.getElem?_map, hticks]
    rfl
  obtain ⟨r, hr, hmatched⟩ := Option.map_eq_some_iff.mp hlast
  have hmem : .gestureMatched .toggleLvc ∈ r.output.events := by
    rw [hmatched]
    exact List.mem_singleton_self _
  obtain ⟨m, hm, hhealthy, hrest⟩ := hguarded.entered 5 r .toggleLvc hr hmem
  exact ⟨ticks, c, r, hsession, hr, hmatched, hhealthy 5 r hm le_rfl hr, hguarded.present.1,
    m, hm, hhealthy, hrest⟩

end FlightCore

end Quadrotor

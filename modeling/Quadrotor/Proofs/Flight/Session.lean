import Mathlib
import Quadrotor.Proofs.Flight.Run

/-!
# Sessions

A session is everything that can become of a flight core in use: it starts with parameters that are
given or loaded, and then ticks, with work done between the ticks. The ticks of a session are kept in
a list, so that a statement about a core can look back on them.
-/

namespace Quadrotor.FlightCore

/-- What a list holds that has got longer by one. -/
theorem getElem?_concat_eq_some {α : Type*} {l : List α} {x y : α} {t : Nat} :
    (l ++ [y])[t]? = some x ↔ l[t]? = some x ∨ t = l.length ∧ y = x := by
  rcases lt_trichotomy t l.length with hlt | rfl | hgt
  · simp [List.getElem?_append_left hlt, Nat.ne_of_lt hlt]
  · simp
  · have hlength : (l ++ [y]).length ≤ t := by
      rw [List.length_append, List.length_singleton]
      exact hgt
    simp [List.getElem?_eq_none hlength, List.getElem?_eq_none (Nat.le_of_lt hgt), Nat.ne_of_gt hgt]

/-- The ticks of a session so far, and the core that they have led to. -/
inductive Session (config : FlightConfig) : List RunTick → FlightCore → Prop
  | new {params : TuningParams} {c : FlightCore} (hnew : FlightCore.new config params = .ok c) :
      Session config [] c
  | boot {σ : Type} [ParamStore σ] {store : σ} {c : FlightCore}
      (hboot : (FlightCore.boot config store).1 = .ok c) : Session config [] c
  | tick {ticks : List RunTick} {c next : FlightCore} {input : TickInputs} {out : TickOutput}
      (h : Session config ticks c) (htick : c.tick input = .ok (next, out)) :
      Session config (ticks ++ [⟨c, input, next, out⟩]) next
  | idle {σ : Type} [ParamStore σ] {store store' : σ} {ticks : List RunTick} {c next : FlightCore}
      {outcome : Option (Except StoreError Unit)} (h : Session config ticks c)
      (hidle : c.idle store = .ok (next, store', outcome)) : Session config ticks next

theorem boot_eq_ok {σ : Type} [ParamStore σ] {config : FlightConfig} {store : σ} {c : FlightCore}
    (h : (boot config store).1 = .ok c) : config.validate = .ok () ∧
      ∃ params failed, c = { build config params with loadFailed := failed } := by
  obtain ⟨params, hparams⟩ : ∃ params, params = (initialParams (ParamStore.load store).1).1 :=
    ⟨_, rfl⟩
  simp only [boot, ← hparams] at h
  cases hnew : new config params with
  | error e =>
    rw [hnew] at h
    cases h
  | ok core =>
    rw [hnew] at h
    obtain ⟨hvalid, rfl⟩ := new_eq_ok.mp hnew
    exact ⟨hvalid, params, _, (Except.ok.inj h).symm⟩

/-- Between two ticks, a core is at most relieved of a pending save. -/
theorem idle_eq {σ : Type} [ParamStore σ] {store store' : σ} {c next : FlightCore}
    {outcome : Option (Except StoreError Unit)} (h : c.idle store = .ok (next, store', outcome)) :
    next = { c with savePending := false } := by
  unfold idle at h
  split_ifs at h with hpending
  · obtain ⟨r, -, hr⟩ := bind_eq_ok.mp h
    exact (Prod.mk.inj (Except.ok.inj hr)).1.symm
  · rw [← (Prod.mk.inj (Except.ok.inj h)).1, ← Bool.eq_false_iff.mpr hpending]

namespace Session

variable {config : FlightConfig} {ticks : List RunTick} {c : FlightCore}

/-- What holds at the start, and is kept by ticks and by the work between them, holds throughout. -/
theorem invariant {P : List RunTick → FlightCore → Prop}
    (hstart : config.validate = .ok () → ∀ params failed,
      P [] { build config params with loadFailed := failed })
    (htick : ∀ {ticks c input next out}, Session config ticks c → P ticks c →
      c.tick input = .ok (next, out) → P (ticks ++ [⟨c, input, next, out⟩]) next)
    (hidle : ∀ {ticks c}, P ticks c → P ticks { c with savePending := false })
    (h : Session config ticks c) : P ticks c := by
  induction h with
  | new hnew =>
    obtain ⟨hvalid, rfl⟩ := new_eq_ok.mp hnew
    exact hstart hvalid _ false
  | boot hboot =>
    obtain ⟨hvalid, params, failed, rfl⟩ := boot_eq_ok hboot
    exact hstart hvalid params failed
  | tick h ht ih => exact htick h ih ht
  | idle _ hi ih =>
    rw [idle_eq hi]
    exact hidle ih

/-- Every core of a session is sound, so none of its ticks is aborted. -/
theorem sound (h : Session config ticks c) : c.Sound := by
  refine invariant (P := fun _ c => c.Sound) (fun hvalid params failed => ?_) ?_ ?_ h
  · have hs := sound_build hvalid params
    exact ⟨hs.attitude, hs.setpoints, hs.controller, hs.mixer, hs.divider⟩
  · intro ticks c input next out _ hs htick
    exact (hs.of_tick htick).1
  · intro ticks c hs
    exact ⟨hs.attitude, hs.setpoints, hs.controller, hs.mixer, hs.divider⟩

/-- Each tick of a session continues the session up to it. -/
theorem before (h : Session config ticks c) {t : Nat} {r : RunTick} (hr : ticks[t]? = some r) :
    Session config (ticks.take t) r.before ∧ r.before.tick r.input = .ok (r.after, r.output) := by
  induction h with
  | new hnew => cases hr
  | boot hboot => cases hr
  | idle _ _ ih => exact ih hr
  | @tick ticks c next input out h ht ih =>
    rcases getElem?_concat_eq_some.mp hr with hr | ⟨rfl, rfl⟩
    · rw [List.take_append_of_le_length (Nat.le_of_lt (List.getElem?_eq_some_iff.mp hr).1)]
      exact ih hr
    · rw [List.take_left]
      exact ⟨h, ht⟩

/-- The core after a tick of a session is one of a session, too. -/
theorem after (h : Session config ticks c) {t : Nat} {r : RunTick} (hr : ticks[t]? = some r) :
    Session config (ticks.take t ++ [r]) r.after :=
  (h.before hr).1.tick (h.before hr).2

/-- A session goes on with any run from where it is. -/
theorem run (h : Session config ticks c) {inputs : List TickInputs} {more : List RunTick}
    (hrun : c.run inputs = .ok more) : ∃ next, Session config (ticks ++ more) next := by
  induction inputs generalizing ticks c more with
  | nil =>
    rw [← Except.ok.inj hrun, List.append_nil]
    exact ⟨c, h⟩
  | cons input inputs ih =>
    obtain ⟨next, out, rest, htick, hrest, rfl⟩ := run_cons_eq_ok.mp hrun
    obtain ⟨last, hlast⟩ := ih (h.tick htick) hrest
    rw [List.append_assoc] at hlast
    exact ⟨last, hlast⟩

/-- A validated configuration has sessions with whatever ticks are asked for. -/
theorem exists_run {config : FlightConfig} (hvalid : config.validate = .ok ())
    (params : TuningParams) (inputs : List TickInputs) : ∃ ticks c,
      (build config params).run inputs = .ok ticks ∧ Session config ticks c := by
  have hstart : Session config [] (build config params) := .new (new_eq_ok.mpr ⟨hvalid, rfl⟩)
  obtain ⟨ticks, hrun⟩ := hstart.sound.run inputs
  obtain ⟨c, hsession⟩ := hstart.run hrun
  exact ⟨ticks, c, hrun, hsession⟩

theorem latest (h : Session config ticks c) {p : RunTick} (hp : ticks.getLast? = some p) :
    c = { p.after with savePending := c.savePending } := by
  refine invariant (P := fun ticks c => ∀ p ∈ ticks.getLast?,
    c = { p.after with savePending := c.savePending }) ?_ ?_ ?_ h p hp
  · intro _ params failed p hp
    cases hp
  · intro ticks c input next out _ _ _ p hp
    rw [List.getLast?_concat, Option.mem_some_iff] at hp
    rw [← hp]
  · intro ticks c ih p hp
    rw [ih p hp]

/-- A tick finds what the one before has left, but for a save that has been done since. -/
theorem next (h : Session config ticks c) {t : Nat} {p r : RunTick} (hp : ticks[t]? = some p)
    (hr : ticks[t + 1]? = some r) :
    r.before = { p.after with savePending := r.before.savePending } := by
  refine (h.before hr).1.latest ?_
  obtain ⟨hlt, -⟩ := List.getElem?_eq_some_iff.mp hr
  rw [List.getLast?_eq_getElem?, List.length_take, Nat.min_eq_left (Nat.le_of_lt hlt),
    Nat.add_sub_cancel, List.getElem?_take, if_pos t.lt_succ_self, hp]

/-- What holds at the start, and is kept by the ticks and by a save between them, holds ahead of every
tick; the property may look at all the ticks of the session. -/
theorem ahead {P : Nat → FlightCore → Prop}
    (hstart : ∀ params failed, P 0 { build config params with loadFailed := failed })
    (htick : ∀ t r, ticks[t]? = some r → P t r.before →
      r.before.tick r.input = .ok (r.after, r.output) → P (t + 1) r.after)
    (hidle : ∀ {t c} pending, P t c → P t { c with savePending := pending })
    (h : Session config ticks c) {t : Nat} {r : RunTick} (hr : ticks[t]? = some r) :
    P t r.before := by
  induction t generalizing r with
  | zero =>
    refine invariant (P := fun ticks c => ticks = [] → P 0 c) ?_ ?_ ?_ (h.before hr).1
      List.take_zero
    · exact fun _ params failed _ => hstart params failed
    · exact fun _ _ _ hnil => absurd hnil (by simp)
    · exact fun ih hnil => hidle false (ih hnil)
  | succ t ih =>
    obtain ⟨hlt, -⟩ := List.getElem?_eq_some_iff.mp hr
    have hp : ticks[t]? = some ticks[t] := List.getElem?_eq_getElem (Nat.lt_of_succ_lt hlt)
    rw [h.next hp hr]
    exact hidle _ (htick t _ hp (ih hp) (h.before hp).2)

end Session

end Quadrotor.FlightCore

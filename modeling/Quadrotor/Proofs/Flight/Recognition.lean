import Mathlib
import Quadrotor.Proofs.Flight.GestureHistory
import Quadrotor.Proofs.Flight.GestureRules

/-!
# What the recogniser recognises

The recogniser works with two counters, a flag and a short list. It follows the rules of gestures for
as long as its counters can count the updates: what it keeps is just enough to tell, in each call,
what the rules ask of the calls before.
-/

namespace Quadrotor.Gestures

/-! ## Traces -/

/-- One call, and the action that it returns. -/
def perform (g : Gestures) : Call → Checked (Gestures × Option GestureAction)
  | .update channels live => g.update channels live
  | .reset => .ok (g.reset, none)

/-- A call with what it finds, what it leaves, and the action that it returns. -/
structure Step where
  call : Call
  before : Gestures
  after : Gestures
  action : Option GestureAction

/-- The symbol that a call enters. -/
def Step.registered (step : Step) : Option Symbol := step.call.sticks?.bind step.before.entered?

def trace (g : Gestures) : List Call → Checked (List Step)
  | [] => .ok []
  | call :: calls => do
    let (next, action) ← g.perform call
    let steps ← next.trace calls
    return ⟨call, g, next, action⟩ :: steps

/-! ## What a call does -/

/-- A call that is not a live update drops whatever has been entered. -/
theorem perform_of_dropped {g : Gestures} {call : Call} (h : call.isLive = false) :
    g.perform call = .ok (g.reset, none) := by
  cases call with
  | reset => rfl
  | update channels live =>
    cases live with
    | false => rfl
    | true => cases h

theorem perform_of_live {g : Gestures} {call : Call} {sticks : Channels}
    (h : call.sticks? = some sticks) : g.perform call = g.update sticks true := by
  cases call with
  | reset => cases h
  | update channels live =>
    cases live with
    | false => cases h
    | true => rw [← Option.some_inj.mp h]; rfl

/-- A live update that enters nothing notes at most that the sticks are centred. -/
theorem update_of_none {g next : Gestures} {sticks : Channels} {action : Option GestureAction}
    (h : g.update sticks true = .ok (next, action)) (hnone : g.entered? sticks = none) :
    action = none ∧ next = { g.advance with
      centred := g.centred || (decide (g.advance.tick % g.config.divider = 0) &&
        g.config.isCentred sticks.roll sticks.pitch) } := by
  have hcentred : g.advance.centred = g.centred := rfl
  have hconfig : g.advance.config = g.config := rfl
  unfold update at h
  simp only [if_true] at h
  rw [hconfig] at h
  split_ifs at h with hdivider hlook
  · have hlooked := Except.ok.inj h
    rw [look, hcentred, hconfig] at hlooked
    by_cases hnow : g.config.isCentred sticks.roll sticks.pitch = true
    · rw [if_pos hnow] at hlooked
      obtain ⟨rfl, rfl⟩ := Prod.mk.inj hlooked
      refine ⟨rfl, ?_⟩
      rw [decide_eq_true hlook, hnow, Bool.true_and, Bool.or_true]
      rfl
    · rw [if_neg hnow] at hlooked
      rw [Bool.not_eq_true] at hnow
      have hstays : (g.advance, (none : Option GestureAction)) = (next, action) := by
        split_ifs at hlooked with hbefore
        · rw [entered?, if_pos ⟨hlook, hbefore, hnow⟩] at hnone
          rw [hnone] at hlooked
          exact hlooked
        · exact hlooked
      obtain ⟨rfl, rfl⟩ := Prod.mk.inj hstays
      refine ⟨rfl, ?_⟩
      rw [hnow, Bool.and_false, Bool.or_false]
      rfl
  · obtain ⟨rfl, rfl⟩ := Prod.mk.inj (Except.ok.inj h)
    refine ⟨rfl, ?_⟩
    rw [decide_eq_false hlook, Bool.false_and, Bool.or_false]
    rfl

/-- A symbol is entered after those entered before; a gesture leaves nothing entered. -/
theorem enter_after (g : Gestures) (s : Symbol) :
    (g.enter s).1 = { g with
      centred := false
      idle := 0
      history := if (g.enter s).2 = none then remember g.history s else [] } := by
  cases h : GestureAction.ofSymbols? (remember g.history s) <;> simp only [enter, h] <;> rfl

theorem remember_length_le {history : List Symbol} (h : history.length ≤ 3) (z : Symbol) :
    (remember history z).length ≤ 3 := by
  unfold remember gestureLength
  rw [List.length_append, List.length_singleton]
  split_ifs
  · rw [List.length_tail]
    omega
  · omega

/-- No more than the oldest entry makes room for a new one. -/
theorem cons_prefix_remember_iff {history older : List Symbol} (h : history.length ≤ 3)
    (hlength : older.length ≤ 2) (s z : Symbol) :
    s :: older <+: (remember history z).reverse ↔ s = z ∧ older <+: history.reverse := by
  unfold remember gestureLength
  rw [List.reverse_append, List.reverse_singleton, List.singleton_append, List.cons_prefix_cons]
  refine and_congr_right fun _ => ?_
  split_ifs with hfull
  · cases history with
    | nil => exact Iff.rfl
    | cons oldest history =>
      rw [List.length_cons] at hfull
      rw [List.tail_cons, List.reverse_cons]
      constructor
      · exact fun hp => hp.trans (List.prefix_append _ _)
      · intro hp
        refine List.prefix_of_prefix_length_le hp (List.prefix_append _ _) ?_
        rw [List.length_reverse]
        omega
  · exact Iff.rfl

/-- The latest two entries and the new one are what makes a gesture. -/
theorem remember_eq_iff {history : List Symbol} (h : history.length ≤ 3) (x y z : Symbol) :
    remember history z = [x, y, z] ↔ [y, x] <+: history.reverse := by
  match history, h with
  | [], _ => simp [remember, gestureLength]
  | [a], _ => simp [remember, gestureLength]
  | [a, b], _ => simp [remember, gestureLength]; tauto
  | [a, b, c], _ => simp [remember, gestureLength]; tauto

/-! ## What the recogniser knows of the calls -/

section History

variable (config : GestureConfig) (steps : List Step)

/-- The calls that have been made. -/
def callsOf : List Call := steps.map Step.call

def registeredAt (t : Nat) : Option Symbol := steps[t]?.bind Step.registered

def actionAt (t : Nat) : Option GestureAction := steps[t]?.bind Step.action

/-- Call `p` has registered a symbol that can still go ahead of one of call `t`. -/
structure Precedes (p t : Nat) (s : Symbol) : Prop where
  lt : p < t
  symbol : registeredAt steps p = some s
  calm : Calm (callsOf steps) (registeredAt steps) p t
  timely : t ≤ p + config.timeout.toNat
  unused : actionAt steps p = none

/-- These symbols, the latest first, can go ahead of one of call `t`. -/
def Trail (t : Nat) : List Symbol → Prop
  | [] => True
  | s :: older => ∃ p, Precedes config steps p t s ∧ Trail p older

/-- After the first `t` calls the counters and the flag tell what the calls have brought. The history
is told as the next call finds it if it is live, with the entries of long ago forgotten. -/
structure Tracks (t : Nat) (g : Gestures) : Prop where
  config_eq : g.config = config
  tick : g.tick.toNat = liveBefore (callsOf steps) t
  idle_le : g.idle.toNat ≤ liveBefore (callsOf steps) t
  idle : ∀ p < t, registeredAt steps p ≠ none → Calm (callsOf steps) (registeredAt steps) p t →
    p + g.idle.toNat + 1 = t
  centred : g.centred = true ↔
    ∃ c < t, CentredAt config (callsOf steps) c ∧ Calm (callsOf steps) (registeredAt steps) c t
  length_le : g.history.length ≤ 3
  trail : ∀ symbols : List Symbol, symbols.length ≤ 3 →
    (Trail config steps t symbols ↔ symbols <+: g.advance.history.reverse)

variable {config steps} {t : Nat} {step : Step}

theorem trail_iff_of_nothing (h : ∀ p s, ¬Precedes config steps p t s) (symbols : List Symbol) :
    Trail config steps t symbols ↔ symbols <+: [] := by
  rw [List.prefix_nil]
  cases symbols with
  | nil => exact iff_of_true trivial rfl
  | cons s older => exact iff_of_false (fun ⟨p, hp, _⟩ => h p s hp) (List.cons_ne_nil s older)

theorem tracks_new : Tracks config steps 0 { config := config } where
  config_eq := rfl
  tick := rfl
  idle_le := Nat.le_refl 0
  idle p hp := absurd hp (Nat.not_lt_zero p)
  centred := iff_of_false Bool.false_ne_true fun ⟨c, hc, _⟩ => Nat.not_lt_zero c hc
  length_le := Nat.zero_le 3
  trail symbols _ := by
    have hempty : (advance { config := config }).history = [] := ite_self []
    rw [hempty, List.reverse_nil]
    exact trail_iff_of_nothing (fun p s hp => Nat.not_lt_zero p hp.lt) symbols

/-! ### One more call -/

theorem callsOf_getElem? (hr : steps[t]? = some step) : (callsOf steps)[t]? = some step.call := by
  rw [callsOf, List.getElem?_map, hr, Option.map_some]

theorem registeredAt_eq (hr : steps[t]? = some step) : registeredAt steps t = step.registered := by
  rw [registeredAt, hr, Option.bind_some]

theorem actionAt_eq (hr : steps[t]? = some step) : actionAt steps t = step.action := by
  rw [actionAt, hr, Option.bind_some]

theorem dropsAt_iff (hr : steps[t]? = some step) :
    DropsAt (callsOf steps) t ↔ step.call.isLive = false := by
  simp [DropsAt, callsOf_getElem? hr]

theorem liveBefore_succ (hr : steps[t]? = some step) :
    liveBefore (callsOf steps) (t + 1) =
      liveBefore (callsOf steps) t + if step.call.isLive = true then 1 else 0 := by
  rw [liveBefore, List.take_add_one, callsOf_getElem? hr, List.countP_append, liveBefore,
    Option.toList_some, List.countP_singleton]

theorem Tracks.dropped (h : Tracks config steps t step.before) (hr : steps[t]? = some step)
    (hdropped : step.call.isLive = false) : Tracks config steps (t + 1) step.before.reset := by
  have hdrops : DropsAt (callsOf steps) t := (dropsAt_iff hr).mpr hdropped
  have hsticks : step.call.sticks? = none := by
    rwa [Call.isLive, Option.isSome_eq_false_iff, Option.isNone_iff_eq_none] at hdropped
  have hnone : registeredAt steps t = none := by
    rw [registeredAt_eq hr, Step.registered, hsticks, Option.bind_none]
  refine ⟨h.config_eq, ?_, Nat.zero_le _, fun p hp hne hcalm => ?_, ?_, Nat.zero_le 3, ?_⟩
  · rw [liveBefore_succ hr, hdropped]
    exact h.tick
  · obtain rfl := eq_of_calm (Or.inl hdrops) hp hcalm
    exact absurd hnone hne
  · refine iff_of_false Bool.false_ne_true ?_
    rintro ⟨c, hc, ⟨sticks, hmem, -⟩, hcalm⟩
    obtain rfl := eq_of_calm (Or.inl hdrops) hc hcalm
    rw [sticksAt, callsOf_getElem? hr, Option.bind_some, hsticks] at hmem
    cases hmem
  · have hempty : step.before.reset.advance.history = [] := ite_self []
    rw [hempty, List.reverse_nil]
    refine fun symbols _ => trail_iff_of_nothing (fun p s hp => ?_) symbols
    have hsymbol := hp.symbol
    rw [eq_of_calm (Or.inl hdrops) hp.lt hp.calm, hnone] at hsymbol
    cases hsymbol

/-! ### Live updates -/

variable (hfew : (callsOf steps).countP Call.isLive < Counter.last.toNat)

include hfew in
theorem liveBefore_lt (n : Nat) : liveBefore (callsOf steps) n < Counter.last.toNat :=
  ((List.take_sublist n _).countP_le).trans_lt hfew

include hfew in
/-- A live update moves both counters on; neither of them runs over. -/
theorem Tracks.advance_counters (h : Tracks config steps t step.before)
    (hr : steps[t]? = some step) (hlive : step.call.isLive = true) :
    step.before.advance.tick.toNat = liveBefore (callsOf steps) (t + 1) ∧
      step.before.advance.idle.toNat = step.before.idle.toNat + 1 := by
  have hsucc := liveBefore_succ hr
  rw [if_pos hlive] at hsucc
  have hlt := liveBefore_lt hfew (t + 1)
  have hlast : Counter.last.toNat = 2 ^ 32 - 1 := rfl
  have hidle := h.idle_le
  constructor
  · change (step.before.tick + 1).toNat = _
    rw [UInt32.toNat_add, UInt32.toNat_one, h.tick, hsucc]
    exact Nat.mod_eq_of_lt (by omega)
  · change (Counter.up step.before.idle).toNat = _
    rw [Counter.toNat_up]
    omega

include hfew in
theorem Tracks.sticksAt_iff (h : Tracks config steps t step.before) (hr : steps[t]? = some step)
    {sticks : Channels} : sticks ∈ sticksAt config (callsOf steps) t ↔
      step.call.sticks? = some sticks ∧ step.before.advance.tick % step.before.config.divider = 0 := by
  rw [sticksAt, callsOf_getElem? hr, Option.bind_some, Option.mem_def, Option.filter_eq_some_iff,
    beq_iff_eq]
  refine and_congr_right fun hsticks => ?_
  have hlive := Call.isLive_of_sticks? hsticks
  rw [← (h.advance_counters hfew hr hlive).1, h.config_eq, ← UInt32.toNat_mod, ← UInt32.toNat_inj]
  rfl

include hfew in
/-- The recogniser enters what the rules say. -/
theorem Tracks.registered_iff (h : Tracks config steps t step.before) (hr : steps[t]? = some step)
    (hconfig : config.centre < config.threshold) (s : Symbol) : registeredAt steps t = some s ↔
      ∃ sticks ∈ sticksAt config (callsOf steps) t,
        config.Deflects sticks.roll sticks.pitch s ∧ ∃ c < t,
          CentredAt config (callsOf steps) c ∧
            Calm (callsOf steps) (registeredAt steps) c t := by
  rw [registeredAt_eq hr, Step.registered, Option.bind_eq_some_iff, ← h.centred]
  refine exists_congr fun sticks => ?_
  rw [h.sticksAt_iff hfew hr, and_assoc]
  refine and_congr_right fun _ => ?_
  rw [entered?, h.config_eq, ← GestureConfig.symbol?_eq_some_iff]
  constructor
  · intro hentered
    split_ifs at hentered with hlook
    exact ⟨hlook.1, hentered, hlook.2.1⟩
  · rintro ⟨hdivider, hsymbol, hcentred⟩
    have hdeflects := GestureConfig.symbol?_eq_some_iff.mp hsymbol
    rw [if_pos ⟨hdivider, hcentred, GestureConfig.isCentred_of_deflects hconfig hdeflects⟩]
    exact hsymbol

include hfew in
theorem Tracks.centredAt_iff (h : Tracks config steps t step.before) (hr : steps[t]? = some step)
    {sticks : Channels} (hsticks : step.call.sticks? = some sticks) :
    CentredAt config (callsOf steps) t ↔
      step.before.advance.tick % step.before.config.divider = 0 ∧
        step.before.config.isCentred sticks.roll sticks.pitch = true := by
  constructor
  · rintro ⟨sticks', hmem, hcentred⟩
    obtain ⟨hsticks', hdivider⟩ := (h.sticksAt_iff hfew hr).mp hmem
    obtain rfl := Option.some_inj.mp (hsticks.symm.trans hsticks')
    rw [h.config_eq] at hdivider ⊢
    exact ⟨hdivider, (Gestures.centredAt_iff hmem).mp ⟨sticks, hmem, hcentred⟩⟩
  · rintro ⟨hdivider, hcentred⟩
    rw [h.config_eq] at hcentred
    exact (Gestures.centredAt_iff ((h.sticksAt_iff hfew hr).mpr ⟨hsticks, hdivider⟩)).mpr hcentred

theorem lt_of_registered (hnone : registeredAt steps t = none) {p : Nat} {s : Symbol}
    (hp : p < t + 1) (hs : registeredAt steps p = some s) : p < t := by
  refine Nat.lt_of_le_of_ne (Nat.lt_succ_iff.mp hp) fun hpt => ?_
  rw [hpt, hnone] at hs
  cases hs

theorem not_dropsAt_of_live (hr : steps[t]? = some step) (hlive : step.call.isLive = true) :
    ¬DropsAt (callsOf steps) t := by
  rw [dropsAt_iff hr, hlive]
  exact Bool.true_eq_false.mp

theorem Tracks.advance_length_le (h : Tracks config steps t step.before) :
    step.before.advance.history.length ≤ 3 := by
  simp only [advance]
  split_ifs
  · exact Nat.zero_le 3
  · exact h.length_le

include hfew in
/-- Where a live update registers nothing, the entries only grow older. -/
theorem Tracks.trail_of_none (h : Tracks config steps t step.before) (hr : steps[t]? = some step)
    (hlive : step.call.isLive = true) (hnone : registeredAt steps t = none) {symbols : List Symbol}
    (hlength : symbols.length ≤ 3) : Trail config steps (t + 1) symbols ↔
      symbols <+: step.before.advance.advance.history.reverse := by
  have hkeeps := not_dropsAt_of_live hr hlive
  have hage : ∀ {p s}, Precedes config steps p (t + 1) s → p + step.before.idle.toNat + 1 = t := by
    intro p s hp
    have hlt := lt_of_registered hnone hp.lt hp.symbol
    exact h.idle p hlt (hp.symbol ▸ Option.some_ne_none s)
      ((calm_succ_of_still hkeeps hnone hlt).mp hp.calm)
  have hlate : config.timeout < Counter.up step.before.advance.idle ↔
      config.timeout.toNat < step.before.idle.toNat + 2 := by
    have hlt := liveBefore_lt hfew (t + 1)
    have hsucc := liveBefore_succ hr
    rw [if_pos hlive] at hsucc
    have hidle := h.idle_le
    rw [UInt32.lt_iff_toNat_lt, Counter.toNat_up, (h.advance_counters hfew hr hlive).2]
    omega
  have hadvance : step.before.advance.advance.history =
      if config.timeout < Counter.up step.before.advance.idle then [] else
        step.before.advance.history := by
    rw [← h.config_eq]
    rfl
  rw [hadvance]
  split_ifs with htimeout
  · rw [List.reverse_nil]
    refine trail_iff_of_nothing (fun p s hp => ?_) symbols
    have hcount := hage hp
    have htimely := hp.timely
    have hlong := hlate.mp htimeout
    omega
  · rw [← h.trail symbols hlength]
    cases symbols with
    | nil => exact Iff.rfl
    | cons s older =>
      refine exists_congr fun p => and_congr_left fun _ => ?_
      constructor
      · intro hp
        have hlt := lt_of_registered hnone hp.lt hp.symbol
        exact ⟨hlt, hp.symbol, (calm_succ_of_still hkeeps hnone hlt).mp hp.calm,
          Nat.le_of_succ_le hp.timely, hp.unused⟩
      · intro hp
        have hcount := h.idle p hp.lt (hp.symbol ▸ Option.some_ne_none s) hp.calm
        have hshort := mt hlate.mpr htimeout
        exact ⟨Nat.lt_succ_of_lt hp.lt, hp.symbol,
          (calm_succ_of_still hkeeps hnone hp.lt).mpr hp.calm, by omega, hp.unused⟩

include hfew in
/-- A live update that registers nothing. -/
theorem Tracks.live_of_none (h : Tracks config steps t step.before) (hr : steps[t]? = some step)
    {sticks : Channels} (hsticks : step.call.sticks? = some sticks)
    (hnone : registeredAt steps t = none) :
    Tracks config steps (t + 1) { step.before.advance with
      centred := step.before.centred ||
        (decide (step.before.advance.tick % step.before.config.divider = 0) &&
          step.before.config.isCentred sticks.roll sticks.pitch) } := by
  have hlive := Call.isLive_of_sticks? hsticks
  have hkeeps := not_dropsAt_of_live hr hlive
  obtain ⟨htick, hidle⟩ := h.advance_counters hfew hr hlive
  have hsucc := liveBefore_succ hr
  rw [if_pos hlive] at hsucc
  refine ⟨h.config_eq, htick, ?_, fun p hp hne hc => ?_, ?_,
    h.advance_length_le, fun symbols hlength => h.trail_of_none hfew hr hlive hnone hlength⟩
  · change step.before.advance.idle.toNat ≤ _
    rw [hidle, hsucc]
    exact Nat.succ_le_succ h.idle_le
  · obtain ⟨s, hs⟩ := Option.ne_none_iff_exists'.mp hne
    have hlt := lt_of_registered hnone hp hs
    have hcount := h.idle p hlt hne ((calm_succ_of_still hkeeps hnone hlt).mp hc)
    change p + step.before.advance.idle.toNat + 1 = _
    omega
  · rw [Bool.or_eq_true, Bool.and_eq_true, decide_eq_true_iff, ← h.centredAt_iff hfew hr hsticks,
      h.centred]
    constructor
    · rintro (⟨c, hc, hcentred, hcalm⟩ | hcentred)
      · exact ⟨c, Nat.lt_succ_of_lt hc, hcentred, (calm_succ_of_still hkeeps hnone hc).mpr hcalm⟩
      · exact ⟨t, t.lt_succ_self, hcentred, calm_self t⟩
    · rintro ⟨c, hc, hcentred, hcalm⟩
      rcases Nat.lt_succ_iff_lt_or_eq.mp hc with hlt | rfl
      · exact Or.inl ⟨c, hlt, hcentred, (calm_succ_of_still hkeeps hnone hlt).mp hcalm⟩
      · exact Or.inr hcentred

theorem registered_cases {p : Nat} {s z : Symbol} (hz : registeredAt steps t = some z)
    (hp : Precedes config steps p (t + 1) s) : p = t ∧ s = z := by
  have hpt := eq_of_calm (Or.inr (hz ▸ Option.some_ne_none z)) hp.lt hp.calm
  have hsymbol := hp.symbol
  rw [hpt, hz, Option.some_inj] at hsymbol
  exact ⟨hpt, hsymbol.symm⟩

/-- A symbol goes ahead of all that were entered before it; where it makes a gesture, nothing is left
to go ahead of another. -/
theorem Tracks.trail_of_some (h : Tracks config steps t step.before) (hr : steps[t]? = some step)
    (htimeout : config.timeout ≠ 0) {z : Symbol} (hz : registeredAt steps t = some z)
    {symbols : List Symbol} (hlength : symbols.length ≤ 3) : Trail config steps (t + 1) symbols ↔
      symbols <+: (if step.action = none then remember step.before.advance.history z else
        []).reverse := by
  have hone : 1 ≤ config.timeout.toNat :=
    Nat.one_le_iff_ne_zero.mpr fun hzero => htimeout (UInt32.toNat_inj.mp hzero)
  split_ifs with haction
  · cases symbols with
    | nil => exact iff_of_true trivial List.nil_prefix
    | cons s older =>
      rw [List.length_cons] at hlength
      rw [cons_prefix_remember_iff h.advance_length_le (by omega),
        ← h.trail older (by omega)]
      constructor
      · rintro ⟨p, hp, hrest⟩
        obtain ⟨rfl, rfl⟩ := registered_cases hz hp
        exact ⟨rfl, hrest⟩
      · rintro ⟨rfl, hrest⟩
        exact ⟨t, ⟨t.lt_succ_self, hz, calm_self t, by omega, (actionAt_eq hr).trans haction⟩, hrest⟩
  · rw [List.reverse_nil]
    refine trail_iff_of_nothing (fun p s hp => ?_) symbols
    have hunused := hp.unused
    rw [(registered_cases hz hp).1, actionAt_eq hr] at hunused
    exact haction hunused

include hfew in
/-- A live update that registers a symbol. -/
theorem Tracks.live_of_some (h : Tracks config steps t step.before) (hr : steps[t]? = some step)
    (hconfig : config.centre < config.threshold) (htimeout : config.timeout ≠ 0)
    (hlive : step.call.isLive = true) {z : Symbol} (hz : registeredAt steps t = some z)
    (hentered : (step.after, step.action) = step.before.advance.enter z) :
    Tracks config steps (t + 1) step.after := by
  have hafter : step.after = { step.before.advance with
      centred := false
      idle := 0
      history := if step.action = none then remember step.before.advance.history z else [] } := by
    have henter := enter_after step.before.advance z
    rwa [← hentered] at henter
  have hends : DropsAt (callsOf steps) t ∨ registeredAt steps t ≠ none :=
    Or.inr (hz ▸ Option.some_ne_none z)
  rw [hafter]
  refine ⟨h.config_eq, (h.advance_counters hfew hr hlive).1, Nat.zero_le _, fun p hp _ hc => ?_, ?_,
    ?_, fun symbols hlength => ?_⟩
  · rw [eq_of_calm hends hp hc]
    rfl
  · refine iff_of_false Bool.false_ne_true ?_
    rintro ⟨c, hc, hcentred, hcalm⟩
    obtain rfl := eq_of_calm hends hc hcalm
    obtain ⟨sticks, hsticks, hdeflects, -⟩ := (h.registered_iff hfew hr hconfig z).mp hz
    exact not_centredAt hconfig hsticks hdeflects hcentred
  · change (if step.action = none then _ else []).length ≤ 3
    split_ifs
    · exact remember_length_le h.advance_length_le z
    · exact Nat.zero_le 3
  · have hfresh : ¬step.before.config.timeout < Counter.up 0 := by
      have hone : (Counter.up 0).toNat = 1 := rfl
      rw [h.config_eq, UInt32.lt_iff_toNat_lt, hone, Nat.lt_one_iff]
      exact fun hzero => htimeout (UInt32.toNat_inj.mp hzero)
    rw [h.trail_of_some hr htimeout hz hlength]
    change _ ↔ _ <+: (if step.before.config.timeout < Counter.up 0 then [] else _).reverse
    rw [if_neg hfresh]

/-- What a call comes to: it drops, or it is live and registers nothing, or it enters a symbol. -/
theorem perform_cases (hr : steps[t]? = some step)
    (hperform : step.before.perform step.call = .ok (step.after, step.action)) :
    (step.call.isLive = false ∧ registeredAt steps t = none ∧ step.action = none ∧
      step.after = step.before.reset) ∨
    (∃ sticks, step.call.sticks? = some sticks ∧ registeredAt steps t = none ∧
      step.action = none ∧ step.after = { step.before.advance with
        centred := step.before.centred ||
          (decide (step.before.advance.tick % step.before.config.divider = 0) &&
            step.before.config.isCentred sticks.roll sticks.pitch) }) ∨
    ∃ z, step.call.isLive = true ∧ registeredAt steps t = some z ∧
      (step.after, step.action) = step.before.advance.enter z := by
  have hregistered : registeredAt steps t = step.call.sticks?.bind step.before.entered? :=
    registeredAt_eq hr
  cases hsticks : step.call.sticks? with
  | none =>
    have hdropped : step.call.isLive = false := by rw [Call.isLive, hsticks]; rfl
    rw [perform_of_dropped hdropped] at hperform
    obtain ⟨hafter, haction⟩ := Prod.mk.inj (Except.ok.inj hperform)
    rw [hsticks] at hregistered
    exact Or.inl ⟨hdropped, hregistered, haction.symm, hafter.symm⟩
  | some sticks =>
    have hlive := Call.isLive_of_sticks? hsticks
    rw [perform_of_live hsticks] at hperform
    rw [hsticks, Option.bind_some] at hregistered
    cases hentered : step.before.entered? sticks with
    | none =>
      obtain ⟨haction, hafter⟩ := update_of_none hperform hentered
      exact Or.inr (Or.inl ⟨sticks, rfl, hregistered.trans hentered, haction, hafter⟩)
    | some z =>
      have henter := update_of_live hperform
      rw [hentered] at henter
      exact Or.inr (Or.inr ⟨z, hlive, hregistered.trans hentered, henter⟩)

include hfew in
/-- A call keeps up with the history. -/
theorem Tracks.next (h : Tracks config steps t step.before) (hr : steps[t]? = some step)
    (hconfig : config.centre < config.threshold) (htimeout : config.timeout ≠ 0)
    (hperform : step.before.perform step.call = .ok (step.after, step.action)) :
    Tracks config steps (t + 1) step.after := by
  rcases perform_cases hr hperform with ⟨hdropped, -, -, hafter⟩ |
    ⟨sticks, hsticks, hnone, -, hafter⟩ | ⟨z, hlive, hz, hentered⟩
  · rw [hafter]
    exact h.dropped hr hdropped
  · rw [hafter]
    exact h.live_of_none hfew hr hsticks hnone
  · exact h.live_of_some hfew hr hconfig htimeout hlive hz hentered

/-! ### Gestures -/

variable (hall : ∀ (t : Nat) (step : Step), steps[t]? = some step →
  step.before.perform step.call = .ok (step.after, step.action))

include hall in
theorem actionAt_of_none (hnone : registeredAt steps t = none) : actionAt steps t = none := by
  cases hr : steps[t]? with
  | none => rw [actionAt, hr, Option.bind_none]
  | some step =>
    rw [actionAt_eq hr]
    rcases perform_cases hr (hall t step hr) with ⟨-, -, haction, -⟩ | ⟨-, -, -, haction, -⟩ |
      ⟨z, -, hz, -⟩
    · exact haction
    · exact haction
    · rw [hnone] at hz
      cases hz

include hall in
/-- Two symbols that can go ahead, and a third one, make a gesture if they are its sequence. -/
theorem makes_iff {z : Symbol} (hz : registeredAt steps t = some z) (a : GestureAction) :
    (∃ i j, Makes config (callsOf steps) (registeredAt steps) (actionAt steps) i j t a) ↔
      ∃ x y, Trail config steps t [y, x] ∧ a.sequence = [x, y, z] := by
  constructor
  · rintro ⟨i, j, hm⟩
    obtain ⟨x, y, z', hx, hy, hz', ha⟩ := hm.symbols
    obtain rfl := Option.some_inj.mp (hz.symm.trans hz')
    exact ⟨x, y, ⟨j, ⟨hm.second, hy, hm.calm_second, hm.timely_second,
      hm.unused j hm.first.le hm.second⟩, i, ⟨hm.first, hx, hm.calm_first, hm.timely_first,
      hm.unused i le_rfl (hm.first.trans hm.second)⟩, trivial⟩, ha⟩
  · rintro ⟨x, y, ⟨j, hj, i, hi, -⟩, ha⟩
    refine ⟨i, j, hi.lt, hj.lt, ⟨x, y, z, hi.symbol, hj.symbol, hz, ha⟩, hi.calm, hj.calm,
      hi.timely, hj.timely, fun u hu hut => ?_⟩
    -- Between the symbols nothing is registered, and without a symbol nothing is asked for.
    rcases Nat.eq_or_lt_of_le hu with rfl | hiu
    · exact hi.unused
    · rcases lt_trichotomy u j with huj | rfl | hju
      · exact actionAt_of_none hall (hi.calm u hiu huj).2
      · exact hj.unused
      · exact actionAt_of_none hall (hj.calm u hju hut).2

include hall in
theorem action_iff_of_none (hnone : registeredAt steps t = none) (a : GestureAction) :
    actionAt steps t = some a ↔
      ∃ i j, Makes config (callsOf steps) (registeredAt steps) (actionAt steps) i j t a := by
  rw [actionAt_of_none hall hnone]
  refine iff_of_false (Option.some_ne_none a).symm ?_
  rintro ⟨i, j, hm⟩
  obtain ⟨x, y, z, -, -, hz, -⟩ := hm.symbols
  rw [hnone] at hz
  cases hz

include hall in
/-- The recogniser asks for what the rules say. -/
theorem Tracks.action_iff (h : Tracks config steps t step.before) (hr : steps[t]? = some step)
    (a : GestureAction) : actionAt steps t = some a ↔
      ∃ i j, Makes config (callsOf steps) (registeredAt steps) (actionAt steps) i j t a := by
  rcases perform_cases hr (hall t step hr) with ⟨-, hnone, -⟩ | ⟨-, -, hnone, -⟩ |
    ⟨z, -, hz, hentered⟩
  · exact action_iff_of_none hall hnone a
  · exact action_iff_of_none hall hnone a
  · have haction : step.action =
        GestureAction.ofSymbols? (remember step.before.advance.history z) := by
      rw [← (enter_eq _ z).1, ← hentered]
    have hlength := h.advance_length_le
    rw [makes_iff hall hz, actionAt_eq hr, haction, GestureAction.ofSymbols?_eq_some_iff]
    constructor
    · intro ha
      obtain ⟨x, y, z', hsequence⟩ := a.exists_sequence_eq
      have hsymbols := ha.symm.trans hsequence
      have hlast := congrArg List.getLast? hsymbols
      rw [remember, List.getLast?_concat] at hlast
      obtain rfl : z = z' := Option.some_inj.mp hlast
      exact ⟨x, y, (h.trail _ (by simp)).mpr ((remember_eq_iff hlength x y z).mp hsymbols), hsequence⟩
    · rintro ⟨x, y, htrail, ha⟩
      exact ha.trans ((remember_eq_iff hlength x y z).mpr ((h.trail _ (by simp)).mp htrail)).symm

end History

/-! ## From call to call -/

theorem trace_ok {g : Gestures} (h : g.config.divider ≠ 0) (calls : List Call) :
    ∃ steps, g.trace calls = .ok steps := by
  induction calls generalizing g with
  | nil => exact ⟨[], rfl⟩
  | cons call calls ih =>
    obtain ⟨⟨next, action⟩, hperform, hconfig⟩ : ∃ r, g.perform call = .ok r ∧
        r.1.config = g.config := by
      cases call with
      | reset => exact ⟨_, rfl, rfl⟩
      | update channels live =>
        obtain ⟨r, hr⟩ := update_ok h channels live
        exact ⟨r, hr, FlightCore.gestures_update_config hr⟩
    obtain ⟨steps, hsteps⟩ := ih (hconfig ▸ h : next.config.divider ≠ 0)
    exact ⟨_, bind_eq_ok.mpr ⟨_, hperform, bind_eq_ok.mpr ⟨steps, hsteps, rfl⟩⟩⟩

theorem trace_cons_eq_ok {g : Gestures} {call : Call} {calls : List Call} {steps : List Step}
    (h : g.trace (call :: calls) = .ok steps) : ∃ next action rest,
      g.perform call = .ok (next, action) ∧ next.trace calls = .ok rest ∧
        steps = ⟨call, g, next, action⟩ :: rest := by
  obtain ⟨⟨next, action⟩, hperform, hrest⟩ := bind_eq_ok.mp h
  obtain ⟨rest, htrace, hsteps⟩ := bind_eq_ok.mp hrest
  exact ⟨next, action, rest, hperform, htrace, (Except.ok.inj hsteps).symm⟩

theorem callsOf_trace {g : Gestures} {calls : List Call} {steps : List Step}
    (h : g.trace calls = .ok steps) : callsOf steps = calls := by
  induction calls generalizing g steps with
  | nil => rw [← Except.ok.inj h]; rfl
  | cons call calls ih =>
    obtain ⟨next, action, rest, -, hrest, rfl⟩ := trace_cons_eq_ok h
    rw [callsOf, List.map_cons, ← callsOf, ih hrest]

theorem before_first {g : Gestures} {calls : List Call} {steps : List Step}
    (h : g.trace calls = .ok steps) {step : Step} (hr : steps[0]? = some step) : step.before = g := by
  cases calls with
  | nil =>
    rw [← Except.ok.inj h] at hr
    cases hr
  | cons call calls =>
    obtain ⟨next, action, rest, -, -, rfl⟩ := trace_cons_eq_ok h
    rw [← Option.some_inj.mp hr]

theorem performed {g : Gestures} {calls : List Call} {steps : List Step}
    (h : g.trace calls = .ok steps) (t : Nat) (step : Step) (hr : steps[t]? = some step) :
    step.before.perform step.call = .ok (step.after, step.action) := by
  induction calls generalizing g steps t with
  | nil =>
    rw [← Except.ok.inj h] at hr
    cases hr
  | cons call calls ih =>
    obtain ⟨next, action, rest, hperform, hrest, rfl⟩ := trace_cons_eq_ok h
    cases t with
    | zero =>
      rw [← Option.some_inj.mp hr]
      exact hperform
    | succ t => exact ih hrest t hr

theorem before_next {g : Gestures} {calls : List Call} {steps : List Step}
    (h : g.trace calls = .ok steps) {t : Nat} {step later : Step} (hr : steps[t]? = some step)
    (hlater : steps[t + 1]? = some later) : later.before = step.after := by
  induction calls generalizing g steps t with
  | nil =>
    rw [← Except.ok.inj h] at hr
    cases hr
  | cons call calls ih =>
    obtain ⟨next, action, rest, -, hrest, rfl⟩ := trace_cons_eq_ok h
    cases t with
    | zero =>
      rw [← Option.some_inj.mp hr]
      exact before_first hrest hlater
    | succ t => exact ih hrest hr hlater

/-- Ahead of every call the recogniser knows what the calls so far have brought. -/
theorem tracks_of_trace {config : GestureConfig} {calls : List Call} {steps : List Step}
    (h : trace { config := config } calls = .ok steps)
    (hfew : (callsOf steps).countP Call.isLive < Counter.last.toNat)
    (hconfig : config.centre < config.threshold) (htimeout : config.timeout ≠ 0) {t : Nat}
    {step : Step} (hr : steps[t]? = some step) : Tracks config steps t step.before := by
  induction t generalizing step with
  | zero =>
    rw [before_first h hr]
    exact tracks_new
  | succ t ih =>
    obtain ⟨hlt, -⟩ := List.getElem?_eq_some_iff.mp hr
    have hp : steps[t]? = some steps[t] := List.getElem?_eq_getElem (Nat.lt_of_succ_lt hlt)
    rw [before_next h hp hr]
    exact (ih hp).next hfew hp hconfig htimeout (performed h t _ hp)

/-! ## Recognition -/

/-- The recogniser does what the rules say, and what follows from them. -/
structure Recognises (config : GestureConfig) (steps : List Step) : Prop where
  /-- What is registered is what goes into the history, and an action comes with a symbol only. -/
  entered : ∀ step ∈ steps, ∀ sticks, step.call.sticks? = some sticks →
    match step.registered with
    | some s => (step.after, step.action) = step.before.advance.enter s
    | none => step.after.history = step.before.advance.history ∧ step.action = none
  rules : Rules config (callsOf steps) (registeredAt steps) (actionAt steps)
  determined : ∀ registered action, Rules config (callsOf steps) registered action →
    registered = registeredAt steps ∧ action = actionAt steps
  disjoint : ∀ i j t i' j' t' a a',
    Makes config (callsOf steps) (registeredAt steps) (actionAt steps) i j t a →
    Makes config (callsOf steps) (registeredAt steps) (actionAt steps) i' j' t' a' →
    t < t' → t < i'
  recentred : ∀ p t s s', p < t → registeredAt steps p = some s → registeredAt steps t = some s' →
    ∃ c, p < c ∧ c < t ∧ CentredAt config (callsOf steps) c

/-- With a valid configuration and few enough updates, the recogniser follows the rules. -/
theorem recognises_of_check (config : GestureConfig) (h : config.check = .ok ()) (calls : List Call)
    (hfew : calls.countP Call.isUpdate < 2 ^ 32 - 1) :
    ∃ steps, trace { config := config } calls = .ok steps ∧ callsOf steps = calls ∧
      Recognises config steps := by
  obtain ⟨hdivider, htimeout, ⟨-, hconfig⟩, -⟩ := GestureConfig.check_eq_ok.mp h
  obtain ⟨steps, htrace⟩ := trace_ok (g := { config := config }) hdivider calls
  have hcalls := callsOf_trace htrace
  have hlive : (callsOf steps).countP Call.isLive < Counter.last.toNat := by
    rw [hcalls]
    refine lt_of_le_of_lt (List.countP_mono_left fun call _ hlive => ?_) hfew
    cases call with
    | update channels live => rfl
    | reset => cases hlive
  have hall := performed htrace
  have hrules : Rules config (callsOf steps) (registeredAt steps) (actionAt steps) := by
    refine ⟨fun t => ?_, fun t => ?_⟩
    · cases hr : steps[t]? with
      | some step =>
        exact (tracks_of_trace htrace hlive hconfig htimeout hr).registered_iff hlive hr hconfig
      | none =>
        intro s
        rw [registeredAt, hr, sticksAt, callsOf, List.getElem?_map, hr]
        simp
    · cases hr : steps[t]? with
      | some step => exact (tracks_of_trace htrace hlive hconfig htimeout hr).action_iff hall hr
      | none => exact action_iff_of_none hall (by rw [registeredAt, hr, Option.bind_none])
  refine ⟨steps, htrace, hcalls, fun step hmem sticks hsticks => ?_, hrules,
    fun registered action h' => h'.unique hrules, fun i j t i' j' t' a a' => hrules.disjoint,
    fun p t s s' => hrules.recentred hconfig⟩
  obtain ⟨t, hr⟩ := List.getElem?_of_mem hmem
  have hperform := hall t step hr
  rw [perform_of_live hsticks] at hperform
  rw [Step.registered, hsticks, Option.bind_some]
  exact update_of_live hperform

/-- A stroke to the left that a reset drops, and then up, down and to the right, each from the centre
and each position held for two updates. -/
def mixedStrokes : List Call :=
  let held (sticks : Channels) : List Call := [.update sticks true, .update sticks true]
  held {} ++ held { roll := -1.0 } ++ [.reset] ++ held {} ++ held { pitch := 1.0 } ++ held {} ++
    held { pitch := -1.0 } ++ held {} ++ held { roll := 1.0 }

/-- With a look at the sticks in every other update, all four strokes are registered, and the last
three of them make a gesture. -/
theorem recognises_of_check_mixedStrokes : GestureConfig.check { divider := 2 } = .ok () ∧
    mixedStrokes.countP Call.isUpdate < 2 ^ 32 - 1 ∧
    ∃ steps, trace { config := { divider := 2 } } mixedStrokes = .ok steps ∧
      steps.filterMap Step.registered = [.left, .up, .down, .right] ∧
      actionAt steps 16 = some .increaseGain ∧
      ∃ i j, Makes { divider := 2 } mixedStrokes (registeredAt steps) (actionAt steps) i j 16
        .increaseGain := by
  have hcheck : GestureConfig.check { divider := 2 } = .ok () := rfl
  have hfew : mixedStrokes.countP Call.isUpdate < 2 ^ 32 - 1 := by decide
  obtain ⟨steps, htrace, hcalls, hrecognises⟩ :=
    recognises_of_check { divider := 2 } hcheck mixedStrokes hfew
  have hrun : (trace { config := { divider := 2 } } mixedStrokes).toOption.map (fun steps =>
      (steps.filterMap Step.registered, steps[16]?.map Step.action)) =
        some ([.left, .up, .down, .right], some (some .increaseGain)) := by
    decide +kernel
  rw [htrace] at hrun
  obtain ⟨hregistered, hlast⟩ := Prod.mk.inj (Option.some_inj.mp hrun)
  obtain ⟨step, hr, haction⟩ := Option.map_eq_some_iff.mp hlast
  have hasked : actionAt steps 16 = some .increaseGain := (actionAt_eq hr).trans haction
  have hmakes := (hrecognises.rules.action_iff 16 .increaseGain).mp hasked
  rw [hcalls] at hmakes
  exact ⟨hcheck, hfew, steps, htrace, hregistered, hasked, hmakes⟩

end Quadrotor.Gestures

import Mathlib
import Quadrotor.Flight.Schedule
import Quadrotor.Proofs.Checks

/-!
# The grid of ticks

All ticks start on one grid of periods, which the first tick fixes. A wait in time is for the next
grid point; one that comes too late is for the first grid point still to come, however many periods
have been missed and whatever the clock tells. As long as the words of the clock leave room for two
more periods, none of this leaves the width of a word, so that only the clock itself can fail.
-/

namespace Quadrotor.Schedule

/-- The distance of two grid points. -/
def spacing (period : UInt32) : Nat := max period.toNat 1

/-! ## One wait -/

/-- The tick that follows one that has started at `prev`, where the clock tells `now`. -/
structure Follows (p prev : Nat) (now : Time) (timing : TickTiming) : Prop where
  overran_iff : timing.overran = true ↔ prev + p < now.toNat
  in_time : timing.overran = false → timing.start.toNat = prev + p
  /-- The start is the first grid point after `now`. -/
  late : timing.overran = true → now < timing.start ∧ timing.start.toNat ≤ now.toNat + p
  grid : ∃ k > 0, timing.start.toNat = prev + k * p

/-- A schedule between ticks: its deadline is one period after the start of the present tick. -/
structure Regular (p : Nat) (s : Schedule) : Prop where
  period_eq : s.period.toNat = p
  pos : 0 < p
  deadline : ∀ d, s.deadline = some d → d.toNat = s.start.toNat + p

theorem regular_new (period : UInt32) : Regular (spacing period) (new period) where
  period_eq := by
    unfold new spacing
    split_ifs with h
    · rw [h]
      rfl
    · have hpos : period.toNat ≠ 0 := fun h0 => h (UInt32.toNat_inj.mp h0)
      rw [max_eq_left (Nat.one_le_iff_ne_zero.mpr hpos)]
      exact UInt32.toNat_toUInt64 period
  pos := lt_of_lt_of_le Nat.one_pos (le_max_right _ _)
  deadline := fun d h => by cases h

theorem plus_eq_ok {a b : Time} (h : a.toNat + b.toNat < 2 ^ 64) :
    Time.plus a b = .ok (a + b) ∧ (a + b).toNat = a.toNat + b.toNat := by
  refine ⟨if_pos h, ?_⟩
  rw [UInt64.toNat_add]
  exact Nat.mod_eq_of_lt h

theorem times_eq_ok {a b : Time} (h : a.toNat * b.toNat < 2 ^ 64) :
    Time.times a b = .ok (a * b) ∧ (a * b).toNat = a.toNat * b.toNat := by
  refine ⟨if_pos h, ?_⟩
  rw [UInt64.toNat_mul]
  exact Nat.mod_eq_of_lt h

/-- The multiples of `p` that `d` has passed, and the one that comes next. -/
theorem next_multiple {p : Nat} (hp : 0 < p) (d : Nat) :
    d < (d / p + 1) * p ∧ (d / p + 1) * p ≤ d + p := by
  rw [Nat.add_mul, Nat.one_mul]
  exact ⟨Nat.lt_div_mul_add hp, Nat.add_le_add_right (Nat.div_mul_le_self d p) p⟩

variable {p : Nat} {s : Schedule}

/-- The first tick starts at once. -/
theorem Regular.first (h : Regular p s) {now : Time} (hnow : now.toNat + 2 * p < 2 ^ 64) :
    ∃ next, s.first now = .ok (next, ⟨now, false⟩) ∧ Regular p next ∧ next.start = now ∧
      next.deadline.isSome ∧ next.overruns = s.overruns := by
  obtain ⟨hsum, hval⟩ := plus_eq_ok (a := now) (b := s.period) (by rw [h.period_eq]; omega)
  refine ⟨{ s with deadline := some (now + s.period), start := now },
    bind_eq_ok.mpr ⟨_, hsum, rfl⟩, ⟨h.period_eq, h.pos, fun d hd => ?_⟩, rfl, rfl, rfl⟩
  rw [← Option.some_inj.mp hd, hval, h.period_eq]

/-- A wait that comes too late skips to the first grid point to come, within the width of a word. -/
theorem Regular.skip (h : Regular p s) {now deadline : Time} (hd : deadline.toNat = s.start.toNat + p)
    (hnow : now.toNat + 2 * p < 2 ^ 64) (hlate : deadline < now) :
    ∃ late start, s.overrun? deadline now = .ok (some late) ∧
      s.startAfter deadline (some late) = .ok start ∧ Follows p s.start.toNat now ⟨start, true⟩ ∧
      start.toNat ≤ now.toNat + p := by
  have hlt := UInt64.lt_iff_toNat_lt.mp hlate
  obtain ⟨behind, hbehind⟩ : ∃ behind, behind = now - deadline := ⟨_, rfl⟩
  have hbehind' : behind.toNat = now.toNat - deadline.toNat := by
    rw [hbehind]
    exact UInt64.toNat_sub_of_le _ _ (UInt64.le_iff_toNat_le.mpr hlt.le)
  have hdiv : (behind / s.period).toNat = behind.toNat / p := by
    rw [UInt64.toNat_div, h.period_eq]
  have hsmall : behind.toNat / p ≤ behind.toNat := Nat.div_le_self _ _
  obtain ⟨hover, hupto⟩ := next_multiple h.pos behind.toNat
  have hpos := h.pos
  obtain ⟨hmissed, hmissed'⟩ := plus_eq_ok (a := behind / s.period) (b := 1)
    (by rw [hdiv, UInt64.toNat_one]; omega)
  rw [hdiv, UInt64.toNat_one] at hmissed'
  obtain ⟨hskip, hskip'⟩ := times_eq_ok (a := behind / s.period + 1) (b := s.period)
    (by rw [hmissed', h.period_eq]; omega)
  rw [hmissed', h.period_eq] at hskip'
  obtain ⟨hstart, hstart'⟩ := plus_eq_ok (a := deadline) (b := (behind / s.period + 1) * s.period)
    (by rw [hskip']; omega)
  rw [hskip'] at hstart'
  refine ⟨⟨behind, behind / s.period + 1⟩, _, ?_, bind_eq_ok.mpr ⟨_, hskip, hstart⟩, ?_, ?_⟩
  · unfold overrun?
    rw [if_pos hlate, ← hbehind]
    exact bind_eq_ok.mpr ⟨_, hmissed, rfl⟩
  · refine ⟨iff_of_true rfl (by omega), fun hno => absurd hno (by simp), fun _ => ⟨?_, ?_⟩, ?_⟩
    · rw [UInt64.lt_iff_toNat_lt, hstart']
      omega
    · rw [hstart']
      omega
    · refine ⟨behind.toNat / p + 2, Nat.succ_pos _, ?_⟩
      rw [hstart', hd]
      ring
  · rw [hstart']
    omega

/-- Where the tick after a deadline starts. -/
theorem Regular.startAfter (h : Regular p s) {now deadline : Time}
    (hdeadline : s.deadline = some deadline) (hnow : now.toNat + 2 * p < 2 ^ 64)
    (hprev : s.start.toNat + 2 * p < 2 ^ 64) :
    ∃ late start, s.overrun? deadline now = .ok late ∧ s.startAfter deadline late = .ok start ∧
      Follows p s.start.toNat now ⟨start, late.isSome⟩ ∧ start.toNat + p < 2 ^ 64 := by
  have hd := h.deadline deadline hdeadline
  by_cases hlate : deadline < now
  · obtain ⟨late, start, hover, hstart, hfollows, hle⟩ := h.skip hd hnow hlate
    exact ⟨some late, start, hover, hstart, hfollows, by omega⟩
  · have hle : now.toNat ≤ deadline.toNat := by
      rw [UInt64.lt_iff_toNat_lt] at hlate
      omega
    refine ⟨none, deadline, if_neg hlate, rfl, ⟨?_, fun _ => hd, ?_, 1, one_pos, ?_⟩, by omega⟩
    · exact iff_of_false Bool.false_ne_true (by omega)
    · exact fun hyes => absurd hyes Bool.false_ne_true
    · rw [Nat.one_mul]
      exact hd

/-- The schedule takes over a start. -/
theorem Regular.next (h : Regular p s) (now : Time) {deadline start : Time} {late : Option Overrun}
    (hstart : s.startAfter deadline late = .ok start) (hroom : start.toNat + p < 2 ^ 64) :
    ∃ next, s.next now deadline late = .ok (next, ⟨start, late.isSome⟩) ∧ Regular p next ∧
      next.start = start ∧ next.deadline.isSome ∧
      next.overruns = if late.isSome then Counter.up s.overruns else s.overruns := by
  obtain ⟨hsum, hval⟩ := plus_eq_ok (a := start) (b := s.period) (by rw [h.period_eq]; exact hroom)
  refine ⟨{ s with
      deadline := some (start + s.period)
      start := start
      overruns := if late.isSome then Counter.up s.overruns else s.overruns
      execution := s.execution.add (Time.since now s.start).toFloat32 },
    bind_eq_ok.mpr ⟨_, hstart, bind_eq_ok.mpr ⟨_, hsum, rfl⟩⟩, ⟨h.period_eq, h.pos, fun d hd => ?_⟩,
    rfl, rfl, rfl⟩
  rw [← Option.some_inj.mp hd, hval, h.period_eq]

/-! ## Waits in a row -/

/-- A wait, as an observer of the clock and of the schedule notes it. -/
structure Wait (κ : Type) where
  /-- The clock as the wait has found it. -/
  clock : κ
  /-- The clock as the wait has left it. -/
  left : κ
  timing : TickTiming
  /-- The overruns that are counted after the wait. -/
  overruns : UInt32

variable {κ : Type}

/-- What the clock told. -/
def Wait.now [Clock κ] (w : Wait κ) : Time := (Clock.now w.clock).1

/-- What the schedule keeps of the waits so far. -/
structure Tracks (period : UInt32) (waits : List (Wait κ)) (s : Schedule) : Prop where
  regular : Regular (spacing period) s
  start : ∀ v ∈ waits.getLast?, v.timing.start = s.start
  deadline : s.deadline.isSome = true ↔ waits ≠ []
  overruns : s.overruns.toNat = min (waits.countP (·.timing.overran)) Counter.last.toNat

theorem tracks_new (period : UInt32) : Tracks period ([] : List (Wait κ)) (.new period) :=
  ⟨regular_new period, fun v hv => absurd hv (by simp), by simp [new], rfl⟩

theorem Tracks.concat {period : UInt32} {waits : List (Wait κ)} {next : Schedule} {clock : κ}
    {timing : TickTiming} (h : Tracks period waits s) (hregular : Regular (spacing period) next)
    (hstart : next.start = timing.start) (hdeadline : next.deadline.isSome = true)
    (hcount : next.overruns = if timing.overran then Counter.up s.overruns else s.overruns)
    (left : κ) : Tracks period (waits ++ [⟨clock, left, timing, next.overruns⟩]) next where
  regular := hregular
  start := by
    intro v hv
    rw [List.getLast?_concat, Option.mem_some_iff] at hv
    rw [← hv, hstart]
  deadline := iff_of_true hdeadline (by simp)
  overruns := by
    rw [hcount, List.countP_append, List.countP_singleton]
    cases timing.overran with
    | false => exact h.overruns
    | true =>
      rw [if_pos rfl, Counter.toNat_up, h.overruns, if_pos rfl]
      omega

/-- Every start is so many periods after the first one, and each time more. -/
def Spaced (period : UInt32) (waits : List (Wait κ)) : Prop :=
  ∃ k : Nat → Nat, StrictMono k ∧ k 0 = 0 ∧ ∀ (t : Nat) (b w : Wait κ),
    waits[0]? = some b → waits[t]? = some w →
      w.timing.start.toNat = b.timing.start.toNat + k t * spacing period

/-- The first tick is on its own grid. -/
theorem spaced_singleton (period : UInt32) (w : Wait κ) : Spaced period [w] := by
  refine ⟨id, strictMono_id, rfl, fun t b u hb hu => ?_⟩
  obtain ⟨ht, rfl⟩ := List.getElem?_eq_some_iff.mp hu
  obtain ⟨-, rfl⟩ := List.getElem?_eq_some_iff.mp hb
  obtain rfl : t = 0 := by simpa using ht
  simp

theorem Spaced.concat {period : UInt32} {waits : List (Wait κ)} {v w : Wait κ} {now : Time}
    (hspaced : Spaced period waits) (hv : waits.getLast? = some v)
    (h : Follows (spacing period) v.timing.start.toNat now w.timing) :
    Spaced period (waits ++ [w]) := by
  obtain ⟨k, hmono, hzero, hk⟩ := hspaced
  obtain ⟨j, hj, hstart⟩ := h.grid
  obtain ⟨n, hn⟩ : ∃ n, waits.length = n + 1 := by
    cases waits with
    | nil => cases hv
    | cons a rest => exact ⟨rest.length, rfl⟩
  rw [List.getLast?_eq_getElem?, hn, Nat.add_sub_cancel] at hv
  refine ⟨fun t => if t ≤ n then k t else k n + j + (t - (n + 1)), ?_, ?_, ?_⟩
  · refine strictMono_nat_of_lt_succ fun t => ?_
    have hlt := hmono t.lt_succ_self
    rcases lt_trichotomy t n with ht | rfl | ht
    · rw [if_pos ht.le, if_pos (Nat.succ_le_of_lt ht)]
      exact hlt
    · rw [if_pos le_rfl, if_neg (by omega)]
      omega
    · rw [if_neg (by omega), if_neg (by omega)]
      omega
  · simp only [Nat.zero_le, if_true, hzero]
  · intro t b u hb hu
    rw [List.getElem?_append_left (by omega)] at hb
    by_cases ht : t ≤ n
    · rw [List.getElem?_append_left (by omega)] at hu
      simp only [if_pos ht]
      exact hk t b u hb hu
    · have hlen := (List.getElem?_eq_some_iff.mp hu).1
      rw [List.length_append, List.length_singleton] at hlen
      obtain rfl : t = waits.length := by omega
      rw [List.getElem?_concat_length, Option.some_inj] at hu
      have hlast := hk n b v hb hv
      simp only [if_neg ht]
      rw [← hu, hstart, hlast, hn, Nat.sub_self]
      ring

variable [Clock κ]

/-- What `now` and the present tick leave room for: two more periods. -/
def Room (period : UInt32) (waits : List (Wait κ)) (now : Time) : Prop :=
  now.toNat + 2 * spacing period < 2 ^ 64 ∧
    ∀ v ∈ waits.getLast?, v.timing.start.toNat + 2 * spacing period < 2 ^ 64

/-- The waits of a schedule so far, and what they have made of it. Each finds the clock as it is by
then, whatever has happened to it since the wait before. -/
inductive Waits (period : UInt32) : List (Wait κ) → Schedule → Prop
  | new : Waits period [] (.new period)
  | wait {waits : List (Wait κ)} {s next : Schedule} (clock : κ) {left : κ} {timing : TickTiming}
      {late : Option Overrun} (h : Waits period waits s) (hroom : Room period waits (Clock.now clock).1)
      (hwait : s.waitNext clock = .ok (left, next, timing, late)) :
      Waits period (waits ++ [⟨clock, left, timing, next.overruns⟩]) next

/-- The clock after a wait for `start`; ahead of the first tick there is nothing to wait for. -/
def awaited (waits : List (Wait κ)) (clock : κ) (start : Time) : Checked κ :=
  if waits = [] then .ok (Clock.now clock).2 else Clock.waitUntil (Clock.now clock).2 start

/-- How the ticks so far are followed by another one. -/
def Continues (period : UInt32) (waits : List (Wait κ)) (now : Time) (timing : TickTiming) : Prop :=
  match waits.getLast? with
  | none => timing = ⟨now, false⟩
  | some v => Follows (spacing period) v.timing.start.toNat now timing

/-- A wait gives a tick that continues the grid, unless the clock itself fails. -/
theorem Tracks.waitNext {period : UInt32} {waits : List (Wait κ)} (h : Tracks period waits s)
    {clock : κ} (hroom : Room period waits (Clock.now clock).1) :
    ∃ next timing late, s.waitNext clock =
        (awaited waits clock timing.start).map (fun left => (left, next, timing, late)) ∧
      Continues period waits (Clock.now clock).1 timing ∧
      ∀ left, Tracks period (waits ++ [⟨clock, left, timing, next.overruns⟩]) next := by
  cases hd : s.deadline with
  | none =>
    have hnil : waits = [] := by
      by_contra hne
      have := h.deadline.mpr hne
      rw [hd] at this
      cases this
    subst hnil
    obtain ⟨next, hfirst, hregular, hstart, hdeadline, hcount⟩ := h.regular.first hroom.1
    refine ⟨next, ⟨(Clock.now clock).1, false⟩, none, ?_, rfl,
      h.concat hregular hstart hdeadline hcount⟩
    unfold Schedule.waitNext
    simp only [hd, hfirst]
    rfl
  | some deadline =>
    have hne : waits ≠ [] := h.deadline.mp (by rw [hd]; rfl)
    obtain ⟨v, hv⟩ : ∃ v, waits.getLast? = some v := ⟨_, List.getLast?_eq_some_getLast hne⟩
    have hprev := h.start v hv
    obtain ⟨late, start, hlate, hafter, hfollows, hfits⟩ := h.regular.startAfter hd hroom.1
      (by rw [← hprev]; exact hroom.2 v hv)
    obtain ⟨next, hnext, hregular, hstart, hdeadline, hcount⟩ :=
      h.regular.next (Clock.now clock).1 hafter hfits
    refine ⟨next, ⟨start, late.isSome⟩, late, ?_, ?_, h.concat hregular hstart hdeadline hcount⟩
    · unfold Schedule.waitNext awaited
      simp only [hd, hlate, hafter, hnext, if_neg hne, bind, Except.bind]
      cases Clock.waitUntil (Clock.now clock).2 start <;> rfl
    · unfold Continues
      rw [hv]
      simp only [hprev]
      exact hfollows

/-! ## The grid -/

/-- Ticks that start on one grid. -/
structure OnGrid (period : UInt32) (waits : List (Wait κ)) : Prop where
  /-- The first tick starts at once, without a wait. -/
  first : ∀ b, waits[0]? = some b → b.timing = ⟨b.now, false⟩ ∧ b.left = (Clock.now b.clock).2
  /-- Each later tick follows the one before, and its start is what the clock was waited for. -/
  later : ∀ (t : Nat) (v w : Wait κ), waits[t]? = some v → waits[t + 1]? = some w →
    Follows (spacing period) v.timing.start.toNat w.now w.timing ∧
      Clock.waitUntil (Clock.now w.clock).2 w.timing.start = .ok w.left
  spaced : Spaced period waits
  /-- The ticks that came too late are counted as far as a word can. -/
  counted : ∀ (t : Nat) (w : Wait κ), waits[t]? = some w →
    w.overruns.toNat = min ((waits.take (t + 1)).countP (·.timing.overran)) (2 ^ 32 - 1)

/-- Each wait of a history continues the ones before it. -/
theorem Waits.at {period : UInt32} {waits : List (Wait κ)} {s : Schedule}
    (h : Waits period waits s) : Tracks period waits s ∧ ∀ (t : Nat) (w : Wait κ),
      waits[t]? = some w → Continues period (waits.take t) w.now w.timing ∧
        awaited (waits.take t) w.clock w.timing.start = .ok w.left ∧
        w.overruns.toNat = min ((waits.take (t + 1)).countP (·.timing.overran)) Counter.last.toNat := by
  induction h with
  | new => exact ⟨tracks_new period, fun t w hw => absurd hw (by simp)⟩
  | @wait waits s next clock left timing late h hroom hwait ih =>
    obtain ⟨next', timing', late', hnext, hcontinues, htracks⟩ := ih.1.waitNext hroom
    rw [hnext] at hwait
    cases hclock : awaited waits clock timing'.start with
    | error e =>
      rw [hclock] at hwait
      cases hwait
    | ok left' =>
      rw [hclock] at hwait
      cases hwait
      refine ⟨htracks left, fun t w hw => ?_⟩
      rcases lt_trichotomy t waits.length with ht | rfl | ht
      · rw [List.getElem?_append_left ht] at hw
        rw [List.take_append_of_le_length ht.le, List.take_append_of_le_length ht]
        exact ih.2 t w hw
      · rw [List.getElem?_concat_length, Option.some_inj] at hw
        rw [List.take_left, List.take_of_length_le (by simp), ← hw]
        exact ⟨hcontinues, hclock, (htracks left).overruns⟩
      · rw [List.getElem?_eq_none (by rw [List.length_append, List.length_singleton]; omega)] at hw
        cases hw

theorem Waits.spaced {period : UInt32} {waits : List (Wait κ)} {s : Schedule}
    (h : Waits period waits s) (hne : waits ≠ []) : Spaced period waits := by
  induction h with
  | new => exact absurd rfl hne
  | @wait waits s next clock left timing late h hroom hwait ih =>
    have hall := (Waits.wait _ h hroom hwait).at.2 waits.length _ List.getElem?_concat_length
    rw [List.take_left] at hall
    obtain ⟨hcontinues, -⟩ := hall
    cases hv : waits.getLast? with
    | none =>
      rw [List.getLast?_eq_none_iff.mp hv]
      exact spaced_singleton period _
    | some v =>
      unfold Continues at hcontinues
      rw [hv] at hcontinues
      refine (ih ?_).concat hv hcontinues
      rintro rfl
      cases hv

/-- The ticks of a schedule start on one grid, whatever the clock tells, and as long as there is room
for two more periods nothing keeps the schedule from another tick but the clock itself. -/
theorem grid_of_waits (period : UInt32) {waits : List (Wait κ)} {s : Schedule}
    (h : Waits period waits s) : OnGrid period waits ∧
      ∀ clock : κ, Room period waits (Clock.now clock).1 → ∃ next timing late,
        s.waitNext clock =
          (awaited waits clock timing.start).map (fun left => (left, next, timing, late)) ∧
        Continues period waits (Clock.now clock).1 timing := by
  obtain ⟨htracks, hall⟩ := h.at
  refine ⟨⟨fun b hb => ?_, fun t v w hv hw => ?_, ?_, fun t w hw => (hall t w hw).2.2⟩,
    fun clock hroom => ?_⟩
  · obtain ⟨hcontinues, hwaited, -⟩ := hall 0 b hb
    exact ⟨hcontinues, (Except.ok.inj hwaited).symm⟩
  · obtain ⟨hcontinues, hwaited, -⟩ := hall (t + 1) w hw
    have hlast : (waits.take (t + 1)).getLast? = some v := by
      rw [List.take_add_one, hv]
      exact List.getLast?_concat
    unfold Continues at hcontinues
    unfold awaited at hwaited
    rw [hlast] at hcontinues
    rw [if_neg (by rintro hnil; rw [hnil] at hlast; cases hlast)] at hwaited
    exact ⟨hcontinues, hwaited⟩
  · by_cases hne : waits = []
    · rw [hne]
      exact ⟨id, strictMono_id, rfl, fun t b w hb _ => absurd hb (by simp)⟩
    · exact h.spaced hne
  · obtain ⟨next, timing, late, hnext, hcontinues, -⟩ := htracks.waitNext hroom
    exact ⟨next, timing, late, hnext, hcontinues⟩

/-- A clock that is read at the given times, for a period of a millisecond: in time, then long after
the deadline. -/
theorem grid_of_late_wait : ∃ waits s, Waits 1000 waits s ∧
    waits.map (fun w : Wait ManualClock => (w.timing.start, w.timing.overran)) =
      [(500, false), (1500, false), (4500, true)] ∧ OnGrid 1000 waits := by
  have h : ∃ waits s, Waits 1000 waits s ∧
      waits.map (fun w : Wait ManualClock => (w.timing.start, w.timing.overran)) =
        [(500, false), (1500, false), (4500, true)] := by
    have h1 := Waits.wait (⟨500, []⟩ : ManualClock) (@Waits.new _ _ 1000)
      ⟨by decide, by simp⟩ rfl
    have h2 := h1.wait ⟨800, []⟩ ⟨by decide, by decide⟩ rfl
    have h3 := h2.wait ⟨4300, []⟩ ⟨by decide, by decide⟩ rfl
    exact ⟨_, _, h3, by rfl⟩
  obtain ⟨waits, s, hwaits, hstarts⟩ := h
  exact ⟨waits, s, hwaits, hstarts, (grid_of_waits 1000 hwaits).1⟩

end Quadrotor.Schedule

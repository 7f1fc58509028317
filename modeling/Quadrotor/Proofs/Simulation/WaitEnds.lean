import Mathlib
import Quadrotor.Proofs.Flight.TickGrid
import Quadrotor.Proofs.Simulation.StepTime
import Quadrotor.Simulation.World

/-!
# Waiting for a world

A clock that is driven by a world waits by stepping it, so a wait ends if the steps take time. What
they take is the same for all of them, and since the world starts at time zero, its time is a
multiple of that: it has not moved at all, or by one step at least. A step from a time below `2 ^ 62`
therefore never leaves the width of a word, not even the longest one a word can hold, and the waits
end for all rates up to two million steps a second. With a higher rate the steps take no time, and
then no wait ends.
-/

namespace Quadrotor.WorldClock

variable {s : SimulationSettings} {seed : UInt64} {config : SimulationConfig} {c d : WorldClock}
  {deadline : Time}

/-- What a step takes [µs]. -/
def stepTime (c : WorldClock) : Nat := (Time.ofSeconds c.step).toNat

/-- A world that its clients have driven, charged, levelled and stepped. -/
inductive Reached (config : SimulationConfig) : WorldClock → Prop
  | start : Reached config ⟨World.new config, config.step⟩
  | drive {c : WorldClock} (duties : PerMotor Scalar) :
    Reached config c → Reached config { c with world := c.world.drive duties }
  | charge {c : WorldClock} (charge : Scalar) :
    Reached config c → Reached config { c with world := c.world.withCharge charge }
  | upright {c : WorldClock} : Reached config c → Reached config { c with world := c.world.upright }
  | tick {c d : WorldClock} : Reached config c → c.tick = .ok d → Reached config d

/-- The loop of a wait: it steps `n` times, and only while the time has not come. -/
structure Arrives (c : WorldClock) (deadline : Time) (n : Nat) (d : WorldClock) : Prop where
  ticks : c.ticks n = .ok d
  late : deadline ≤ d.world.time
  early : ∀ k < n, ∃ e, c.ticks k = .ok e ∧ e.world.time < deadline

/-- Every step takes time, and every wait ends. -/
structure Runs (c : WorldClock) : Prop where
  tick : c.world.time.toNat < 2 ^ 62 → ∃ d, c.tick = .ok d ∧ c.world.time < d.world.time
  wait : ∀ deadline : Time, deadline.toNat ≤ 2 ^ 62 → ∃ n d, Arrives c deadline n d ∧
    n ≤ deadline.toNat - c.world.time.toNat ∧ c.waitUntil deadline = .ok d

/-- No step takes time, and no wait for a time to come ends. -/
structure Stands (c : WorldClock) : Prop where
  ticks : ∀ n, ∃ d, c.ticks n = .ok d ∧ d.world.time = c.world.time
  wait : ∀ deadline, c.world.time < deadline → c.waitUntil deadline = .error .endless

/-! ## One step -/

theorem tick_eq_ok : c.tick = .ok d ↔ c.world.time.toNat + c.stepTime < 2 ^ 64 ∧
    d = ⟨⟨{ c.world.vehicle with
      motion := c.world.vehicle.motion.step c.world.vehicle.params c.world.vehicle.commands c.step
      time := c.world.time + Time.ofSeconds c.step },
      c.world.cell.step c.world.vehicle.commands c.step⟩, c.step⟩ := by
  have hstep : c.tick = Time.plus c.world.time (Time.ofSeconds c.step) >>= fun time =>
      .ok ⟨⟨{ c.world.vehicle with
        motion := c.world.vehicle.motion.step c.world.vehicle.params c.world.vehicle.commands c.step
        time := time }, c.world.cell.step c.world.vehicle.commands c.step⟩, c.step⟩ := by
    rw [tick, World.step, Vehicle.step, World.time]
    cases Time.plus c.world.vehicle.time (Time.ofSeconds c.step) <;> rfl
  rw [hstep, bind_eq_ok]
  constructor
  · rintro ⟨time, hplus, hd⟩
    by_cases hroom : c.world.time.toNat + c.stepTime < 2 ^ 64
    · rw [(Schedule.plus_eq_ok hroom).1] at hplus
      cases hplus
      cases hd
      exact ⟨hroom, rfl⟩
    · have hover : Time.plus c.world.time (Time.ofSeconds c.step) = .error .overflow := if_neg hroom
      rw [hover] at hplus
      cases hplus
  · rintro ⟨hroom, rfl⟩
    exact ⟨_, (Schedule.plus_eq_ok hroom).1, rfl⟩

theorem step_of_tick (h : c.tick = .ok d) : d.step = c.step := by
  rw [(tick_eq_ok.mp h).2]

theorem stepTime_of_tick (h : c.tick = .ok d) : d.stepTime = c.stepTime := by
  rw [stepTime, step_of_tick h, stepTime]

theorem time_of_tick (h : c.tick = .ok d) :
    d.world.time.toNat = c.world.time.toNat + c.stepTime := by
  obtain ⟨hroom, rfl⟩ := tick_eq_ok.mp h
  exact (Schedule.plus_eq_ok hroom).2

theorem exists_tick (h : c.world.time.toNat + c.stepTime < 2 ^ 64) : ∃ d, c.tick = .ok d :=
  ⟨_, tick_eq_ok.mpr ⟨h, rfl⟩⟩

/-! ## The grid of steps -/

/-- The world has been stepped so far with the steps of its clock only. -/
def OnGrid (c : WorldClock) : Prop := c.stepTime ∣ c.world.time.toNat

theorem OnGrid.tick (hgrid : c.OnGrid) (h : c.tick = .ok d) : d.OnGrid := by
  rw [OnGrid, stepTime_of_tick h, time_of_tick h]
  exact Nat.dvd_add hgrid dvd_rfl

theorem Reached.onGrid (h : Reached config c) : c.step = config.step ∧ c.OnGrid := by
  induction h with
  | start => exact ⟨rfl, Nat.dvd_zero _⟩
  | drive duties _ ih => exact ih
  | charge charge _ ih => exact ih
  | upright _ ih => exact ih
  | tick _ htick ih => exact ⟨(step_of_tick htick).trans ih.1, ih.2.tick htick⟩

/-- From a time that has been stepped to there is room for a step of the same length. -/
theorem OnGrid.exists_tick (hgrid : c.OnGrid) (htime : c.world.time.toNat < 2 ^ 62) :
    ∃ d, c.tick = .ok d := by
  refine WorldClock.exists_tick ?_
  have hword : c.stepTime < 2 ^ 64 := UInt64.toNat_lt _
  rcases Nat.eq_zero_or_pos c.world.time.toNat with hzero | hpos
  · omega
  · have hle : c.stepTime ≤ c.world.time.toNat := Nat.le_of_dvd hpos hgrid
    omega

/-! ## The loop of a wait -/

theorem ticks_succ (h : c.tick = .ok d) (n : Nat) : c.ticks (n + 1) = d.ticks n := by
  rw [ticks, h]
  rfl

theorem Arrives.zero (h : deadline ≤ c.world.time) : Arrives c deadline 0 c where
  ticks := rfl
  late := h
  early := fun k hk => absurd hk (Nat.not_lt_zero k)

theorem Arrives.succ {e : WorldClock} {n : Nat} (htime : c.world.time < deadline)
    (htick : c.tick = .ok d) (h : Arrives d deadline n e) : Arrives c deadline (n + 1) e where
  ticks := (ticks_succ htick n).trans h.ticks
  late := h.late
  early := by
    intro k hk
    cases k with
    | zero => exact ⟨c, rfl, htime⟩
    | succ k =>
      obtain ⟨e', he', hlt⟩ := h.early k (by omega)
      exact ⟨e', (ticks_succ htick k).trans he', hlt⟩

/-- With as many microseconds to wait there are as many steps to make, at most. -/
theorem exists_arrives (hpos : 0 < c.stepTime) (hgrid : c.OnGrid)
    (hdeadline : deadline.toNat ≤ 2 ^ 62) :
    ∃ n d, Arrives c deadline n d ∧ n ≤ deadline.toNat - c.world.time.toNat := by
  induction hleft : deadline.toNat - c.world.time.toNat using Nat.strong_induction_on
    generalizing c with
  | _ left ih =>
  by_cases htime : c.world.time < deadline
  · have hlt : c.world.time.toNat < deadline.toNat := UInt64.lt_iff_toNat_lt.mp htime
    obtain ⟨d, hd⟩ := hgrid.exists_tick (by omega)
    have hmoved := time_of_tick hd
    have hpos' : 0 < d.stepTime := by rwa [stepTime_of_tick hd]
    obtain ⟨n, e, harrives, hn⟩ := ih _ (by omega) hpos' (hgrid.tick hd) rfl
    exact ⟨n + 1, e, harrives.succ htime hd, by omega⟩
  · exact ⟨0, c, .zero (UInt64.not_lt.mp htime), Nat.zero_le _⟩

/-- The wait makes the steps of its loop, if it is given enough of them. -/
theorem moveOn_of_arrives {n steps : Nat} (h : Arrives c deadline n d) (hn : n ≤ steps) :
    moveOn deadline steps c = .ok d := by
  induction n generalizing c steps with
  | zero =>
    have hsame : c = d := Except.ok.inj h.ticks
    have hlate : ¬c.world.time < deadline := UInt64.not_lt.mpr (hsame ▸ h.late)
    rw [← hsame]
    cases steps with
    | zero => exact if_neg hlate
    | succ steps => exact if_neg hlate
  | succ n ih =>
    obtain ⟨m, rfl⟩ : ∃ m, steps = m + 1 := ⟨steps - 1, by omega⟩
    obtain ⟨c', hc', htime⟩ := h.early 0 (Nat.succ_pos n)
    cases hc'
    obtain ⟨e, he, hrest⟩ := bind_eq_ok.mp h.ticks
    have harrives : Arrives e deadline n d := by
      refine ⟨hrest, h.late, fun k hk => ?_⟩
      obtain ⟨e', he', hlt⟩ := h.early (k + 1) (by omega)
      exact ⟨e', (ticks_succ he k).symm.trans he', hlt⟩
    rw [moveOn, if_pos htime, he]
    exact ih harrives (by omega)

theorem le_toNat_since (now earlier : Time) :
    now.toNat - earlier.toNat ≤ (Time.since now earlier).toNat := by
  unfold Time.since
  split_ifs with h
  · rw [UInt64.toNat_sub_of_le _ _ h]
  · rw [UInt64.le_iff_toNat_le] at h
    omega

theorem runs_of_pos (hpos : 0 < c.stepTime) (hgrid : c.OnGrid) : Runs c where
  tick := by
    intro htime
    obtain ⟨d, hd⟩ := hgrid.exists_tick htime
    have hmoved := time_of_tick hd
    exact ⟨d, hd, UInt64.lt_iff_toNat_lt.mpr (by omega)⟩
  wait := by
    intro deadline hdeadline
    obtain ⟨n, d, harrives, hn⟩ := exists_arrives hpos hgrid hdeadline
    refine ⟨n, d, harrives, hn, moveOn_of_arrives harrives (hn.trans ?_)⟩
    exact le_toNat_since deadline c.world.time

/-! ## Steps that take no time -/

theorem exists_tick_of_zero (hzero : c.stepTime = 0) :
    ∃ d, c.tick = .ok d ∧ d.stepTime = 0 ∧ d.world.time = c.world.time := by
  have hword : c.world.time.toNat < 2 ^ 64 := UInt64.toNat_lt _
  obtain ⟨d, hd⟩ := exists_tick (c := c) (by omega)
  have hmoved := time_of_tick hd
  exact ⟨d, hd, (stepTime_of_tick hd).trans hzero, UInt64.toNat_inj.mp (by omega)⟩

theorem ticks_of_zero (hzero : c.stepTime = 0) (n : Nat) :
    ∃ d, c.ticks n = .ok d ∧ d.world.time = c.world.time := by
  induction n generalizing c with
  | zero => exact ⟨c, rfl, rfl⟩
  | succ n ih =>
    obtain ⟨e, he, hzero', hsame⟩ := exists_tick_of_zero hzero
    obtain ⟨d, hd, htime⟩ := ih hzero'
    exact ⟨d, (ticks_succ he n).trans hd, htime.trans hsame⟩

theorem moveOn_of_zero (hzero : c.stepTime = 0) (hlt : c.world.time < deadline) (steps : Nat) :
    moveOn deadline steps c = .error .endless := by
  induction steps generalizing c with
  | zero => exact if_pos hlt
  | succ steps ih =>
    obtain ⟨e, he, hzero', hsame⟩ := exists_tick_of_zero hzero
    rw [moveOn, if_pos hlt, he]
    exact ih hzero' (hsame ▸ hlt)

theorem stands_of_zero (hzero : c.stepTime = 0) : Stands c where
  ticks := ticks_of_zero hzero
  wait := fun _ hlt => moveOn_of_zero hzero hlt _

/-! ## All accepted rates -/

theorem step_of_build (h : s.build seed = .ok config) :
    Scalar.isPositive s.rate = true ∧ config.step = 1.0 / s.rate := by
  obtain ⟨_, hcheck, hassemble⟩ := bind_eq_ok.mp h
  cases hassemble
  refine ⟨?_, rfl⟩
  by_contra hrate
  unfold SimulationSettings.check at hcheck
  rw [if_neg hrate] at hcheck
  cases hcheck

/-- With up to two million steps a second all waits end, and with more of them none does. -/
theorem waits_end_iff (h : s.build seed = .ok config) (hc : Reached config c) :
    (s.rate ≤ 2000000.0 → Runs c) ∧ (¬s.rate ≤ 2000000.0 → Stands c) := by
  obtain ⟨hrate, hlength⟩ := step_of_build h
  obtain ⟨hstep, hgrid⟩ := hc.onGrid
  have htime : 0 < c.stepTime ↔ s.rate ≤ 2000000.0 := by
    rw [stepTime, hstep, hlength]
    exact Time.ofSeconds_step_pos hrate
  constructor
  · intro hslow
    exact runs_of_pos (htime.mpr hslow) hgrid
  · intro hfast
    exact stands_of_zero (Nat.eq_zero_of_not_pos (mt htime.mp hfast))

/-- The highest rate at which waits end. -/
def fastSettings : SimulationSettings where rate := 2000000.0

/-- A world of that rate that has been driven and stepped has come on by a microsecond, and goes on. -/
theorem waits_end_of_fastSettings : ∃ config d, fastSettings.build 0 = .ok config ∧
    Reached config d ∧ d.world.time = 1 ∧ Runs d := by
  have hbuild : fastSettings.build 0 = .ok (fastSettings.assemble 0) := by rfl
  obtain ⟨c, hdriven, hnow, htakes⟩ : ∃ c, Reached (fastSettings.assemble 0) c ∧
      c.world.time = 0 ∧ c.stepTime = 1 :=
    ⟨_, .drive (.fill 0.5) .start, rfl, by decide +kernel⟩
  obtain ⟨d, hd⟩ := exists_tick (c := c) (by rw [hnow, htakes]; decide)
  have hreached : Reached (fastSettings.assemble 0) d := .tick hdriven hd
  have htime : d.world.time = 1 := by
    rw [← UInt64.toNat_inj, time_of_tick hd, hnow, htakes]
    rfl
  exact ⟨_, d, hbuild, hreached, htime, (waits_end_iff hbuild hreached).1 (by decide)⟩

/-- With four million steps a second the first microsecond never comes. -/
theorem wait_without_end : ∃ config, SimulationSettings.build { rate := 4e6 } 0 = .ok config ∧
    (∀ n, ∃ d, ticks ⟨World.new config, config.step⟩ n = .ok d ∧ d.world.time < 1) ∧
    waitUntil ⟨World.new config, config.step⟩ 1 = .error .endless := by
  have hbuild : SimulationSettings.build { rate := 4e6 } 0
      = .ok (SimulationSettings.assemble { rate := 4e6 } 0) := by rfl
  have hstands : Stands ⟨World.new (SimulationSettings.assemble { rate := 4e6 } 0), 1.0 / 4e6⟩ :=
    stands_of_zero (by decide)
  refine ⟨_, hbuild, fun n => ?_, hstands.wait 1 (by decide)⟩
  obtain ⟨d, hd, htime⟩ := hstands.ticks n
  exact ⟨d, hd, by rw [htime]; decide⟩

end Quadrotor.WorldClock

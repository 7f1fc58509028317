import Quadrotor.Filter.Statistics
import Quadrotor.Flight.Counter
import Quadrotor.Time

/-!
# Schedule

Ticks start on a grid of one period. A tick that runs past the next grid point counts as an overrun,
and the schedule skips to the first grid point that is still to come. The clock is a type of its own:
it tells the time and waits.
-/

namespace Quadrotor

/-- A source of time in microseconds, with a state that reading and waiting may change. -/
class Clock (κ : Type) where
  /-- The present time. -/
  now : κ → Time × κ
  /-- Waits until a time has come; returns at once where it has passed. -/
  waitUntil : κ → Time → Checked κ

/-- A clock that stands still until it is waited for, and remembers what it was waited for. -/
structure ManualClock where
  time : Time
  /-- The times that were waited for, in order. -/
  waits : List Time := []
  deriving DecidableEq, Repr, Inhabited

instance : Clock ManualClock where
  now c := (c.time, c)
  waitUntil c deadline := .ok ⟨max c.time deadline, c.waits ++ [deadline]⟩

/-- When a tick starts. -/
structure TickTiming where
  /-- Start of the tick [µs]. -/
  start : Time
  /-- The tick before ran past its period. -/
  overran : Bool
  deriving DecidableEq, Repr, Inhabited

/-- A tick that came too late. -/
structure Overrun where
  /-- Time past the deadline [µs]. -/
  lateness : Time
  /-- Periods to be skipped. -/
  missed : Time
  deriving DecidableEq, Repr, Inhabited

/-- The schedule between ticks. -/
structure Schedule where
  /-- Tick period [µs], at least one. -/
  period : Time
  /-- The end of the present tick [µs], once there is one. -/
  deadline : Option Time := none
  /-- The start of the present tick [µs]. -/
  start : Time := 0
  /-- Ticks that came too late, as far as they can be counted. -/
  overruns : UInt32 := 0
  /-- Time spent in a tick [µs]. -/
  execution : Statistics := .new 0.01
  deriving Repr, Inhabited

namespace Schedule

/-- No ticks so far. -/
def new (period : UInt32) : Schedule := { period := if period = 0 then 1 else period.toUInt64 }

/-- How late `now` is for a deadline, if it is. -/
def overrun? (s : Schedule) (deadline now : Time) : Checked (Option Overrun) :=
  if deadline < now then do
    return some ⟨now - deadline, ← Time.plus ((now - deadline) / s.period) 1⟩
  else .ok none

/-- The start of the tick after a deadline. -/
def startAfter (s : Schedule) (deadline : Time) : Option Overrun → Checked Time
  | none => .ok deadline
  | some late => do Time.plus deadline (← Time.times late.missed s.period)

/-- The first tick starts at once. -/
def first (s : Schedule) (now : Time) : Checked (Schedule × TickTiming) := do
  return ({ s with deadline := some (← Time.plus now s.period), start := now }, ⟨now, false⟩)

/-- The schedule once the tick that follows `deadline` starts, `late` if the one before ran over. -/
def next (s : Schedule) (now deadline : Time) (late : Option Overrun) :
    Checked (Schedule × TickTiming) := do
  let spent := Time.since now s.start
  let start ← s.startAfter deadline late
  return ({ s with
    deadline := some (← Time.plus start s.period)
    start := start
    overruns := if late.isSome then Counter.up s.overruns else s.overruns
    execution := s.execution.add spent.toFloat32 }, ⟨start, late.isSome⟩)

/-- Waits for the next tick: the schedule, the tick, and how late the one before was. -/
def waitNext {κ : Type} [Clock κ] (s : Schedule) (clock : κ) :
    Checked (κ × Schedule × TickTiming × Option Overrun) := do
  let (now, clock) := Clock.now clock
  match s.deadline with
  | none =>
    let (s, timing) ← s.first now
    return (clock, s, timing, none)
  | some deadline =>
    let late ← s.overrun? deadline now
    let clock ← Clock.waitUntil clock (← s.startAfter deadline late)
    let (s, timing) ← s.next now deadline late
    return (clock, s, timing, late)

end Schedule

end Quadrotor

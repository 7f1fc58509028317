import Quadrotor.Radio.Channels
import Quadrotor.Scalar.Exact

/-!
# Scripted pilot

What the radio hands over in a simulated flight. All scripts but one take off, hover and land on a
fixed timetable; the last one enters stick gestures without flying.
-/

namespace Quadrotor

/-- What a pilot is up to. -/
inductive Script where
  /-- Take off, hover and land. -/
  | hover
  /-- Turn over once in the air. -/
  | flip
  /-- Lose the radio link in the air. -/
  | linkLoss
  /-- Empty the battery in the air. -/
  | lvc
  /-- Raise a gain and save it, on the ground. -/
  | tune
  deriving DecidableEq, Repr, Inhabited

namespace Script

/-- All scripts. -/
def all : List Script := [hover, flip, linkLoss, lvc, tune]

/-- The name of a script. -/
def text : Script → String
  | hover => "hover"
  | flip => "flip"
  | linkLoss => "link-loss"
  | lvc => "lvc"
  | tune => "tune"

/-- The script of a name. -/
def ofText? (name : String) : Option Script := all.find? fun s => s.text == name

end Script

/-- A pilot with a script. -/
structure Pilot where
  script : Script
  /-- Length of the flight [s]. -/
  duration : Scalar
  deriving Repr, Inhabited

namespace Pilot

/-- The channel of the arm switch. -/
def armChannel : Nat := 0

/-- The channel of the leveling switch. -/
def levelChannel : Nat := 1

/-- The throttle in the air. -/
def hoverThrottle : Scalar := 0.65

/-- The time [s] at which the battery is emptied, if it is. -/
def drainTime (p : Pilot) : Option Scalar := if p.script = .lvc then some 2.0 else none

/-- The frame at a time [s] of a flight. -/
def fly (p : Pilot) (t : Scalar) : RadioFrame :=
  let landing := p.duration - 1.0 < t
  let armed := Scalar.within 0.5 (p.duration - 0.5) t
  let flipping := p.script = .flip && Scalar.within 2.0 2.5 t
  let sticks : Channels :=
    { roll := if flipping then 1.0 else 0.0
      throttle := if t < 0.7 ∨ landing then 0.0 else hoverThrottle }
  { channels := (sticks.withAux armChannel armed).withAux levelChannel !flipping
    linkOk := !(p.script = .linkLoss && decide (2.0 ≤ t)) }

/-- The deflections of roll and pitch, in order: up, down, right raises a gain, and three times down
saves it. -/
def gestures : List (Scalar × Scalar) :=
  [(0.0, 1.0), (0.0, -1.0), (1.0, 0.0), (0.0, -1.0), (0.0, -1.0), (0.0, -1.0)]

/-- The time [s] for each deflection, half of it centred and half of it deflected. -/
def gestureTime : Scalar := 0.2

/-- Roll and pitch at a time [s] of entering gestures. -/
def gestureSticks (t : Scalar) : Scalar × Scalar :=
  match gestures[(t / gestureTime).toWord.toNat]? with
  | some sticks => if 0.1 ≤ Scalar.remainder t gestureTime then sticks else (0.0, 0.0)
  | none => (0.0, 0.0)

/-- The frame at a time [s] of entering gestures. -/
def enter (t : Scalar) : RadioFrame :=
  let (roll, pitch) := gestureSticks t
  let sticks : Channels := { roll := roll, pitch := pitch }
  { channels := sticks.withAux levelChannel true, linkOk := true }

/-- The frame at a time [s]. -/
def frame (p : Pilot) (t : Scalar) : RadioFrame :=
  if p.script = .tune then enter t else p.fly t

end Pilot

end Quadrotor

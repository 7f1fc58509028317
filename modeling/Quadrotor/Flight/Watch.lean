import Quadrotor.Scalar

/-!
# Watch

A cell that holds the latest of a stream of messages. Each reader remembers the number of the message
it saw last, and so learns of every message at most once, and of the latest one for certain. Message
numbers are 64-bit words and wrap around.
-/

namespace Quadrotor

/-- The latest message and its number. -/
structure Watch (α : Type) where
  value : Option α := none
  number : UInt64 := 0
  deriving Repr, Inhabited

namespace Watch

variable {α : Type}

/-- A new message. -/
def send (w : Watch α) (v : α) : Watch α := ⟨some v, w.number + 1⟩

/-- A new message made from the latest one; nothing happens before the first. -/
def modify (w : Watch α) (f : α → α) : Watch α :=
  match w.value with
  | some v => ⟨some (f v), w.number + 1⟩
  | none => w

/-- A reader: the number of the message that it saw last, zero for none. -/
structure Reader where
  seen : UInt64 := 0
  deriving DecidableEq, Repr, Inhabited

/-- The latest message, seen before or not. -/
def get (w : Watch α) (r : Reader) : Reader × Option α :=
  match w.value with
  | some v => (⟨w.number⟩, some v)
  | none => (r, none)

/-- The latest message, unless the reader has seen it. -/
def changed (w : Watch α) (r : Reader) : Reader × Option α :=
  if w.number = r.seen then (r, none) else w.get r

end Watch

end Quadrotor

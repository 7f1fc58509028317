import Quadrotor.Axes

/-!
# Radio channels

What the receiver hands over: four sticks and eight auxiliary channels. Sticks lie in `[-1, 1]`, the
throttle in `[0, 1]`, and an auxiliary channel is on when it is positive. Positive sticks command
roll to the right, nose down, and counter-clockwise yaw seen from above.

Values off the air may be anything. `Channels.sanitized` brings them into range, and only such
channels reach the rest of the flight core.
-/

namespace Quadrotor

/-- One frame of channel values. -/
structure Channels where
  roll : Scalar := 0.0
  pitch : Scalar := 0.0
  yaw : Scalar := 0.0
  throttle : Scalar := 0.0
  /-- The auxiliary channels. -/
  aux : Vector Scalar 8 := Vector.replicate 8 0.0
  deriving BEq, Repr, Inhabited

namespace Channels

/-- The frame with the given channel values, in the order roll, pitch, yaw, throttle and auxiliary;
channels beyond the last value are zero. -/
def ofList (values : List Scalar) : Channels :=
  let at' (i : Nat) : Scalar := values.getD i 0.0
  ⟨at' 0, at' 1, at' 2, at' 3, Vector.ofFn fun i => at' (4 + i.val)⟩

/-- All channel values in order. -/
def toList (c : Channels) : List Scalar := [c.roll, c.pitch, c.yaw, c.throttle] ++ c.aux.toList

/-- The three sticks that command rotations. -/
def sticks (c : Channels) : Triple Scalar := ⟨c.roll, c.pitch, c.yaw⟩

/-- Switch auxiliary channel `index`, counted from zero; a channel that does not exist is left
alone. -/
def withAux (c : Channels) (index : Nat) (on : Bool) : Channels :=
  { c with aux := c.aux.setIfInBounds index (if on then 1.0 else -1.0) }

/-- `withAux` for a number that is a word. The place of the channel among all channels has to be a word
as well. -/
def switchAux (c : Channels) (index : UInt64) (on : Bool) : Checked Channels :=
  if 4 + index.toNat < UInt64.size then .ok (c.withAux index.toNat on) else .error .overflow

/-- Auxiliary channel `index` is on; one that does not exist is off. -/
def auxOn (c : Channels) (index : Nat) : Bool :=
  match c.aux[index]? with
  | some v => decide (0.0 < v)
  | none => false

/-- Every channel within its range, and zero in place of whatever is not a finite number. -/
def sanitized (c : Channels) : Channels where
  roll := Scalar.limitOrZero (-1.0) 1.0 c.roll
  pitch := Scalar.limitOrZero (-1.0) 1.0 c.pitch
  yaw := Scalar.limitOrZero (-1.0) 1.0 c.yaw
  throttle := Scalar.limitOrZero 0.0 1.0 c.throttle
  aux := c.aux.map (Scalar.limitOrZero (-1.0) 1.0)

end Channels

/-- A radio frame and the health of the link that brought it. -/
structure RadioFrame where
  channels : Channels := {}
  linkOk : Bool := false
  deriving BEq, Repr, Inhabited

end Quadrotor

/-!
# Scalars

Every physical quantity of the flight core is an IEEE binary32 number, and each operation rounds on
its own. This module holds the elementary rules that the rest of the library is written in: how a
value is limited to a range, how a NaN operand is treated, and how a stick is freed of its centre
noise.

Two rules about NaN recur. `limit` keeps it, because both of its comparisons fail; `maxNum` and
`minNum` drop it in favour of the other operand.
-/

namespace Quadrotor

/-- A binary32 quantity. -/
abbrev Scalar := Float32

/-- The reasons for which a step of the program is aborted rather than answered. -/
inductive Trap where
  /-- A value was to be limited to a range whose bounds are reversed or not numbers. -/
  | invalidBounds
  /-- A remainder by zero was asked for. -/
  | zeroDivisor
  /-- An integer left the range of its width. -/
  | overflow
  /-- A wait would never end. -/
  | endless
  deriving DecidableEq, Repr, Inhabited

/-- A computation that answers or is aborted. -/
abbrev Checked (α : Type) := Except Trap α

namespace Scalar

/-! ## Constants -/

/-- The circle constant. -/
def pi : Scalar := 3.14159265358979

/-- One degree in radians. -/
def degree : Scalar := pi / 180.0

/-- Standard gravity [m/s²]. -/
def gravity : Scalar := 9.81

/-- Not a number. -/
def nan : Scalar := 0.0 / 0.0

/-- Positive infinity. -/
def infinity : Scalar := 1.0 / 0.0

/-- The largest finite value. -/
def largest : Scalar := Float32.ofBits 0x7f7fffff

/-- The distance from one to the next larger value. -/
def epsilon : Scalar := Float32.ofBits 0x34000000

/-! ## Ranges -/

/-- The value of `[lo, hi]` nearest to `x`; a NaN stays as it is. Meant for `lo ≤ hi`. -/
def limit (lo hi x : Scalar) : Scalar :=
  if x < lo then lo else if hi < x then hi else x

/-- The bounds of a range are ordered numbers. -/
class IsRange (lo hi : Scalar) : Prop where
  ordered : lo ≤ hi

instance unitRange : IsRange 0.0 1.0 := ⟨by decide⟩

instance signedRange : IsRange (-1.0) 1.0 := ⟨by decide⟩

/-- `limit` to what is known to be a range. -/
def confine (lo hi : Scalar) [IsRange lo hi] (x : Scalar) : Scalar := limit lo hi x

/-- `limit`, aborting unless the bounds are ordered numbers. -/
def clamp (lo hi x : Scalar) : Checked Scalar :=
  if lo ≤ hi then .ok (limit lo hi x) else .error .invalidBounds

/-- The larger operand, or the other one where one is a NaN. -/
def maxNum (a b : Scalar) : Scalar :=
  if a.isNaN then b else if a < b then b else a

/-- The smaller operand, or the other one where one is a NaN. -/
def minNum (a b : Scalar) : Scalar :=
  if a.isNaN then b else if b < a then b else a

/-- `x`, or zero where `x` is infinite or a NaN. -/
def orZero (x : Scalar) : Scalar := if x.isFinite then x else 0.0

/-- `x` confined to `[lo, hi]`, or zero where `x` is infinite or a NaN. -/
def limitOrZero (lo hi : Scalar) [IsRange lo hi] (x : Scalar) : Scalar :=
  if x.isFinite then confine lo hi x else 0.0

/-- Finite and above zero. -/
def isPositive (x : Scalar) : Bool := x.isFinite && decide (0.0 < x)

/-- Finite and not below zero. -/
def isNonneg (x : Scalar) : Bool := x.isFinite && decide (0.0 ≤ x)

/-- Within `[lo, hi)`; no NaN is. -/
def within (lo hi x : Scalar) : Bool := decide (lo ≤ x) && decide (x < hi)

/-- Within `[0, 1]`; no NaN is. -/
def inUnit (x : Scalar) : Bool := decide (0.0 ≤ x) && decide (x ≤ 1.0)

/-! ## Shapes -/

/-- One with the sign of `x`, the sign of a zero included; a NaN stays as it is. -/
def signum (x : Scalar) : Scalar :=
  if x.isNaN then x else if x.toBits < 0x80000000 then 1.0 else -1.0

/-- Zero within `±width`, and the rest stretched so that full deflection remains full. -/
def deadband (width x : Scalar) : Scalar :=
  if width ≤ 0.0 then x
  else if x.abs ≤ width then 0.0
  else x.signum * (x.abs - width) / (1.0 - width)

/-- The image of `x` under the line through `(inMin, outMin)` and `(inMax, outMax)`. -/
def linearMap (inMin inMax outMin outMax x : Scalar) : Scalar :=
  ((x - inMin) / (inMax - inMin)) * (outMax - outMin) + outMin

/-- `linearMap`, held within the output range whichever of its ends is the larger one. The result is
a number even where the line is not. -/
def linearMapWithin (inMin inMax outMin outMax x : Scalar) : Scalar :=
  let lo := if outMin < outMax then outMin else outMax
  let hi := if outMin < outMax then outMax else outMin
  minNum (maxNum (linearMap inMin inMax outMin outMax x) lo) hi

/-- The fifth power, by squaring twice. -/
def pow5 (x : Scalar) : Scalar :=
  let square := x * x
  x * (square * square)

/-- The sum of a list from the left. -/
def sum (xs : List Scalar) : Scalar := xs.foldl (· + ·) 0.0

end Scalar

end Quadrotor

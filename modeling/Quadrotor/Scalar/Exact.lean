import Quadrotor.Scalar

/-!
# Exact values and rounding

A finite scalar is exactly `± significand · 2 ^ exponent`. This module takes a scalar apart in that
way and goes back: `nearest` is the scalar closest to a ratio of natural numbers, ties to the even
significand. Remainder, rounding to whole numbers and the circular functions are computed on the
exact values and rounded once at the end, so each of them is a number wherever its formula is.
-/

namespace Quadrotor.Scalar

/-- The biased exponent field. -/
def exponentField (x : Scalar) : Nat := (x.toBits >>> 23).toNat % 256

/-- One more than the largest fraction field: the weight of the hidden leading bit. -/
def hiddenBit : Nat := 0x800000

/-- The fraction field. -/
def fractionField (x : Scalar) : Nat := x.toBits.toNat % hiddenBit

/-- The sign bit is set. -/
def isNegative (x : Scalar) : Bool := decide (0x80000000 ≤ x.toBits)

/-- The integer `m` of `|x| = m · 2 ^ exponent x`, for a finite `x`. -/
def significand (x : Scalar) : Nat :=
  if x.exponentField = 0 then x.fractionField else x.fractionField + hiddenBit

/-- The integer `e` of `|x| = significand x · 2 ^ e`, for a finite `x`. -/
def exponent (x : Scalar) : Int :=
  if x.exponentField = 0 then -149 else (x.exponentField : Int) - 150

/-- The bits of the non-negative scalar `bits` with the given sign. -/
def withSign (negative : Bool) (bits : Nat) : Scalar :=
  Float32.ofBits (bits + if negative then 0x80000000 else 0).toUInt32

/-- `num / den` as a whole number, ties to the even neighbour. -/
def roundDivEven (num den : Nat) : Nat :=
  let q := num / den
  let twice := 2 * (num % den)
  if twice < den then q else if den < twice then q + 1 else q + q % 2

/-- The exponent of the last place of a scalar near `num / den`: the value has at most 24 binary
digits above it, and none below `2 ^ (-149)` exists. -/
def lastPlace (num den : Nat) : Int :=
  let e : Int := (num.log2 : Int) - den.log2
  let below : Bool := if 0 ≤ e then num < den <<< e.toNat else num <<< (-e).toNat < den
  max ((if below then e - 1 else e) - 23) (-149)

/-- The encoding of `num / den · 2 ^ shift`, rounded to nearest, ties to even; infinity beyond the
largest finite value. A carry out of the significand moves into the exponent field by itself, since
the fields are adjacent. -/
def nearestBits (num den : Nat) (shift : Int) : Nat :=
  let num := if 0 ≤ shift then num <<< shift.toNat else num
  let den := if 0 ≤ shift then den else den <<< (-shift).toNat
  if num = 0 then 0
  else
    let q := lastPlace num den
    let m := if 0 ≤ q then roundDivEven num (den <<< q.toNat)
      else roundDivEven (num <<< (-q).toNat) den
    min ((q + 149).toNat * hiddenBit + m) 0x7f800000

/-- The scalar nearest to `± num / den · 2 ^ shift`. -/
def nearest (negative : Bool) (num den : Nat) (shift : Int) : Scalar :=
  withSign negative (nearestBits num den shift)

/-! ## Whole numbers -/

/-- The whole part of `|x|`, for a finite `x`. -/
def wholePart (x : Scalar) : Nat :=
  if 0 ≤ x.exponent then x.significand <<< x.exponent.toNat
  else x.significand >>> (-x.exponent).toNat

/-- The nearest whole number, a half going away from zero. -/
def round (x : Scalar) : Scalar :=
  if !x.isFinite || decide (0 ≤ x.exponent) then x
  else
    let half := 1 <<< ((-x.exponent).toNat - 1)
    nearest x.isNegative ((x.significand + half) >>> (-x.exponent).toNat) 1 0

/-- The remainder of `x` by `y` that has the sign of `x`; exact, and a NaN for a zero `y` or an
infinite `x`. -/
def remainder (x y : Scalar) : Scalar :=
  if x.isNaN || y.isNaN || x.isInf || y.significand = 0 then nan
  else if y.isInf then x
  else
    let e := min x.exponent y.exponent
    let a := x.significand <<< (x.exponent - e).toNat
    let b := y.significand <<< (y.exponent - e).toNat
    nearest x.isNegative (a % b) 1 e

/-- The natural number below `2 ^ bits` nearest to the whole part of `x`; zero for a negative value
and for a NaN. -/
def toNatWithin (bits : Nat) (x : Scalar) : Nat :=
  if x.isNaN || x.isNegative then 0
  else if x.isInf then (1 <<< bits) - 1
  else min x.wholePart ((1 <<< bits) - 1)

/-- The whole part of `x` as an unsigned word, saturating; zero for a NaN. -/
def toWord (x : Scalar) : UInt64 := (x.toNatWithin 64).toUInt64

end Quadrotor.Scalar

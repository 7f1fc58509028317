import Quadrotor.Scalar.Exact

/-!
# Circular functions

Sine, cosine, and the inverse tangent and sine of a scalar, each computed on integers and rounded
once by `Scalar.nearest`. An argument is an exact dyadic number, so the reduction by multiples of a
right angle loses nothing but the last bits of `π`, of which 256 are kept; the series then run in
fixed point with as many places as a small argument needs to keep 64 significant bits.

The results are numbers wherever the functions are defined: a NaN comes out only for a NaN, for the
sine and cosine of an infinity, and for the inverse sine of a magnitude above one.
-/

namespace Quadrotor.Scalar.Circular

/-- `π · 2 ^ 256`, truncated. -/
def piScaled : Nat :=
  0x3243f6a8885a308d313198a2e03707344a4093822299f31d0082efa98ec4e6c89

/-- Places of `piScaled` after the binary point. -/
def piPlaces : Nat := 256

/-- `|x| · 2 ^ 256`, truncated. -/
def scaled (x : Scalar) : Nat :=
  let shift := x.exponent + piPlaces
  if 0 ≤ shift then x.significand <<< shift.toNat else x.significand >>> (-shift).toNat

/-! ## Series on `[0, π/2]`

An angle and its functions are natural numbers that count units of `2 ^ (-places)`. The factors of a
series are nested, so each is subtracted from one and none of them leaves `[0, 1]`. -/

/-- `1 - s / (k (k+1)) · (1 - s / ((k+2) (k+3)) · …)` with `terms` factors, for the square `s`. -/
def alternating (places square : Nat) : Nat → Nat → Nat
  | 0, _ => 1 <<< places
  | terms + 1, k =>
    (1 <<< places) - ((square * alternating places square terms (k + 2)) >>> places) / (k * (k + 1))

/-- The sine of `angle`. -/
def sineSeries (places angle : Nat) : Nat :=
  (angle * alternating places ((angle * angle) >>> places) 14 2) >>> places

/-- The cosine of `angle`. -/
def cosineSeries (places angle : Nat) : Nat :=
  alternating places ((angle * angle) >>> places) 15 1

/-- Places that leave `angle`, which counts units of `2 ^ (-256)`, some 80 significant bits. -/
def placesFor (angle : Nat) : Nat := min piPlaces (80 + (piPlaces - angle.log2))

/-- The sine of a number of quarter turns and a rest, which counts units of `2 ^ (-256)`. After an odd
number of quarter turns it is the cosine of the rest, and after a half turn negative. -/
def sineOfTurns (turns rest : Nat) (negative : Bool) : Scalar :=
  let places := placesFor rest
  let angle := rest >>> (piPlaces - places)
  let value := if turns % 2 = 0 then sineSeries places angle else cosineSeries places angle
  nearest (negative != decide (2 ≤ turns % 4)) value 1 (-places)

/-- A right angle, in units of `2 ^ (-256)`. -/
def rightAngle : Nat := piScaled / 2

/-! ## Inverse tangent -/

/-- `1/k - s · (1/(k+2) - s · …)` with `terms` terms, for the square `s`. -/
def arctangentFactors (places square : Nat) : Nat → Nat → Nat
  | 0, _ => 0
  | terms + 1, k =>
    (1 <<< places) / k - (square * arctangentFactors places square terms (k + 2)) >>> places

/-- The angle whose tangent is `t ≤ 1/8`. -/
def arctangentSeries (places t : Nat) : Nat :=
  (t * arctangentFactors places ((t * t) >>> places) 14 1) >>> places

/-- The angles whose tangents are one to four quarters, in units of `2 ^ (-96)`. -/
def arctangentOfQuarters : Nat → Nat
  | 1 => 0x3eb6ebf25901bac55b71e7bd
  | 2 => 0x76b19c1586ed3da2b7f222f6
  | 3 => 0xa4bc7d1934f7092419a87f2a
  | _ => 0xc90fdaa22168c234c4c6628c

/-- The angle with tangent `num / den ≤ 1`: value and places. Near zero the series is used as it is,
with places to spare; otherwise the angle of the nearest quarter is split off, by the rule for the
tangent of a difference. -/
def arctangent (num den : Nat) : Nat × Nat :=
  let quarters := (8 * num + den) / (2 * den)
  if quarters = 0 then
    let places := 80 + (den.log2 - num.log2)
    (arctangentSeries places ((num <<< places) / den), places)
  else
    let above := 4 * num - quarters * den
    let under := quarters * den - 4 * num
    let divisor := 4 * den + quarters * num
    let base := arctangentOfQuarters quarters
    if above = 0 then (base - arctangentSeries 96 ((under <<< 96) / divisor), 96)
    else (base + arctangentSeries 96 ((above <<< 96) / divisor), 96)

/-- The angle of the point `(x, y)` of the first quadrant, not the origin, from the `x` axis. -/
def firstQuadrant (x y : Nat) : Nat × Nat :=
  if y ≤ x then arctangent y x
  else
    let (angle, places) := arctangent x y
    let places' := min places piPlaces
    (rightAngle >>> (piPlaces - places') - angle >>> (places - places'), places')

end Circular

open Circular

/-- The sine of an angle in radians. -/
def sin (x : Scalar) : Scalar :=
  if x.isFinite then
    let angle := scaled x
    sineOfTurns (angle / rightAngle) (angle % rightAngle) x.isNegative
  else nan

/-- The cosine of an angle in radians: the sine a quarter turn further on. -/
def cos (x : Scalar) : Scalar :=
  if x.isFinite then
    let angle := scaled x
    sineOfTurns (angle / rightAngle + 1) (angle % rightAngle) false
  else nan

/-- Quarter multiples of the circle constant, as scalars. -/
def quartersOfPi (negative : Bool) (k : Nat) : Scalar := nearest negative (k * piScaled) 4 (-piPlaces)

/-- The angle of the point `(x, y)` from the `x` axis, in `[-π, π]`. Zeros and infinities stand for
the directions that they are limits of, their signs included. -/
def atan2 (y x : Scalar) : Scalar :=
  if x.isNaN || y.isNaN then nan
  else
    let below := y.isNegative
    let behind := x.isNegative
    if y.isInf then quartersOfPi below (if x.isInf then (if behind then 3 else 1) else 2)
    else if y.significand = 0 || x.isInf then quartersOfPi below (if behind then 4 else 0)
    else if x.significand = 0 then quartersOfPi below 2
    else
      let e := min x.exponent y.exponent
      let a := x.significand <<< (x.exponent - e).toNat
      let b := y.significand <<< (y.exponent - e).toNat
      let (angle, places) := firstQuadrant a b
      if behind then
        let places' := min places piPlaces
        nearest below (piScaled >>> (piPlaces - places') - angle >>> (places - places')) 1 (-places')
      else nearest below angle 1 (-places)

/-- The angle in `[-π/2, π/2]` with sine `x`; a NaN beyond `±1`. -/
def asin (x : Scalar) : Scalar :=
  if x.isNaN || decide (1.0 < x.abs) then nan
  else atan2 x ((1.0 - x) * (1.0 + x)).sqrt

end Quadrotor.Scalar

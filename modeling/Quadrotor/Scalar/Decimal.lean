import Quadrotor.Scalar.Exact

/-!
# Decimal text of scalars

`shortest` gives the fewest decimal digits that read back as the same scalar, and of those the
digits nearest to it. Three ways of writing build on it and on `roundDivEven`: `plain` never uses an
exponent, `literal` marks a value as a fraction and takes an exponent for very large and very small
magnitudes, and `fixed` has a given number of places. `ofText?` reads a decimal text back, as the
scalar nearest to it.
-/

namespace Quadrotor.Scalar

/-- The power of ten with `n` zeros. -/
def tens (n : Nat) : Nat := Nat.pow 10 n

/-! ## Fewest digits -/

/-- The interval of real numbers that read as a given scalar, in quarters of its last place. -/
structure Preimage where
  /-- The scalar itself. -/
  value : Nat
  /-- The lower end. -/
  low : Nat
  /-- The upper end. -/
  high : Nat
  /-- The ends belong to the interval. -/
  closed : Bool
  /-- The exponent of two of a quarter of the last place. -/
  place : Int

/-- The numbers that read as `|x|`. Below a power of two the neighbours are half as far away, and
the ends are ties, which go to an even significand. -/
def preimage (x : Scalar) : Preimage :=
  let m := x.significand
  { value := 4 * m
    low := 4 * m - if x.fractionField = 0 && decide (1 < x.exponentField) then 1 else 2
    high := 4 * m + 2
    closed := m % 2 = 0
    place := x.exponent - 2 }

/-- The multiple `k · 10 ^ p` nearest to the scalar among those that read as it, if there is one. A
tie goes to the larger. -/
def Preimage.multiple? (i : Preimage) (p : Int) : Option Nat :=
  let scale := tens (-p).toNat <<< i.place.toNat
  let step := tens p.toNat <<< (-i.place).toNat
  let inside (k : Nat) : Bool :=
    if i.closed then decide (i.low * scale ≤ k * step) && decide (k * step ≤ i.high * scale)
    else decide (i.low * scale < k * step) && decide (k * step < i.high * scale)
  let k := i.value * scale / step
  match inside k, inside (k + 1) with
  | true, true => some (if 2 * (i.value * scale % step) < step then k else k + 1)
  | true, false => some k
  | false, true => some (k + 1)
  | false, false => none

/-- The exponents of ten worth trying, coarsest first. -/
def decimalPlaces : List Int := (List.range 90).map fun (i : Nat) => 39 - (i : Int)

/-- The fewest digits that read back as `|x|`, and the exponent of ten of the last of them. -/
def shortest (x : Scalar) : Nat × Int :=
  let i := x.preimage
  (decimalPlaces.findSome? fun p => (i.multiple? p).map fun k => (k, p)).getD (0, 0)

/-! ## Writing -/

/-- A minus sign before the text of a negative value, a negative zero included. -/
def signed (x : Scalar) (magnitude : String) : String :=
  if x.isNegative then "-" ++ magnitude else magnitude

/-- The text of a value that is not finite. -/
def special (x : Scalar) : String := if x.isNaN then "NaN" else x.signed "inf"

/-- `digits · 10 ^ (-places)` with a point before the last `places` digits. -/
def pointed (digits places : Nat) : String :=
  if places = 0 then toString digits
  else
    let fraction := toString (digits % tens places)
    toString (digits / tens places) ++ "." ++
      String.ofList (List.replicate (places - fraction.length) '0') ++ fraction

/-- The fewest digits that read back, without an exponent. -/
def plain (x : Scalar) : String :=
  if x.isFinite then
    if x.significand = 0 then x.signed "0"
    else
      let (digits, p) := x.shortest
      x.signed (if 0 ≤ p then toString (digits * tens p.toNat) else pointed digits (-p).toNat)
  else x.special

/-- The fewest digits that read back, as one digit, a fraction and an exponent. -/
def exponential (x : Scalar) : String :=
  let (digits, p) := x.shortest
  let count := (toString digits).length - 1
  x.signed (pointed digits count ++ "e" ++ toString (p + count))

/-- The text of a value in a listing: always recognisable as a fraction, and with an exponent from
`10 ^ 16` up and below `10 ^ (-4)`. -/
def literal (x : Scalar) : String :=
  if x.isFinite then
    if x.significand ≠ 0 && (decide ((1.0e16 : Scalar) ≤ x.abs) || decide (x.abs < 1.0e-4)) then
      x.exponential
    else
      let text := x.plain
      if text.contains '.' then text else text ++ ".0"
  else x.special

/-- `x` with the given number of places, ties going to the even digit. -/
def fixed (places : Nat) (x : Scalar) : String :=
  if x.isFinite then
    let num := x.significand * tens places
    let digits := if 0 ≤ x.exponent then num <<< x.exponent.toNat
      else roundDivEven num (1 <<< (-x.exponent).toNat)
    x.signed (pointed digits places)
  else x.special

/-! ## Reading -/

/-- The number that a run of decimal digits stands for. -/
def numeral (digits : List Char) : Nat :=
  digits.foldl (fun n c => 10 * n + (c.toNat - '0'.toNat)) 0

/-- The sign and the rest of a text that may begin with one. -/
def splitSign : List Char → Bool × List Char
  | '-' :: cs => (true, cs)
  | '+' :: cs => (false, cs)
  | cs => (false, cs)

/-- The number of a text that is all digits and not empty. -/
def numeral? (digits : List Char) : Option Nat :=
  if !digits.isEmpty && digits.all Char.isDigit then some (numeral digits) else none

/-- The exponent of ten that follows a number: an `e` and a whole number, or nothing. -/
def exponentOf? : List Char → Option Int
  | [] => some 0
  | _ :: cs =>
    let (negative, digits) := splitSign cs
    (numeral? digits).map fun n => if negative then -(n : Int) else n

/-- The scalar nearest to `± digits · 10 ^ power`. Powers that are out of reach of any scalar count as
ones that are just out of reach. -/
def ofDigits (negative : Bool) (digits : List Char) (power : Int) : Scalar :=
  let p := max (-(100 + (digits.length : Int))) (min 100 power)
  nearest negative (numeral digits * tens p.toNat) (tens (-p).toNat) 0

/-- The scalar of a decimal text: an optional sign, digits with a point somewhere among them, and an
optional exponent; or the name of an infinity or of a NaN, in small or large letters. -/
def ofText? (text : String) : Option Scalar := do
  let (negative, cs) := splitSign text.toList
  match String.ofList (cs.map Char.toLower) with
  | "inf" | "infinity" => return if negative then -infinity else infinity
  | "nan" => return nan
  | _ =>
    let mark (c : Char) : Bool := c == 'e' || c == 'E'
    let mantissa := cs.takeWhile fun c => !mark c
    let whole := mantissa.takeWhile (· != '.')
    let fraction := (mantissa.dropWhile (· != '.')).drop 1
    let power ← exponentOf? (cs.dropWhile fun c => !mark c)
    let _ ← numeral? (whole ++ fraction)
    return ofDigits negative (whole ++ fraction) (power - fraction.length)

end Quadrotor.Scalar

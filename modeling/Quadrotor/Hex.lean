/-!
# Hexadecimal text

Words and bytes as hexadecimal digits. Words are written with a fixed number of digits, and bytes with
two each; digits are read in small and in large letters.
-/

namespace Quadrotor.Hex

/-- The value of a digit, in bases up to sixteen. -/
def digitValue? (c : Char) : Option Nat :=
  if c.isDigit then some (c.toNat - '0'.toNat)
  else if 'a' ≤ c ∧ c ≤ 'f' then some (c.toNat - 'a'.toNat + 10)
  else if 'A' ≤ c ∧ c ≤ 'F' then some (c.toNat - 'A'.toNat + 10)
  else none

/-- A number with at least so many digits. -/
def ofNat (width n : Nat) : String := String.ofList ((Nat.toDigits 16 n).leftpad width '0')

/-- The bytes in order. -/
def ofBytes (bytes : List UInt8) : String :=
  String.join (bytes.map fun b => ofNat 2 b.toNat)

/-- The bytes that pairs of digits stand for. -/
def toBytes? : List Char → Option (List UInt8)
  | [] => some []
  | [_] => none
  | a :: b :: cs => do
    return (16 * (← digitValue? a) + (← digitValue? b)).toUInt8 :: (← toBytes? cs)

end Quadrotor.Hex

/-!
# Checksum

An eight-bit cyclic redundancy check with the polynomial `x⁸ + x⁷ + x⁶ + x⁴ + x² + 1`, the most
significant bit first, starting from zero. A table holds the remainder of every byte, so a message
costs one look-up a byte.
-/

namespace Quadrotor.Checksum

/-- The polynomial without its leading term. -/
def polynomial : UInt8 := 0xd5

/-- The remainder after one more zero bit. -/
def shift (r : UInt8) : UInt8 :=
  if r &&& 0x80 = 0 then r <<< 1 else (r <<< 1) ^^^ polynomial

/-- The remainder after so many more zero bits. -/
def shifts : Nat → UInt8 → UInt8
  | 0, r => r
  | n + 1, r => shifts n (shift r)

/-- The remainder of every byte followed by eight zero bits. -/
def table : Vector UInt8 256 := Vector.ofFn fun i => shifts 8 (UInt8.ofNat i.val)

/-- The digest after one more byte. -/
def step (digest byte : UInt8) : UInt8 := table.get ⟨(digest ^^^ byte).toNat, UInt8.toNat_lt _⟩

/-- The digest after more bytes. -/
def extend (digest : UInt8) (bytes : List UInt8) : UInt8 := bytes.foldl step digest

/-- The digest of a message. -/
def digest (bytes : List UInt8) : UInt8 := extend 0 bytes

end Quadrotor.Checksum

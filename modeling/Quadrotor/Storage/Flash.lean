import Quadrotor.Error

/-!
# Flash memory

Memory whose bytes can be set to all ones only by erasing, and in which writing clears bits. A medium
works in grains: the addresses and lengths of an access have to be multiples of one. Both changes can
be made to fail, as a worn medium would.
-/

namespace Quadrotor

/-- The grains of a medium in bytes. -/
structure FlashGrain where
  read : Nat
  write : Nat
  erase : Nat
  deriving DecidableEq, Repr, Inhabited

/-- Reads single bytes, writes words and erases sectors of 512 bytes. -/
def FlashGrain.standard : FlashGrain := ⟨1, 4, 512⟩

/-- A refused access. -/
inductive FlashError where
  | notAligned
  | outOfBounds
  /-- The medium was made to fail. -/
  | writeFailed
  deriving DecidableEq, Repr, Inhabited

namespace FlashError

/-- The kind of the error, as a listing names it. -/
def kind : FlashError → String
  | notAligned => "NotAligned"
  | outOfBounds => "OutOfBounds"
  | writeFailed => "WriteFailed"

/-- The error as a storage medium reports it. -/
def toMedium : FlashError → MediumError
  | notAligned => .notAligned
  | outOfBounds => .outOfBounds
  | writeFailed => .other

end FlashError

/-- A flash memory. -/
structure Flash where
  cells : Array UInt8
  /-- Erasing and writing fail. -/
  failing : Bool := false
  /-- The grains that accesses have to keep to. -/
  grain : FlashGrain := .standard
  deriving DecidableEq, Repr, Inhabited

namespace Flash

/-- The value of an erased byte. -/
def erased : UInt8 := 0xff

/-- An erased memory of so many bytes. -/
def new (capacity : Nat) : Flash := { cells := Array.replicate capacity erased }

/-- The number of bytes. -/
def capacity (f : Flash) : Nat := f.cells.size

/-- The range of so many bytes lies inside the memory. -/
def covers (f : Flash) (offset length : Nat) : Bool := decide (offset + length ≤ f.capacity)

/-- So many bytes from an address on. -/
def read (f : Flash) (offset length : Nat) : Except FlashError (List UInt8) :=
  if offset % f.grain.read = 0 ∧ length % f.grain.read = 0 then
    if f.covers offset length then .ok (f.cells.extract offset (offset + length)).toList
    else .error .outOfBounds
  else .error .notAligned

/-- The bytes of a range set to all ones. -/
def eraseCells (cells : Array UInt8) (start stop : Nat) : Array UInt8 :=
  cells.mapIdx fun i cell => if start ≤ i ∧ i < stop then erased else cell

/-- Bytes written from an address on: each cell keeps only the ones that its byte has too. -/
def writeCells (cells : Array UInt8) (offset : Nat) (bytes : Array UInt8) : Array UInt8 :=
  cells.mapIdx fun i cell => if offset ≤ i then cell &&& bytes.getD (i - offset) erased else cell

/-- The memory with the bytes from `start` up to `stop` erased. -/
def erase (f : Flash) (start stop : Nat) : Except FlashError Flash :=
  if f.failing then .error .writeFailed
  else if stop < start ∨ start % f.grain.erase ≠ 0 ∨ stop % f.grain.erase ≠ 0 then .error .notAligned
  else if f.covers start (stop - start) then .ok { f with cells := eraseCells f.cells start stop }
  else .error .outOfBounds

/-- The memory with bytes written from an address on. -/
def write (f : Flash) (offset : Nat) (bytes : List UInt8) : Except FlashError Flash :=
  if f.failing then .error .writeFailed
  else if offset % f.grain.write ≠ 0 ∨ bytes.length % f.grain.write ≠ 0 then .error .notAligned
  else if f.covers offset bytes.length then
    .ok { f with cells := writeCells f.cells offset bytes.toArray }
  else .error .outOfBounds

end Flash

end Quadrotor

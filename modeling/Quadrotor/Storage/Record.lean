import Quadrotor.Storage.Checksum
import Quadrotor.Tuning.Params

/-!
# Parameter record

The stored form of a parameter set: a magic number, a version, the length of the payload, the payload
and a checksum of all that, with every number in little endian order. The payload is the parameters
one after the other, a scalar as the four bytes of its encoding and a flag as one byte.

A record that is not intact reads as no record. An intact one whose payload is not a parameter set is
an error of its own.
-/

namespace Quadrotor

namespace Payload

/-! ## Writing -/

/-- The bytes of a word, the least significant first. -/
def wordBytes (w : UInt32) : List UInt8 :=
  [w.toUInt8, (w >>> 8).toUInt8, (w >>> 16).toUInt8, (w >>> 24).toUInt8]

/-- The bytes of a scalar. -/
def scalarBytes (x : Scalar) : List UInt8 := wordBytes x.toBits

/-- The byte of a flag. -/
def flagByte (b : Bool) : UInt8 := if b then 1 else 0

/-- The bytes of the gains of an axis. -/
def gainsBytes (g : Gains) : List UInt8 := scalarBytes g.kp ++ scalarBytes g.ki ++ scalarBytes g.kd

/-- The bytes of the values of the axes. -/
def tripleBytes {α : Type} (f : α → List UInt8) (t : Triple α) : List UInt8 := f t.x ++ f t.y ++ f t.z

/-- The bytes of a parameter set. -/
def encode (p : TuningParams) : List UInt8 :=
  tripleBytes gainsBytes p.profileA ++ tripleBytes gainsBytes p.profileB ++
    scalarBytes p.trims.roll ++ scalarBytes p.trims.pitch ++ tripleBytes scalarBytes p.accOffsets ++
    [flagByte p.lvcEnabled, flagByte p.yawInverted]

/-! ## Reading -/

/-- A step of reading: takes bytes off the front. -/
abbrev Reader := StateT (List UInt8) (Except EncodingError)

/-- The next byte. -/
def readByte : Reader UInt8
  | [] => .error .unexpectedEnd
  | b :: rest => .ok (b, rest)

/-- The next four bytes as a scalar. -/
def readScalar : Reader Scalar
  | a :: b :: c :: d :: rest =>
    .ok (Float32.ofBits (a.toUInt32 ||| b.toUInt32 <<< 8 ||| c.toUInt32 <<< 16 |||
      d.toUInt32 <<< 24), rest)
  | _ => .error .unexpectedEnd

/-- The next byte as a flag. -/
def readFlag : Reader Bool := do
  match ← readByte with
  | 0 => return false
  | 1 => return true
  | _ => throw .badEncoding

/-- The gains of an axis. -/
def readGains : Reader Gains := do return ⟨← readScalar, ← readScalar, ← readScalar⟩

/-- A value for each axis. -/
def readTriple {α : Type} (r : Reader α) : Reader (Triple α) := do return ⟨← r, ← r, ← r⟩

/-- A parameter set. -/
def readParams : Reader TuningParams := do
  let profileA ← readTriple readGains
  let profileB ← readTriple readGains
  let trims : Tilt Scalar := ⟨← readScalar, ← readScalar⟩
  let accOffsets ← readTriple readScalar
  let lvcEnabled ← readFlag
  let yawInverted ← readFlag
  return ⟨profileA, profileB, trims, accOffsets, lvcEnabled, yawInverted⟩

/-- The parameter set at the front of the bytes; what follows it does not matter. -/
def decode (bytes : List UInt8) : Except EncodingError TuningParams :=
  (readParams.run bytes).map Prod.fst

end Payload

namespace Record

/-- The number that every record begins with. -/
def magic : UInt32 := 0x57485031

/-- The version of the layout. -/
def version : UInt8 := 1

/-- Bytes reserved for a record. -/
def size : Nat := 128

/-- Bytes ahead of the payload. -/
def headerLength : Nat := 7

/-- The longest payload that leaves room for a checksum. -/
def maxPayload : Nat := size - headerLength - 1

/-- The bytes ahead of a payload of the given length. -/
def header (length : Nat) : List UInt8 :=
  Payload.wordBytes magic ++ [version, length.toUInt8, (length / 256).toUInt8]

/-- `bytes` followed by their checksum. -/
def sealed (bytes : List UInt8) : List UInt8 := bytes ++ [Checksum.digest bytes]

/-- The record of a parameter set. -/
def bytes (p : TuningParams) : List UInt8 :=
  let payload := Payload.encode p
  sealed (header payload.length ++ payload)

/-- The record written over the front of a buffer, and its length. -/
def encode (p : TuningParams) (buffer : List UInt8) : Except StoreError (Nat × List UInt8) :=
  if (Payload.encode p).length ≤ maxPayload then
    .ok ((bytes p).length, bytes p ++ buffer.drop (bytes p).length)
  else .error .recordTooLarge

/-- The payload of an intact record at the front of the bytes. -/
def payload? (bytes : List UInt8) : Option (List UInt8) :=
  match bytes with
  | m₀ :: m₁ :: m₂ :: m₃ :: v :: l₀ :: l₁ :: rest =>
    if [m₀, m₁, m₂, m₃] = Payload.wordBytes magic ∧ v = version then
      let length := l₀.toNat + 256 * l₁.toNat
      if length ≤ maxPayload then
        match rest[length]? with
        | some crc =>
          if Checksum.digest (bytes.take (headerLength + length)) = crc then
            some (rest.take length)
          else none
        | none => none
      else none
    else none
  | _ => none

/-- The parameter set of a record. -/
def decode (bytes : List UInt8) : Except StoreError TuningParams :=
  match payload? bytes with
  | none => .error .useDefaults
  | some payload =>
    match Payload.decode payload with
    | .error e => .error (.encoding e)
    | .ok p => if p.isValid then .ok p else .error .useDefaults

end Record

end Quadrotor

import Quadrotor.Storage.Flash
import Quadrotor.Storage.Record

/-!
# Parameter stores

Where a parameter set outlives a flight: in a region of a flash memory, or in memory for hosts that
have none. Saving a set replaces the one before.
-/

namespace Quadrotor

/-- A place that a parameter set is saved to and loaded from. -/
class ParamStore (σ : Type) where
  /-- The stored set. -/
  load : σ → Except StoreError TuningParams × σ
  /-- Replaces the stored set. -/
  save : σ → TuningParams → Checked (Except StoreError Unit × σ)

/-- Either of two stores. -/
instance {σ τ : Type} [ParamStore σ] [ParamStore τ] : ParamStore (σ ⊕ τ) where
  load
    | .inl s => (ParamStore.load s).map id .inl
    | .inr s => (ParamStore.load s).map id .inr
  save
    | .inl s, p => return (← ParamStore.save s p).map id .inl
    | .inr s, p => return (← ParamStore.save s p).map id .inr

/-- The least multiple of `grain` that is not below `length`. -/
def roundUp (length grain : Nat) : Nat := (length + grain - 1) / grain * grain

/-- A record in a region of a flash memory. -/
structure FlashStore where
  flash : Flash
  /-- The first address of the region, a 32-bit one. -/
  offset : Nat
  /-- The grains that accesses are rounded up to. -/
  grain : FlashGrain := .standard
  deriving DecidableEq, Repr, Inhabited

namespace FlashStore

/-- A buffer of erased bytes for one record. -/
def blank : List UInt8 := List.replicate Record.size Flash.erased

/-- The stored set. -/
def load (s : FlashStore) : Except StoreError TuningParams :=
  let length := roundUp Record.size s.grain.read
  if Record.size < length then .error (.medium .notAligned)
  else
    match s.flash.read s.offset length with
    | .error e => .error (.medium e.toMedium)
    | .ok bytes => Record.decode bytes

/-- The region erased and the bytes written to its front. An erased region stays erased if writing
fails. -/
def replace (s : FlashStore) (stop : Nat) (bytes : List UInt8) : Except StoreError Unit × FlashStore :=
  match s.flash.erase s.offset stop with
  | .error e => (.error (.medium e.toMedium), s)
  | .ok flash =>
    match flash.write s.offset bytes with
    | .error e => (.error (.medium e.toMedium), { s with flash := flash })
    | .ok flash => (.ok (), { s with flash := flash })

/-- Replaces the stored set. -/
def save (s : FlashStore) (p : TuningParams) : Checked (Except StoreError Unit × FlashStore) :=
  match Record.encode p blank with
  | .error e => .ok (.error e, s)
  | .ok (length, buffer) =>
    let length := roundUp length s.grain.write
    if Record.size < length then .ok (.error (.medium .notAligned), s)
    else
      let stop := s.offset + roundUp Record.size s.grain.erase
      if stop < UInt32.size then .ok (s.replace stop (buffer.take length)) else .error .overflow

instance : ParamStore FlashStore where
  load s := (s.load, s)
  save := save

end FlashStore

/-- A record in memory. -/
structure MemoryStore where
  /-- The record, if one has been saved. -/
  record : Option (List UInt8) := none
  /-- The number of saves. -/
  saves : Nat := 0
  deriving DecidableEq, Repr, Inhabited

namespace MemoryStore

/-- The stored set. -/
def load (s : MemoryStore) : Except StoreError TuningParams :=
  match s.record with
  | some bytes => Record.decode bytes
  | none => .error .useDefaults

/-- Replaces the stored set. -/
def save (s : MemoryStore) (p : TuningParams) : Except StoreError Unit × MemoryStore :=
  match Record.encode p FlashStore.blank with
  | .error e => (.error e, s)
  | .ok (length, buffer) => (.ok (), ⟨some (buffer.take length), s.saves + 1⟩)

/-- One bit of the payload of the stored record flipped. -/
def corrupt (s : MemoryStore) : MemoryStore :=
  { s with record := s.record.map fun bytes => bytes.modify Record.headerLength (· ^^^ 1) }

instance : ParamStore MemoryStore where
  load s := (s.load, s)
  save s p := .ok (s.save p)

end MemoryStore

end Quadrotor

import Mathlib
import Quadrotor.Proofs.Storage.Register

/-!
# Memories of other grains

A flash memory announces how long its reads, words and sectors are. A store rounds each of its three
accesses to the grain that it concerns, so whether a set can be saved and whether it can be loaded
afterwards are two questions: a save asks for a record's room in whole words and for a region that
begins with one, a load for a region and a record made of whole reads. Of these a save looks at the
words only, and erases and writes a region that no load will ever read.
-/

namespace Quadrotor

namespace FlashStore

variable {s : FlashStore} {p : TuningParams}

/-- A store over a working memory of any grains, in a region that begins at a sector, lies inside the
memory and ends at an address. -/
structure Sited (s : FlashStore) : Prop where
  grain : s.flash.grain = s.grain
  read_pos : 0 < s.grain.read
  write_pos : 0 < s.grain.write
  erase_pos : 0 < s.grain.erase
  working : s.flash.failing = false
  aligned : s.grain.erase ∣ s.offset
  inside : s.offset + roundUp Record.size s.grain.erase ≤ s.flash.cells.size
  addressable : s.offset + roundUp Record.size s.grain.erase < UInt32.size

/-- A record can be written: it has room in whole words, and the region begins with one. -/
def Writable (s : FlashStore) : Prop :=
  roundUp 102 s.grain.write ≤ Record.size ∧ s.grain.write ∣ s.offset

/-- A record can be read: it is made of whole reads, and the region begins with one. -/
def Readable (s : FlashStore) : Prop := s.grain.read ∣ Record.size ∧ s.grain.read ∣ s.offset

instance (s : FlashStore) : Decidable s.Writable := inferInstanceAs (Decidable (_ ∧ _))

instance (s : FlashStore) : Decidable s.Readable := inferInstanceAs (Decidable (_ ∧ _))

/-- The cells once the region has been erased. -/
def blanked (s : FlashStore) : Array UInt8 :=
  Flash.eraseCells s.flash.cells s.offset (s.offset + roundUp Record.size s.grain.erase)

/-- The cells after a record of whole words has been written to the erased region. -/
def recorded (s : FlashStore) (p : TuningParams) : Array UInt8 :=
  Flash.writeCells s.blanked s.offset
    ((Record.bytes p ++ blank.drop 102).take (roundUp 102 s.grain.write)).toArray

/-! ## The two requests -/

namespace Sited

theorem record_inside (h : s.Sited) : s.offset + Record.size ≤ s.flash.cells.size :=
  (Nat.add_le_add_left (le_roundUp h.erase_pos) _).trans h.inside

/-- A load looks at the contents of the region only where it is readable. -/
theorem load_eq (h : s.Sited) : s.load =
    if s.Readable then Record.decode s.region else .error (.medium .notAligned) :=
  load_eq_of_grain (by rw [h.grain]) h.read_pos h.record_inside

/-- A record without room is refused before anything is changed, and a region that does not begin
with a word when it has been erased already. -/
theorem save_eq (h : s.Sited) (p : TuningParams) : s.save p = .ok (
    if s.Writable then (.ok (), s.withCells (s.recorded p))
    else (.error (.medium .notAligned),
      if roundUp 102 s.grain.write ≤ Record.size then s.withCells s.blanked else s)) := by
  rw [save_eq_of_grain rfl h.addressable]
  by_cases hroom : roundUp 102 s.grain.write ≤ Record.size
  · have hlength : ((Record.bytes p ++ blank.drop 102).take (roundUp 102 s.grain.write)).length
        = roundUp 102 s.grain.write := by
      rw [List.length_take, List.length_append, Record.length_bytes]
      exact Nat.min_eq_left hroom
    have hbytes : Record.size ≤ roundUp Record.size s.grain.erase := le_roundUp h.erase_pos
    rw [if_neg (not_lt.mpr hroom), if_pos hroom, replace_eq h.working, h.grain]
    · by_cases hword : s.grain.write ∣ s.offset
      · rw [if_pos (Nat.mod_eq_zero_of_dvd hword), if_pos ⟨hroom, hword⟩]
        rfl
      · rw [if_neg fun h => hword (Nat.dvd_of_mod_eq_zero h), if_neg fun h => hword h.2]
        rfl
    · rw [h.grain]
      exact Nat.mod_eq_zero_of_dvd h.aligned
    · rw [h.grain]
      exact Nat.mod_eq_zero_of_dvd (dvd_add h.aligned (dvd_roundUp _ _))
    · rw [hlength]
      omega
    · exact h.inside
    · rw [h.grain, hlength]
      exact Nat.mod_eq_zero_of_dvd (dvd_roundUp _ _)
  · rw [if_pos (not_le.mp hroom), if_neg fun h => hroom h.1, if_neg hroom]

theorem withCells (h : s.Sited) {cells : Array UInt8} (hsize : cells.size = s.flash.cells.size) :
    (s.withCells cells).Sited :=
  ⟨h.grain, h.read_pos, h.write_pos, h.erase_pos, h.working, h.aligned, hsize ▸ h.inside,
    h.addressable⟩

/-- What has been saved is loaded where the region is readable, and nothing is loaded elsewhere. -/
theorem load_recorded (h : s.Sited) (hwritable : s.Writable) (p : TuningParams) :
    (s.withCells (s.recorded p)).load = if s.Readable then
      (if p.isValid then .ok p else .error .useDefaults) else .error (.medium .notAligned) := by
  have hsize : (s.recorded p).size = s.flash.cells.size := by
    rw [recorded, blanked, Flash.size_writeCells, Flash.size_eraseCells]
  have hdecode : Record.decode (s.withCells (s.recorded p)).region
      = if p.isValid then .ok p else .error .useDefaults :=
    decode_region_rewritten (le_roundUp h.write_pos) hwritable.1
      (Nat.add_le_add_left (le_roundUp h.erase_pos) _) h.inside
  rw [(h.withCells hsize).load_eq, hdecode]
  rfl

end Sited

/-! ## A save and the load after it -/

/-- What a save of a set comes to, and the load after it. -/
structure SavesAndLoads (s : FlashStore) (p : TuningParams) : Prop where
  /-- Saving is never aborted, and succeeds exactly if the region is writable. -/
  saved : ∃ result s', s.save p = .ok (result, s') ∧ (result = .ok () ↔ s.Writable)
  /-- A set that has been saved is loaded exactly if the region is readable. -/
  loaded : ∀ s', s.save p = .ok (.ok (), s') →
    s'.load = if s.Readable then .ok p else .error (.medium .notAligned)

/-- In a region of a memory of any grains a valid set that has been saved is loaded if and only if
the length of a read divides both the size of a record and the address of the region. -/
theorem load_of_saved (h : s.Sited) (hvalid : p.isValid = true) : s.SavesAndLoads p := by
  have hsave := h.save_eq p
  by_cases hwritable : s.Writable
  · rw [if_pos hwritable] at hsave
    refine ⟨⟨_, _, hsave, iff_of_true rfl hwritable⟩, fun s' hs' => ?_⟩
    rw [hsave] at hs'
    obtain ⟨-, rfl⟩ := Prod.mk.inj (Except.ok.inj hs')
    rw [h.load_recorded hwritable, if_pos hvalid]
  · rw [if_neg hwritable] at hsave
    refine ⟨⟨_, _, hsave, iff_of_false nofun hwritable⟩, fun s' hs' => ?_⟩
    rw [hsave] at hs'
    cases (Prod.mk.inj (Except.ok.inj hs')).1

/-- A region in a memory of `1024` byte sectors that is read and written in words of `64` bytes, with
all of its bits cleared. -/
def wide : FlashStore := ⟨⟨Array.replicate 4096 0, false, ⟨64, 64, 1024⟩⟩, 1024, ⟨64, 64, 1024⟩⟩

theorem load_of_saved_wide : wide.Sited ∧ TuningParams.isValid {} = true ∧
    ∃ s', wide.save {} = .ok (.ok (), s') ∧ s'.load = .ok {} := by
  have hsited : wide.Sited :=
    ⟨rfl, by decide, by decide, by decide, rfl, by decide, by decide +kernel, by decide⟩
  have hvalid : TuningParams.isValid {} = true := by decide +kernel
  obtain ⟨⟨result, s', hsave, hresult⟩, hloaded⟩ := load_of_saved hsited hvalid
  obtain rfl := hresult.mpr (by decide)
  refine ⟨hsited, hvalid, s', hsave, ?_⟩
  rw [hloaded s' hsave, if_pos (by decide)]

/-- A region at the start of an erased memory that is read `256` bytes at a time. -/
def coarse : FlashStore := ⟨⟨Array.replicate 4096 0xff, false, ⟨256, 4, 512⟩⟩, 0, ⟨256, 4, 512⟩⟩

/-- A record is half as long as a read there, which the save does not find out. -/
theorem saved_and_not_loaded : coarse.Sited ∧ TuningParams.isValid {} = true ∧
    ∃ s', coarse.save {} = .ok (.ok (), s') ∧ s'.load = .error (.medium .notAligned) := by
  have hsited : coarse.Sited :=
    ⟨rfl, by decide, by decide, by decide, rfl, by decide, by decide +kernel, by decide⟩
  have hwritable : coarse.Writable := by decide
  have hsave := hsited.save_eq {}
  rw [if_pos hwritable] at hsave
  refine ⟨hsited, by decide +kernel, _, hsave, ?_⟩
  rw [hsited.load_recorded hwritable, if_neg (by decide)]

end FlashStore

end Quadrotor

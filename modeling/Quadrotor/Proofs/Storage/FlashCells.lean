import Mathlib
import Quadrotor.Storage.Flash

/-!
# Cells of a flash memory

What erasing and writing do to each cell, and when the accesses succeed. A byte is stored as it is on
an erased cell only; cells before and after the bytes that are written keep their value.
-/

namespace Quadrotor.Flash

variable {cells : Array UInt8} {i : Nat}

/-! ## Cells -/

@[simp] theorem size_eraseCells (start stop : Nat) :
    (eraseCells cells start stop).size = cells.size := Array.size_mapIdx

@[simp] theorem size_writeCells (offset : Nat) (bytes : Array UInt8) :
    (writeCells cells offset bytes).size = cells.size := Array.size_mapIdx

theorem erased_and (x : UInt8) : erased &&& x = x := UInt8.neg_one_and

theorem and_erased (x : UInt8) : x &&& erased = x := UInt8.and_neg_one

theorem getElem?_eraseCells_of_mem {start stop : Nat} (h : start ≤ i ∧ i < stop)
    (hi : i < cells.size) : (eraseCells cells start stop)[i]? = some erased := by
  rw [eraseCells, Array.getElem?_mapIdx, Array.getElem?_eq_getElem hi, Option.map_some, if_pos h]

theorem getElem?_eraseCells_of_not_mem {start stop : Nat} (h : ¬(start ≤ i ∧ i < stop)) :
    (eraseCells cells start stop)[i]? = cells[i]? := by
  rw [eraseCells, Array.getElem?_mapIdx]
  simp only [if_neg h, Option.map_id']

theorem getElem?_writeCells_of_mem {offset : Nat} {bytes : Array UInt8} {cell x : UInt8}
    (hcell : cells[offset + i]? = some cell) (hbyte : bytes[i]? = some x) :
    (writeCells cells offset bytes)[offset + i]? = some (cell &&& x) := by
  rw [writeCells, Array.getElem?_mapIdx, hcell, Option.map_some, if_pos (Nat.le_add_right _ _),
    Nat.add_sub_cancel_left, Array.getD_eq_getD_getElem?, hbyte, Option.getD_some]

/-- On an erased cell a byte is written as it is. -/
theorem getElem?_writeCells_of_erased {offset : Nat} {bytes : Array UInt8} {x : UInt8}
    (herased : cells[offset + i]? = some erased) (hbyte : bytes[i]? = some x) :
    (writeCells cells offset bytes)[offset + i]? = some x := by
  rw [getElem?_writeCells_of_mem herased hbyte, erased_and]

theorem getElem?_writeCells_of_outside {offset : Nat} {bytes : Array UInt8}
    (h : i < offset ∨ offset + bytes.size ≤ i) :
    (writeCells cells offset bytes)[i]? = cells[i]? := by
  have hkeep : ∀ cell : UInt8,
      (if offset ≤ i then cell &&& bytes.getD (i - offset) erased else cell) = cell := by
    intro cell
    split_ifs with hle
    · rw [Array.getD_eq_getD_getElem?, Array.getElem?_eq_none (by omega), Option.getD_none, and_erased]
    · rfl
  rw [writeCells, Array.getElem?_mapIdx]
  simp only [hkeep, Option.map_id']

/-- Bytes written to the front of a range that has been erased. -/
theorem getElem?_rewritten {start stop : Nat} {bytes : List UInt8} (hi : i < bytes.length)
    (hstop : start + i < stop) (hsize : start + i < cells.size) :
    (writeCells (eraseCells cells start stop) start bytes.toArray)[start + i]? = bytes[i]? := by
  rw [List.getElem?_eq_getElem hi]
  apply getElem?_writeCells_of_erased
  · exact getElem?_eraseCells_of_mem ⟨Nat.le_add_right _ _, hstop⟩ hsize
  · rw [List.getElem?_toArray, List.getElem?_eq_getElem hi]

/-! ## Accesses -/

/-- The memory with other cells. -/
def withCells (f : Flash) (cells : Array UInt8) : Flash := { f with cells := cells }

@[simp] theorem cells_withCells (f : Flash) : (f.withCells cells).cells = cells := rfl

theorem covers_iff {f : Flash} {offset length : Nat} :
    f.covers offset length = true ↔ offset + length ≤ f.cells.size := decide_eq_true_iff

theorem erase_eq_ok_iff {f g : Flash} {start stop : Nat} : f.erase start stop = .ok g ↔
    (f.failing = false ∧ start ≤ stop ∧ start % f.grain.erase = 0 ∧ stop % f.grain.erase = 0 ∧
      stop ≤ f.cells.size) ∧ g = f.withCells (eraseCells f.cells start stop) := by
  unfold erase withCells
  split_ifs with hfailing hrefused hcovers
  · simp [hfailing]
  · simp only [false_iff]
    omega
  · rw [covers_iff] at hcovers
    rw [Bool.not_eq_true] at hfailing
    rw [Except.ok.injEq, and_iff_right ⟨hfailing, by omega⟩]
    exact eq_comm
  · rw [covers_iff] at hcovers
    simp only [false_iff]
    omega

theorem write_eq_ok_iff {f g : Flash} {offset : Nat} {bytes : List UInt8} :
    f.write offset bytes = .ok g ↔
      (f.failing = false ∧ offset % f.grain.write = 0 ∧ bytes.length % f.grain.write = 0 ∧
        offset + bytes.length ≤ f.cells.size) ∧
      g = f.withCells (writeCells f.cells offset bytes.toArray) := by
  unfold write withCells
  split_ifs with hfailing hrefused hcovers
  · simp [hfailing]
  · simp only [false_iff]
    omega
  · rw [covers_iff] at hcovers
    rw [Bool.not_eq_true] at hfailing
    rw [Except.ok.injEq, and_iff_right ⟨hfailing, by omega⟩]
    exact eq_comm
  · rw [covers_iff] at hcovers
    simp only [false_iff]
    omega

theorem erase_eq {f : Flash} {start stop : Nat} (hfailing : f.failing = false)
    (hstart : start % f.grain.erase = 0) (hstop : stop % f.grain.erase = 0) (hle : start ≤ stop)
    (hinside : stop ≤ f.cells.size) :
    f.erase start stop = .ok (f.withCells (eraseCells f.cells start stop)) :=
  erase_eq_ok_iff.mpr ⟨⟨hfailing, hle, hstart, hstop, hinside⟩, rfl⟩

theorem write_eq {f : Flash} {offset : Nat} {bytes : List UInt8} (hfailing : f.failing = false)
    (hoffset : offset % f.grain.write = 0) (hlength : bytes.length % f.grain.write = 0)
    (hinside : offset + bytes.length ≤ f.cells.size) :
    f.write offset bytes = .ok (f.withCells (writeCells f.cells offset bytes.toArray)) :=
  write_eq_ok_iff.mpr ⟨⟨hfailing, hoffset, hlength, hinside⟩, rfl⟩

theorem write_of_not_aligned {f : Flash} {offset : Nat} (hfailing : f.failing = false)
    (hoffset : offset % f.grain.write ≠ 0) (bytes : List UInt8) :
    f.write offset bytes = .error .notAligned := by
  rw [write, hfailing, if_neg Bool.false_ne_true, if_pos (Or.inl hoffset)]

end Quadrotor.Flash

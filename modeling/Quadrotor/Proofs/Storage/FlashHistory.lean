import Mathlib
import Quadrotor.Proofs.Storage.FlashCells

/-!
# Flash memory by its history

What a memory holds can be told from the calls it has answered: each byte is the conjunction of all
that has been written to it since it was last erased. Only calls that succeeded count, and whether a
call succeeds is a matter of its own arguments, the size of the memory and the last setting of its
failures.
-/

namespace Quadrotor

/-- A call to a flash memory. -/
inductive FlashCall where
  | erase (start stop : Nat)
  | write (offset : Nat) (bytes : List UInt8)
  | read (offset length : Nat)
  | setFailing (failing : Bool)

namespace Flash

/-- What a change of the memory is answered with; without one the memory stays as it is. -/
def changed (f : Flash) : Except FlashError Flash → Except FlashError (List UInt8) × Flash
  | .ok g => (.ok [], g)
  | .error e => (.error e, f)

def perform (f : Flash) : FlashCall → Except FlashError (List UInt8) × Flash
  | .erase start stop => f.changed (f.erase start stop)
  | .write offset bytes => f.changed (f.write offset bytes)
  | .read offset length => (f.read offset length, f)
  | .setFailing failing => (.ok [], { f with failing := failing })

/-- Calls in their order, each with its answer. -/
abbrev Log := List (FlashCall × Except FlashError (List UInt8))

/-- A new memory after calls, and what it has answered. -/
def history (capacity : Nat) (calls : List FlashCall) : Flash × Log :=
  calls.foldl (fun (f, log) c => ((f.perform c).2, log ++ [(c, (f.perform c).1)])) (.new capacity, [])

/-! ## What a history tells -/

/-- The byte at a place was erased. -/
def erases (i : Nat) : FlashCall × Except FlashError (List UInt8) → Bool
  | (.erase start stop, .ok _) => decide (start ≤ i ∧ i < stop)
  | _ => false

/-- The byte that was written to a place. -/
def writes? (i : Nat) : FlashCall × Except FlashError (List UInt8) → Option UInt8
  | (.write offset bytes, .ok _) => if offset ≤ i then bytes[i - offset]? else none
  | _ => none

/-- The bytes that have been written to a place since it was last erased. -/
def written (i : Nat) (log : Log) : List UInt8 :=
  (log.rtakeWhile fun entry => !erases i entry).filterMap (writes? i)

/-- What a place holds after a history. -/
def content (log : Log) (i : Nat) : UInt8 := (written i log).foldl (· &&& ·) 0xff

def setting? : FlashCall × Except FlashError (List UInt8) → Option Bool
  | (.setFailing failing, _) => some failing
  | _ => none

/-- Erasing and writing fail, as was set last. -/
def fails (log : Log) : Bool := (log.filterMap setting?).getLast?.getD false

/-- The calls that succeed on a memory of so many bytes. -/
def Succeeds (capacity : Nat) (failing : Bool) : FlashCall → Prop
  | .erase start stop =>
    failing = false ∧ start ≤ stop ∧ 512 ∣ start ∧ 512 ∣ stop ∧ stop ≤ capacity
  | .write offset bytes =>
    failing = false ∧ 4 ∣ offset ∧ 4 ∣ bytes.length ∧ offset + bytes.length ≤ capacity
  | .read offset length => offset + length ≤ capacity
  | .setFailing _ => True

variable {capacity i : Nat} {log : Log} {f : Flash}

theorem written_concat (i : Nat) (log : Log) (entry : FlashCall × Except FlashError (List UInt8)) :
    written i (log ++ [entry])
      = if erases i entry then [] else written i log ++ (writes? i entry).toList := by
  unfold written
  rw [List.rtakeWhile_concat]
  cases erases i entry
  · cases hw : writes? i entry <;> simp [hw]
  · simp

theorem content_concat (i : Nat) (log : Log) (entry : FlashCall × Except FlashError (List UInt8)) :
    content (log ++ [entry]) i
      = if erases i entry then 0xff else (writes? i entry).elim (content log i) (content log i &&& ·) := by
  unfold content
  rw [written_concat]
  cases erases i entry
  · cases writes? i entry <;> simp
  · simp

theorem content_of_untouched {entry : FlashCall × Except FlashError (List UInt8)}
    (herases : erases i entry = false) (hwrites : writes? i entry = none) :
    content (log ++ [entry]) i = content log i := by
  rw [content_concat, herases, hwrites]
  rfl

/-! ## One call -/

/-- A memory whose history is known. -/
structure Tracks (capacity : Nat) (log : Log) (f : Flash) : Prop where
  grain : f.grain = .standard
  size : f.cells.size = capacity
  failing : f.failing = fails log
  cell : ∀ i < capacity, f.cells[i]? = some (content log i)

theorem tracks_new (capacity : Nat) : Tracks capacity [] (.new capacity) := by
  refine ⟨rfl, Array.size_replicate, rfl, ?_⟩
  intro i hi
  rw [new, Array.getElem?_replicate, if_pos hi]
  rfl

theorem fails_concat (c : FlashCall) (answer : Except FlashError (List UInt8)) :
    fails (log ++ [(c, answer)]) = (setting? (c, answer)).getD (fails log) := by
  unfold fails
  cases h : setting? (c, answer) <;> simp [h]

theorem Tracks.refuse (h : Tracks capacity log f) {c : FlashCall} (e : FlashError)
    (hsetting : setting? (c, .error e) = none) : Tracks capacity (log ++ [(c, .error e)]) f := by
  refine ⟨h.grain, h.size, ?_, ?_⟩
  · rw [fails_concat, hsetting]
    exact h.failing
  · intro i hi
    rw [h.cell i hi, content_of_untouched]
    · cases c <;> rfl
    · cases c <;> rfl

theorem Tracks.erase (h : Tracks capacity log f) {start stop : Nat} {g : Flash}
    (herase : f.erase start stop = .ok g) :
    Tracks capacity (log ++ [(.erase start stop, .ok [])]) g := by
  obtain ⟨-, rfl⟩ := erase_eq_ok_iff.mp herase
  refine ⟨h.grain, (size_eraseCells start stop).trans h.size, ?_, ?_⟩
  · rw [fails_concat]
    exact h.failing
  · intro i hi
    rw [cells_withCells, content_concat]
    by_cases hmem : start ≤ i ∧ i < stop
    · rw [getElem?_eraseCells_of_mem hmem (h.size ▸ hi)]
      simp [erases, hmem, erased]
    · rw [getElem?_eraseCells_of_not_mem hmem, h.cell i hi]
      simp only [erases, hmem]
      rfl

theorem Tracks.write (h : Tracks capacity log f) {offset : Nat} {bytes : List UInt8} {g : Flash}
    (hwrite : f.write offset bytes = .ok g) :
    Tracks capacity (log ++ [(.write offset bytes, .ok [])]) g := by
  obtain ⟨-, rfl⟩ := write_eq_ok_iff.mp hwrite
  refine ⟨h.grain, (size_writeCells offset _).trans h.size, ?_, ?_⟩
  · rw [fails_concat]
    exact h.failing
  · intro i hi
    rw [cells_withCells, content_concat]
    by_cases hmem : offset ≤ i ∧ i < offset + bytes.length
    · obtain ⟨k, rfl⟩ := Nat.exists_eq_add_of_le hmem.1
      have hk : k < bytes.length := by omega
      rw [getElem?_writeCells_of_mem (h.cell _ hi)
        (by rw [List.getElem?_toArray, List.getElem?_eq_getElem hk])]
      simp [erases, writes?, hk]
    · have hnone : writes? i (.write offset bytes, .ok []) = none := by
        simp only [writes?]
        split_ifs with hle
        · rw [List.getElem?_eq_none (by omega)]
        · rfl
      rw [getElem?_writeCells_of_outside (by rw [List.size_toArray]; omega), h.cell i hi, hnone]
      rfl

theorem Tracks.read (h : Tracks capacity log f) (offset length : Nat)
    (answer : Except FlashError (List UInt8)) :
    Tracks capacity (log ++ [(.read offset length, answer)]) f := by
  refine ⟨h.grain, h.size, ?_, ?_⟩
  · rw [fails_concat]
    exact h.failing
  · intro i hi
    rw [content_of_untouched rfl rfl]
    exact h.cell i hi

theorem Tracks.setFailing (h : Tracks capacity log f) (failing : Bool) :
    Tracks capacity (log ++ [(.setFailing failing, .ok [])]) { f with failing := failing } := by
  refine ⟨h.grain, h.size, ?_, ?_⟩
  · rw [fails_concat]
    rfl
  · intro i hi
    rw [content_of_untouched rfl rfl]
    exact h.cell i hi

/-- Whatever is called next, the history with that call tells what it leaves. -/
theorem Tracks.perform (h : Tracks capacity log f) (c : FlashCall) :
    Tracks capacity (log ++ [(c, (f.perform c).1)]) (f.perform c).2 := by
  cases c with
  | erase start stop =>
    cases herase : f.erase start stop with
    | ok g =>
      simp only [Flash.perform, herase, changed]
      exact h.erase herase
    | error e =>
      simp only [Flash.perform, herase, changed]
      exact h.refuse e rfl
  | write offset bytes =>
    cases hwrite : f.write offset bytes with
    | ok g =>
      simp only [Flash.perform, hwrite, changed]
      exact h.write hwrite
    | error e =>
      simp only [Flash.perform, hwrite, changed]
      exact h.refuse e rfl
  | read offset length => exact h.read offset length _
  | setFailing failing => exact h.setFailing failing

theorem tracks_history (capacity : Nat) (calls : List FlashCall) :
    Tracks capacity (history capacity calls).2 (history capacity calls).1 := by
  induction calls using List.reverseRecOn with
  | nil => exact tracks_new capacity
  | append_singleton calls c ih =>
    rw [history, List.foldl_concat]
    exact ih.perform c

/-! ## Answers -/

theorem Tracks.read_eq (h : Tracks capacity log f) (offset length : Nat) :
    f.read offset length = if offset + length ≤ capacity then
      .ok ((List.range' offset length).map (content log)) else .error .outOfBounds := by
  have hgrain : f.grain.read = 1 := by
    rw [h.grain]
    rfl
  rw [Flash.read, hgrain, if_pos ⟨Nat.mod_one _, Nat.mod_one _⟩]
  by_cases hinside : offset + length ≤ capacity
  · rw [if_pos (covers_iff.mpr (h.size ▸ hinside)), if_pos hinside]
    congr 1
    apply List.ext_getElem?
    intro k
    rw [Array.getElem?_toList, Array.getElem?_extract, List.getElem?_map]
    by_cases hk : k < length
    · rw [if_pos (by have := h.size; omega), h.cell _ (by omega), List.getElem?_range' hk, Nat.one_mul]
      rfl
    · rw [if_neg (by have := h.size; omega), List.getElem?_eq_none (by rw [List.length_range']; omega)]
      rfl
  · rw [if_neg (fun hcovers => hinside (h.size ▸ covers_iff.mp hcovers)), if_neg hinside]

theorem exists_changed_eq_ok {r : Except FlashError Flash} :
    (∃ answer, (f.changed r).1 = .ok answer) ↔ ∃ g, r = .ok g := by
  cases r <;> simp [changed]

theorem Tracks.succeeds_iff (h : Tracks capacity log f) (c : FlashCall) :
    (∃ answer, (f.perform c).1 = .ok answer) ↔ Succeeds capacity (fails log) c := by
  cases c with
  | erase start stop =>
    rw [Flash.perform, exists_changed_eq_ok]
    simp only [erase_eq_ok_iff, exists_and_left, exists_eq, and_true, h.grain, h.size, h.failing,
      FlashGrain.standard, Succeeds, Nat.dvd_iff_mod_eq_zero]
  | write offset bytes =>
    rw [Flash.perform, exists_changed_eq_ok]
    simp only [write_eq_ok_iff, exists_and_left, exists_eq, and_true, h.grain, h.size, h.failing,
      FlashGrain.standard, Succeeds, Nat.dvd_iff_mod_eq_zero]
  | read offset length =>
    rw [Flash.perform, h.read_eq, Succeeds]
    split_ifs with hinside <;> simp [hinside]
  | setFailing failing => simp [Flash.perform, Succeeds]

theorem perform_of_error {c : FlashCall} {e : FlashError} (h : (f.perform c).1 = .error e) :
    (f.perform c).2 = f := by
  cases c with
  | erase start stop =>
    cases herase : f.erase start stop <;> simp_all [Flash.perform, changed]
  | write offset bytes =>
    cases hwrite : f.write offset bytes <;> simp_all [Flash.perform, changed]
  | read offset length => rfl
  | setFailing failing => cases h

/-- A memory that is known by its history. -/
structure Told (capacity : Nat) (log : Log) (f : Flash) : Prop where
  size : f.cells.size = capacity
  /-- Each byte is the conjunction of all that was written to it since it was last erased. -/
  cell : ∀ i < capacity, f.cells[i]? = some (content log i)
  succeeds_iff : ∀ c, (∃ answer, (f.perform c).1 = .ok answer) ↔ Succeeds capacity (fails log) c
  refused : ∀ c e, (f.perform c).1 = .error e → (f.perform c).2 = f
  read : ∀ offset length, offset + length ≤ capacity →
    (f.perform (.read offset length)).1 = .ok ((List.range' offset length).map (content log))

/-- After any calls to a memory of any size, its bytes and its answers are those that the history of
the calls tells. -/
theorem told_by_history (capacity : Nat) (calls : List FlashCall) :
    Told capacity (history capacity calls).2 (history capacity calls).1 := by
  have h := tracks_history capacity calls
  refine ⟨h.size, h.cell, h.succeeds_iff, fun c e => perform_of_error, ?_⟩
  intro offset length hinside
  rw [Flash.perform, h.read_eq, if_pos hinside]

end Flash

end Quadrotor

import Mathlib
import Quadrotor.Proofs.Storage.FlashCells
import Quadrotor.Proofs.Storage.RecordCodec
import Quadrotor.Storage.Store

/-!
# Stores as registers

Whoever saves and loads parameter sets sees a register: it holds what a load answers, and a save
either fails and changes nothing or replaces it. A store in a flash memory behaves like that from any
contents on, if its region begins at a sector of the memory and lies inside it. Erasing the region and
writing to its front then succeed or fail together, so no save stops between the two.
-/

namespace Quadrotor

/-! ## Requests -/

/-- What a store is asked for. -/
inductive StoreRequest where
  | save (p : TuningParams)
  | load

/-- What a store answers. -/
inductive StoreAnswer where
  | saved (result : Except StoreError Unit)
  | loaded (result : Except StoreError TuningParams)

/-- The answer of a store to a request. -/
def StoreRequest.perform {σ : Type} [ParamStore σ] (s : σ) :
    StoreRequest → Checked (StoreAnswer × σ)
  | .save p => return (← ParamStore.save s p).map .saved id
  | .load => return (ParamStore.load s).map .loaded id

/-- A request to a store in a flash memory, or a change of whether the memory fails. -/
inductive FlashAction where
  | request (r : StoreRequest)
  | setFailing (failing : Bool)

/-- The answer to a request, and the store after an action. -/
def FlashStore.act (s : FlashStore) : FlashAction → Checked (Option StoreAnswer × FlashStore)
  | .request r => return (← r.perform s).map some id
  | .setFailing failing => return (none, { s with flash := { s.flash with failing := failing } })

/-- A set that can be replaced, or an error in its place. -/
structure ParamRegister where
  stored : Except StoreError TuningParams
  /-- Saving fails. -/
  failing : Bool

namespace ParamRegister

/-- A set that is not valid replaces what was stored too, and cannot be loaded. -/
def replace (r : ParamRegister) (p : TuningParams) : ParamRegister :=
  { r with stored := if p.isValid then .ok p else .error .useDefaults }

def perform (r : ParamRegister) : StoreRequest → StoreAnswer × ParamRegister
  | .save p =>
    if r.failing then (.saved (.error (.medium .other)), r) else (.saved (.ok ()), r.replace p)
  | .load => (.loaded r.stored, r)

def act (r : ParamRegister) : FlashAction → Checked (Option StoreAnswer × ParamRegister)
  | .request q => .ok ((r.perform q).map some id)
  | .setFailing failing => .ok (none, { r with failing := failing })

end ParamRegister

/-! ## Sequences -/

section Sequences

variable {σ τ α β : Type}

/-- The answers to actions one after another, and the state after them. -/
def performAll (step : σ → α → Checked (β × σ)) (s : σ) : List α → Checked (List β × σ)
  | [] => .ok ([], s)
  | a :: rest => do
    let (b, s) ← step s a
    let (bs, s) ← performAll step s rest
    return (b :: bs, s)

theorem performAll_cons {step : σ → α → Checked (β × σ)} {s s' s'' : σ} {a : α} {rest : List α}
    {b : β} {bs : List β} (h : step s a = .ok (b, s'))
    (hrest : performAll step s' rest = .ok (bs, s'')) :
    performAll step s (a :: rest) = .ok (b :: bs, s'') := by
  rw [performAll, h]
  change (performAll step s' rest >>= fun t => .ok (b :: t.1, t.2)) = _
  rw [hrest]
  rfl

/-- Two machines that answer alike, step by step, answer alike. -/
theorem performAll_related {f : σ → α → Checked (β × σ)} {g : τ → α → Checked (β × τ)}
    {R : σ → τ → Prop}
    (hstep : ∀ s t a, R s t → ∃ b s' t', f s a = .ok (b, s') ∧ g t a = .ok (b, t') ∧ R s' t')
    {s : σ} {t : τ} (h : R s t) (actions : List α) : ∃ bs s' t',
      performAll f s actions = .ok (bs, s') ∧ performAll g t actions = .ok (bs, t') ∧ R s' t' := by
  induction actions generalizing s t with
  | nil => exact ⟨[], s, t, rfl, rfl, h⟩
  | cons a rest ih =>
    obtain ⟨b, s', t', hf, hg, h'⟩ := hstep s t a h
    obtain ⟨bs, s'', t'', hfs, hgs, h''⟩ := ih h'
    exact ⟨b :: bs, s'', t'', performAll_cons hf hfs, performAll_cons hg hgs, h''⟩

/-- What every step keeps holds after all of them. -/
theorem performAll_invariant {f : σ → α → Checked (β × σ)} {I : σ → Prop}
    (hstep : ∀ s a, I s → ∃ b s', f s a = .ok (b, s') ∧ I s') {s : σ} (h : I s)
    (actions : List α) : ∃ bs s', performAll f s actions = .ok (bs, s') ∧ I s' := by
  obtain ⟨bs, s', -, hs, -, -, h'⟩ := performAll_related (f := f) (g := f)
    (R := fun s t => s = t ∧ I s) (fun s t a ⟨hst, hs⟩ => by
      subst hst
      obtain ⟨b, s', hf, h'⟩ := hstep s a hs
      exact ⟨b, s', s', hf, hf, rfl, h'⟩) ⟨rfl, h⟩ actions
  exact ⟨bs, s', hs, h'⟩

end Sequences

/-! ## Lengths -/

section

variable {length grain : Nat}

theorem dvd_roundUp (length grain : Nat) : grain ∣ roundUp length grain := Nat.dvd_mul_left _ _

theorem le_roundUp (hgrain : 0 < grain) : length ≤ roundUp length grain := by
  have hrest := Nat.mod_lt (length + grain - 1) hgrain
  have hsplit := Nat.div_add_mod' (length + grain - 1) grain
  unfold roundUp
  omega

theorem roundUp_le_of_dvd {n : Nat} (hgrain : 0 < grain) (hlength : length ≤ n) (hn : grain ∣ n) :
    roundUp length grain ≤ n := by
  obtain ⟨k, rfl⟩ := hn
  have hlt : (length + grain - 1) / grain < k + 1 := by
    rw [Nat.div_lt_iff_lt_mul hgrain, Nat.mul_comm, Nat.mul_succ]
    omega
  rw [Nat.mul_comm]
  exact Nat.mul_le_mul_right grain (Nat.le_of_lt_succ hlt)

/-- Rounding up makes a length longer that is no multiple. -/
theorem roundUp_le_self_iff (hgrain : 0 < grain) : roundUp length grain ≤ length ↔ grain ∣ length := by
  constructor
  · intro hle
    rw [← le_antisymm hle (le_roundUp hgrain)]
    exact dvd_roundUp length grain
  · exact roundUp_le_of_dvd hgrain le_rfl

end

/-! ## Regions -/

namespace FlashStore

variable {s : FlashStore} {p : TuningParams}

/-- A store over a memory of the usual grains, in a region whose end is an address. -/
structure Standard (s : FlashStore) : Prop where
  flash_grain : s.flash.grain = .standard
  store_grain : s.grain = .standard
  addressable : s.offset + 512 < UInt32.size

/-- The region begins at a sector and lies inside the memory. -/
def Fits (s : FlashStore) : Prop := s.offset % 512 = 0 ∧ s.offset + 512 ≤ s.flash.cells.size

/-- The bytes that a record is read from. -/
def region (s : FlashStore) : List UInt8 :=
  (s.flash.cells.extract s.offset (s.offset + Record.size)).toList

/-- The store as whoever uses it sees it. -/
def register (s : FlashStore) : ParamRegister := ⟨Record.decode s.region, s.flash.failing⟩

theorem Fits.le_size (h : s.Fits) : s.offset + Record.size ≤ s.flash.cells.size := by
  have hinside := h.2
  rw [Record.size]
  omega

theorem getElem?_region (hinside : s.offset + Record.size ≤ s.flash.cells.size) {i : Nat}
    (hi : i < Record.size) : s.region[i]? = s.flash.cells[s.offset + i]? := by
  rw [region, Array.getElem?_toList, Array.getElem?_extract, if_pos (by omega)]

/-- A record is read from any region that reads can begin at, if they can be as long as a record. -/
theorem load_eq_of_grain (hgrain : s.flash.grain.read = s.grain.read) (hread : 0 < s.grain.read)
    (hinside : s.offset + Record.size ≤ s.flash.cells.size) :
    s.load = if s.grain.read ∣ Record.size ∧ s.grain.read ∣ s.offset then Record.decode s.region
      else .error (.medium .notAligned) := by
  have hcovers : s.flash.covers s.offset Record.size = true := Flash.covers_iff.mpr hinside
  rw [load]
  by_cases hsize : s.grain.read ∣ Record.size
  · have hlength : roundUp Record.size s.grain.read = Record.size :=
      le_antisymm ((roundUp_le_self_iff hread).mpr hsize) (le_roundUp hread)
    rw [hlength, if_neg (lt_irrefl _), Flash.read, hgrain, if_pos hcovers]
    by_cases hoffset : s.grain.read ∣ s.offset
    · rw [if_pos ⟨Nat.mod_eq_zero_of_dvd hoffset, Nat.mod_eq_zero_of_dvd hsize⟩,
        if_pos ⟨hsize, hoffset⟩]
      rfl
    · rw [if_neg fun h => hoffset (Nat.dvd_of_mod_eq_zero h.1), if_neg fun h => hoffset h.2]
      rfl
  · rw [if_pos (not_le.mp fun hle => hsize ((roundUp_le_self_iff hread).mp hle)),
      if_neg fun h => hsize h.1]

theorem load_eq (hs : s.Standard) (h : s.Fits) : s.load = Record.decode s.region := by
  have hread : s.grain.read = 1 := by
    rw [hs.store_grain]
    rfl
  rw [load_eq_of_grain (by rw [hs.flash_grain, hs.store_grain]) (by rw [hread]; decide) h.le_size,
    hread, if_pos ⟨one_dvd _, one_dvd _⟩]

/-! ## Saving -/

/-- The bytes that a set is written as. -/
def image (p : TuningParams) : List UInt8 := (Record.bytes p ++ blank.drop 102).take 104

@[simp] theorem length_image (p : TuningParams) : (image p).length = 104 := by
  rw [image, List.length_take, List.length_append, Record.length_bytes]
  rfl

/-- A record that has room in its region after rounding replaces what the region holds. -/
theorem save_eq_of_grain {stop : Nat} (hstop : s.offset + roundUp Record.size s.grain.erase = stop)
    (haddressable : stop < UInt32.size) :
    s.save p = .ok (if Record.size < roundUp 102 s.grain.write then (.error (.medium .notAligned), s)
      else s.replace stop
        ((Record.bytes p ++ blank.drop 102).take (roundUp 102 s.grain.write))) := by
  rw [save, Record.encode_eq]
  simp only [hstop, if_pos haddressable]
  split_ifs <;> rfl

theorem save_eq (hs : s.Standard) : s.save p = .ok (s.replace (s.offset + 512) (image p)) := by
  have hwrite : roundUp 102 s.grain.write = 104 := by
    rw [hs.store_grain]
    rfl
  have herase : roundUp Record.size s.grain.erase = 512 := by
    rw [hs.store_grain]
    rfl
  rw [save_eq_of_grain (by rw [herase]) hs.addressable, hwrite, if_neg (by decide), image]

theorem replace_of_failing (h : s.flash.failing = true) (stop : Nat) (bytes : List UInt8) :
    s.replace stop bytes = (.error (.medium .other), s) := by
  rw [replace, Flash.erase, if_pos h]
  rfl

theorem replace_of_not_fits (hs : s.Standard) (h : ¬s.Fits) (bytes : List UInt8) :
    ∃ e, s.replace (s.offset + 512) bytes = (.error (.medium e), s) := by
  by_cases hfailing : s.flash.failing = true
  · exact ⟨.other, replace_of_failing hfailing _ _⟩
  · rw [replace, Flash.erase, if_neg hfailing, hs.flash_grain, FlashGrain.standard]
    dsimp only
    by_cases haligned : s.offset % 512 = 0
    · have hcovers : s.flash.covers s.offset (s.offset + 512 - s.offset) ≠ true := by
        rw [Ne, Flash.covers_iff]
        intro hle
        exact h ⟨haligned, by omega⟩
      rw [if_neg (by omega), if_neg hcovers]
      exact ⟨.outOfBounds, rfl⟩
    · rw [if_pos (by omega)]
      exact ⟨.notAligned, rfl⟩

/-- The cells after a set has been saved. -/
def saved (s : FlashStore) (p : TuningParams) : Array UInt8 :=
  Flash.writeCells (Flash.eraseCells s.flash.cells s.offset (s.offset + 512)) s.offset
    (image p).toArray

/-- The store with other cells in its memory. -/
def withCells (s : FlashStore) (cells : Array UInt8) : FlashStore :=
  { s with flash := s.flash.withCells cells }

/-- Erasing succeeds where it begins and ends with a sector. Writing is refused at an address that is
no multiple of a word, and the region stays erased then. -/
theorem replace_eq {stop : Nat} {bytes : List UInt8} (hfailing : s.flash.failing = false)
    (hstart : s.offset % s.flash.grain.erase = 0) (hstop : stop % s.flash.grain.erase = 0)
    (hbytes : s.offset + bytes.length ≤ stop) (hinside : stop ≤ s.flash.cells.size)
    (hlength : bytes.length % s.flash.grain.write = 0) :
    s.replace stop bytes =
      if s.offset % s.flash.grain.write = 0 then
        (.ok (), s.withCells (Flash.writeCells (Flash.eraseCells s.flash.cells s.offset stop) s.offset
          bytes.toArray))
      else (.error (.medium .notAligned),
        s.withCells (Flash.eraseCells s.flash.cells s.offset stop)) := by
  rw [replace, Flash.erase_eq hfailing hstart hstop (by omega) hinside]
  dsimp only
  split_ifs with hoffset
  · rw [Flash.write_eq]
    · rfl
    · exact hfailing
    · exact hoffset
    · exact hlength
    · rw [Flash.cells_withCells, Flash.size_eraseCells]
      omega
  · rw [Flash.write_of_not_aligned]
    · rfl
    · exact hfailing
    · exact hoffset

theorem replace_of_fits (hs : s.Standard) (h : s.Fits) (hfailing : s.flash.failing = false) :
    s.replace (s.offset + 512) (image p) = (.ok (), s.withCells (s.saved p)) := by
  obtain ⟨haligned, hinside⟩ := h
  -- A sector is made of words.
  have hwords : s.offset % s.flash.grain.write = 0 := by
    rw [hs.flash_grain]
    exact Nat.mod_eq_zero_of_dvd (dvd_trans (by decide) (Nat.dvd_of_mod_eq_zero haligned))
  rw [replace_eq hfailing, if_pos hwords, saved]
  · rw [hs.flash_grain]
    exact haligned
  · rw [hs.flash_grain]
    exact (Nat.add_mod_right _ _).trans haligned
  · rw [length_image]
    omega
  · exact hinside
  · rw [hs.flash_grain, length_image]
    rfl

@[simp] theorem size_saved (s : FlashStore) (p : TuningParams) :
    (s.saved p).size = s.flash.cells.size := by
  rw [saved, Flash.size_writeCells, Flash.size_eraseCells]

theorem getElem?_saved_of_outside {i : Nat} (h : i < s.offset ∨ s.offset + 512 ≤ i) :
    (s.saved p)[i]? = s.flash.cells[i]? := by
  rw [saved, Flash.getElem?_writeCells_of_outside, Flash.getElem?_eraseCells_of_not_mem (by omega)]
  rw [List.size_toArray, length_image]
  omega

theorem Fits.withCells (h : s.Fits) {cells : Array UInt8} (hsize : cells.size = s.flash.cells.size) :
    (s.withCells cells).Fits := by
  refine ⟨h.1, ?_⟩
  rw [FlashStore.withCells, Flash.cells_withCells, hsize]
  exact h.2

/-- What is written to the front of the region is read from there. -/
theorem prefix_region_rewritten {stop : Nat} {bytes : List UInt8}
    (hbytes : bytes.length ≤ Record.size) (hstop : s.offset + Record.size ≤ stop)
    (hinside : stop ≤ s.flash.cells.size) :
    bytes <+: (s.withCells (Flash.writeCells (Flash.eraseCells s.flash.cells s.offset stop) s.offset
      bytes.toArray)).region := by
  obtain ⟨t, ht⟩ : ∃ t, t = s.withCells (Flash.writeCells
      (Flash.eraseCells s.flash.cells s.offset stop) s.offset bytes.toArray) := ⟨_, rfl⟩
  have hsize : t.offset + Record.size ≤ t.flash.cells.size := by
    rw [ht, withCells, Flash.cells_withCells, Flash.size_writeCells, Flash.size_eraseCells]
    exact hstop.trans hinside
  rw [← ht, List.prefix_iff_eq_take]
  apply List.ext_getElem?
  intro i
  by_cases hi : i < bytes.length
  · rw [List.getElem?_take_of_lt hi, getElem?_region hsize (by omega), ht]
    exact (Flash.getElem?_rewritten hi (by omega) (by omega)).symm
  · rw [List.getElem?_take_eq_none (by omega), List.getElem?_eq_none (by omega)]

/-- A region that a record has been written to reads as its set. -/
theorem decode_region_rewritten {stop n : Nat} (hn : 102 ≤ n) (hn' : n ≤ Record.size)
    (hstop : s.offset + Record.size ≤ stop) (hinside : stop ≤ s.flash.cells.size) :
    Record.decode (s.withCells (Flash.writeCells (Flash.eraseCells s.flash.cells s.offset stop)
      s.offset ((Record.bytes p ++ blank.drop 102).take n).toArray)).region
        = if p.isValid then .ok p else .error .useDefaults := by
  obtain ⟨rest, hregion⟩ := prefix_region_rewritten
    ((List.length_take_le n (Record.bytes p ++ blank.drop 102)).trans hn') hstop hinside
  rw [← hregion, Record.take_written p hn, List.append_assoc]
  exact Record.decode_of_carries (Record.carries_bytes p _)

/-! ## Steps -/

/-- A store in a region that it can use. -/
structure Placed (s : FlashStore) : Prop extends Standard s where
  fits : s.Fits

theorem Standard.withCells (h : s.Standard) (cells : Array UInt8) : (s.withCells cells).Standard :=
  ⟨h.flash_grain, h.store_grain, h.addressable⟩

theorem Placed.save_saved (h : s.Placed) (p : TuningParams) : (s.withCells (s.saved p)).Placed :=
  ⟨h.toStandard.withCells _, h.fits.withCells (s.size_saved p)⟩

theorem Placed.save_eq (h : s.Placed) (p : TuningParams) : s.save p
    = .ok (if s.flash.failing then (.error (.medium .other), s)
      else (.ok (), s.withCells (s.saved p))) := by
  rw [FlashStore.save_eq h.toStandard]
  split_ifs with hfailing
  · rw [replace_of_failing hfailing]
  · rw [replace_of_fits h.toStandard h.fits (Bool.eq_false_of_not_eq_true hfailing)]

theorem Placed.register_saved (h : s.Placed) (p : TuningParams) :
    (s.withCells (s.saved p)).register = s.register.replace p := by
  have hdecode := decode_region_rewritten (s := s) (p := p) (n := 104) (by decide) (by decide)
    (by rw [Record.size]; omega) h.fits.2
  rw [register]
  exact congrArg (fun stored => ParamRegister.mk stored s.flash.failing) hdecode

/-- A request is answered as the register answers it. -/
theorem Placed.perform_eq (h : s.Placed) (r : StoreRequest) : ∃ s',
    r.perform s = .ok ((s.register.perform r).1, s') ∧ s'.register = (s.register.perform r).2 ∧
      s'.Placed ∧ s'.offset = s.offset := by
  cases r with
  | load =>
    refine ⟨s, ?_, rfl, h, rfl⟩
    change Except.ok (StoreAnswer.loaded s.load, s) = _
    rw [load_eq h.toStandard h.fits]
    rfl
  | save p =>
    have hsave := h.save_eq p
    have hperform : (StoreRequest.save p).perform s
        = s.save p >>= fun t => .ok (t.map .saved id) := rfl
    rw [hperform, hsave, ParamRegister.perform, show s.register.failing = s.flash.failing from rfl]
    split_ifs with hfailing
    · exact ⟨s, rfl, rfl, h, rfl⟩
    · exact ⟨_, rfl, h.register_saved p, h.save_saved p, rfl⟩

theorem Placed.act_eq (h : s.Placed) (a : FlashAction) : ∃ answer s',
    s.act a = .ok (answer, s') ∧ s.register.act a = .ok (answer, s'.register) ∧
      s'.Placed ∧ s'.offset = s.offset := by
  cases a with
  | request r =>
    obtain ⟨s', hperform, hregister, hplaced, hoffset⟩ := h.perform_eq r
    refine ⟨some (s.register.perform r).1, s', ?_, ?_, hplaced, hoffset⟩
    · rw [act, hperform]
      rfl
    · rw [hregister]
      rfl
  | setFailing failing =>
    exact ⟨none, _, rfl, rfl, ⟨⟨h.flash_grain, h.store_grain, h.addressable⟩, h.fits⟩, rfl⟩

theorem Placed.performAll_eq (h : s.Placed) (actions : List FlashAction) : ∃ answers s',
    performAll act s actions = .ok (answers, s') ∧
      performAll ParamRegister.act s.register actions = .ok (answers, s'.register) ∧
      s'.Placed ∧ s'.offset = s.offset := by
  have hstep : ∀ (t : FlashStore) (r : ParamRegister) (a : FlashAction),
      t.register = r ∧ t.Placed ∧ t.offset = s.offset → ∃ answer t' r',
        t.act a = .ok (answer, t') ∧ r.act a = .ok (answer, r') ∧
          t'.register = r' ∧ t'.Placed ∧ t'.offset = s.offset := by
    rintro t r a ⟨rfl, ht, hoffset⟩
    obtain ⟨answer, t', hact, hregister, ht', hoffset'⟩ := ht.act_eq a
    exact ⟨answer, t', t'.register, hact, hregister, rfl, ht', hoffset'.trans hoffset⟩
  obtain ⟨answers, s', r', hrun, hregister, rfl, hplaced, hoffset⟩ :=
    performAll_related hstep ⟨rfl, h, rfl⟩ actions
  exact ⟨answers, s', hrun, hregister, hplaced, hoffset⟩

/-! ## Other regions -/

/-- A store elsewhere refuses every set and stays as it is. -/
theorem Standard.save_elsewhere (hs : s.Standard) (h : ¬s.Fits) (p : TuningParams) :
    ∃ e, s.save p = .ok (.error (.medium e), s) := by
  obtain ⟨e, he⟩ := replace_of_not_fits hs h (image p)
  exact ⟨e, by rw [save_eq hs, he]⟩

theorem Standard.perform_elsewhere (hs : s.Standard) (h : ¬s.Fits) (r : StoreRequest) :
    ∃ answer, r.perform s = .ok (answer, s) := by
  cases r with
  | load => exact ⟨_, rfl⟩
  | save p =>
    obtain ⟨e, he⟩ := hs.save_elsewhere h p
    have hperform : (StoreRequest.save p).perform s
        = s.save p >>= fun t => .ok (t.map .saved id) := rfl
    rw [hperform, he]
    exact ⟨_, rfl⟩

theorem Standard.performAll_elsewhere (hs : s.Standard) (h : ¬s.Fits)
    (actions : List FlashAction) : ∃ answers s', performAll act s actions = .ok (answers, s') ∧
      s'.Standard ∧ ¬s'.Fits ∧ s'.flash.cells = s.flash.cells := by
  have hstep : ∀ (t : FlashStore) (a : FlashAction),
      t.Standard ∧ ¬t.Fits ∧ t.flash.cells = s.flash.cells → ∃ answer t',
        t.act a = .ok (answer, t') ∧ t'.Standard ∧ ¬t'.Fits ∧ t'.flash.cells = s.flash.cells := by
    rintro t a ⟨ht, hfits, hcells⟩
    cases a with
    | setFailing failing =>
      exact ⟨none, _, rfl, ⟨ht.flash_grain, ht.store_grain, ht.addressable⟩, hfits, hcells⟩
    | request r =>
      obtain ⟨answer, hperform⟩ := ht.perform_elsewhere hfits r
      refine ⟨some answer, t, ?_, ht, hfits, hcells⟩
      rw [act, hperform]
      rfl
  exact performAll_invariant hstep ⟨hs, h, rfl⟩ actions

end FlashStore

namespace MemoryStore

def register (m : MemoryStore) : ParamRegister := ⟨m.load, false⟩

theorem perform_eq (m : MemoryStore) (r : StoreRequest) : ∃ m' : MemoryStore,
    r.perform m = .ok ((m.register.perform r).1, m') ∧
      m'.register = (m.register.perform r).2 := by
  cases r with
  | load => exact ⟨m, rfl, rfl⟩
  | save p =>
    refine ⟨⟨some ((Record.bytes p ++ FlashStore.blank.drop 102).take 102), m.saves + 1⟩, ?_, ?_⟩
    · change Except.ok ((m.save p).map StoreAnswer.saved id) = _
      rw [save, Record.encode_eq]
      rfl
    · rw [register, load]
      dsimp only
      rw [Record.decode_take_written le_rfl]
      rfl

end MemoryStore

/-- A store in an erased memory. -/
def FlashStore.fresh (capacity offset : Nat) : FlashStore :=
  ⟨Flash.new capacity, offset, .standard⟩

theorem FlashStore.register_fresh {capacity offset : Nat} (h : (fresh capacity offset).Fits) :
    (fresh capacity offset).register = MemoryStore.register {} := by
  have herased : (fresh capacity offset).region = blank := by
    have hinside := h.2
    rw [fresh, Flash.new, Array.size_replicate] at hinside
    rw [region, fresh, Flash.new, Array.extract_replicate, Array.toList_replicate, blank, Record.size]
    congr 1
    omega
  rw [register, herased]
  rfl

/-- What a save does to the cells. -/
theorem FlashStore.Placed.save_frame {s : FlashStore} (h : s.Placed) (p : TuningParams) :
    ∃ result s', s.save p = .ok (result, s') ∧
      ((∃ e, result = .error e) ↔ s.flash.failing = true) ∧
      ((∃ e, result = .error e) → s'.flash.cells = s.flash.cells) ∧
      s'.flash.capacity = s.flash.capacity ∧
      ∀ i, i < s.offset ∨ s.offset + 512 ≤ i → s'.flash.cells[i]? = s.flash.cells[i]? := by
  have hsave := h.save_eq p
  cases hfailing : s.flash.failing with
  | true =>
    rw [hfailing, if_pos rfl] at hsave
    exact ⟨_, _, hsave, ⟨fun _ => rfl, fun _ => ⟨_, rfl⟩⟩, fun _ => rfl, rfl, fun _ _ => rfl⟩
  | false =>
    rw [hfailing, if_neg Bool.false_ne_true] at hsave
    refine ⟨_, _, hsave, ⟨fun ⟨e, he⟩ => ?_, fun h => ?_⟩, fun ⟨e, he⟩ => ?_, s.size_saved p,
      fun i hi => getElem?_saved_of_outside hi⟩
    · cases he
    · cases h
    · cases he

theorem performAll_fresh {capacity offset : Nat} (h : (FlashStore.fresh capacity offset).Placed)
    (requests : List StoreRequest) : ∃ answers s' m',
      performAll StoreRequest.perform (FlashStore.fresh capacity offset) requests
        = .ok (answers, s') ∧
      performAll StoreRequest.perform ({} : MemoryStore) requests = .ok (answers, m') := by
  have hstep : ∀ (s : FlashStore) (m : MemoryStore) (r : StoreRequest),
      s.Placed ∧ s.register = m.register → ∃ answer s' m',
        r.perform s = .ok (answer, s') ∧ r.perform m = .ok (answer, m') ∧
          s'.Placed ∧ s'.register = m'.register := by
    rintro s m r ⟨hs, hsm⟩
    obtain ⟨s', hflash, hs', hplaced, -⟩ := hs.perform_eq r
    obtain ⟨m', hmemory, hm'⟩ := m.perform_eq r
    rw [← hsm] at hmemory hm'
    exact ⟨_, s', m', hflash, hmemory, hplaced, hs'.trans hm'.symm⟩
  obtain ⟨answers, s', m', hflash, hmemory, -⟩ :=
    performAll_related hstep ⟨h, FlashStore.register_fresh h.fits⟩ requests
  exact ⟨answers, s', m', hflash, hmemory⟩

/-- Stores as registers, after any actions. A store in its region answers as the register that starts
from what its memory holds, and each save then fails if and only if the memory does, changing nothing,
and otherwise changes the region only. A store elsewhere refuses every set and changes nothing. A
store in memory answers as one in an erased flash memory. -/
theorem stores_refine_register :
    (∀ s : FlashStore, s.Placed → ∀ actions : List FlashAction, ∃ answers s',
      performAll FlashStore.act s actions = .ok (answers, s') ∧
      performAll ParamRegister.act s.register actions = .ok (answers, s'.register) ∧
      (∀ p, ∃ result s'', s'.save p = .ok (result, s'') ∧
        ((∃ e, result = .error e) ↔ s'.flash.failing = true) ∧
        ((∃ e, result = .error e) → s''.flash.cells = s'.flash.cells) ∧
        s''.flash.capacity = s'.flash.capacity ∧
        ∀ i, i < s.offset ∨ s.offset + 512 ≤ i → s''.flash.cells[i]? = s'.flash.cells[i]?) ∧
      StoreRequest.load.perform s' = .ok (.loaded s'.register.stored, s')) ∧
    (∀ s : FlashStore, s.Standard → ¬s.Fits → ∀ actions : List FlashAction, ∃ answers s',
      performAll FlashStore.act s actions = .ok (answers, s') ∧
      s'.flash.cells = s.flash.cells ∧
      ∀ p, ∃ e, s'.save p = .ok (.error (.medium e), s')) ∧
    ∀ (capacity offset : Nat), (FlashStore.fresh capacity offset).Placed →
      ∀ requests : List StoreRequest, ∃ answers s' m',
        performAll StoreRequest.perform (FlashStore.fresh capacity offset) requests
          = .ok (answers, s') ∧
        performAll StoreRequest.perform ({} : MemoryStore) requests = .ok (answers, m') := by
  refine ⟨fun s hs actions => ?_, fun s hs hfits actions => ?_, fun capacity offset hs requests =>
    performAll_fresh hs requests⟩
  · obtain ⟨answers, s', hrun, hregister, hplaced, hoffset⟩ := hs.performAll_eq actions
    refine ⟨answers, s', hrun, hregister, ?_, ?_⟩
    · rw [← hoffset]
      exact hplaced.save_frame
    · change Except.ok (StoreAnswer.loaded s'.load, s') = _
      rw [FlashStore.load_eq hplaced.toStandard hplaced.fits]
      rfl
  · obtain ⟨answers, s', hrun, hs', hfits', hcells⟩ := hs.performAll_elsewhere hfits actions
    exact ⟨answers, s', hrun, hcells, hs'.save_elsewhere hfits'⟩

/-- A save over bytes that are not erased, and one that fails after it; the same set at an address
that is no sector, and in memory. -/
theorem stores_refine_register_twice :
    (∃ s', performAll FlashStore.act ⟨⟨Array.replicate 1024 0, false, .standard⟩, 512, .standard⟩
        [.request (.save {}), .setFailing true, .request (.save default), .request .load]
      = .ok ([some (.saved (.ok ())), none, some (.saved (.error (.medium .other))),
          some (.loaded (.ok {}))], s')) ∧
    (∃ answers s', performAll FlashStore.act
        ⟨⟨Array.replicate 1024 0, false, .standard⟩, 100, .standard⟩ [.request (.save {})]
      = .ok (answers, s') ∧ s'.flash.cells = Array.replicate 1024 0) ∧
    ∃ answers s' m',
      performAll StoreRequest.perform (FlashStore.fresh 1024 512) [.save {}, .load]
        = .ok (answers, s') ∧
      performAll StoreRequest.perform ({} : MemoryStore) [.save {}, .load] = .ok (answers, m') := by
  obtain ⟨hplaced, helsewhere, hfresh⟩ := stores_refine_register
  refine ⟨?_, ?_, ?_⟩
  · obtain ⟨answers, s', hrun, hregister, -⟩ := hplaced
      ⟨⟨Array.replicate 1024 0, false, .standard⟩, 512, .standard⟩
      ⟨⟨rfl, rfl, by decide⟩, by decide, by decide +kernel⟩
      [.request (.save {}), .setFailing true, .request (.save default), .request .load]
    have hvalid : TuningParams.isValid {} = true := by decide +kernel
    have hanswers : ∀ stored, (performAll ParamRegister.act ⟨stored, false⟩
        [.request (.save {}), .setFailing true, .request (.save default), .request .load]).map
          Prod.fst = .ok [some (.saved (.ok ())), none, some (.saved (.error (.medium .other))),
            some (.loaded (if TuningParams.isValid {} then .ok {} else .error .useDefaults))] :=
      fun _ => rfl
    have hthese := hanswers (Record.decode (FlashStore.region
      ⟨⟨Array.replicate 1024 0, false, .standard⟩, 512, .standard⟩))
    rw [FlashStore.register] at hregister
    rw [hregister, if_pos hvalid] at hthese
    obtain rfl := Except.ok.inj hthese
    exact ⟨s', hrun⟩
  · obtain ⟨answers, s', hrun, hcells, -⟩ := helsewhere
      ⟨⟨Array.replicate 1024 0, false, .standard⟩, 100, .standard⟩ ⟨rfl, rfl, by decide⟩
      (fun h => absurd h.1 (by decide)) [.request (.save {})]
    exact ⟨answers, s', hrun, hcells⟩
  · exact hfresh 1024 512 ⟨⟨rfl, rfl, by decide⟩, by decide, by decide +kernel⟩ [.save {}, .load]

end Quadrotor

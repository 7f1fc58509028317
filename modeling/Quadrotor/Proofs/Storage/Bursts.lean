import Mathlib
import Quadrotor.Storage.Checksum

/-!
# Bursts and the checksum

A burst is damage to a few consecutive bits. The digest is worked out here one bit at a time, which
does away with the borders between bytes: the difference of two messages of one length is a message
of its own, and its digest is the difference of theirs. Before the window of a burst that difference
is zero, the window of up to eight bits makes it something else, and no later bit brings it back to
zero.
-/

namespace Quadrotor.Checksum

/-! ## Zero bits -/

/-- The remainder after one more zero bit, as a vector of bits. -/
def advance (r : BitVec 8) : BitVec 8 :=
  (r <<< 1) ^^^ if r.msb then polynomial.toBitVec else 0#8

theorem shift_toBitVec (r : UInt8) : (shift r).toBitVec = advance r.toBitVec := by
  have hbit : ∀ v : BitVec 8, v &&& 0x80#8 = 0#8 ↔ v.msb = false := by decide
  have hr : r &&& 0x80 = 0 ↔ r.toBitVec.msb = false := by
    rw [← UInt8.toBitVec_inj]
    exact hbit r.toBitVec
  unfold shift advance
  cases hmsb : r.toBitVec.msb with
  | false =>
    rw [if_pos (hr.mpr hmsb), if_neg (by decide), BitVec.xor_zero]
    rfl
  | true =>
    rw [if_neg (by rw [hr, hmsb]; decide), if_pos rfl]
    rfl

theorem advance_xor (r s : BitVec 8) : advance (r ^^^ s) = advance r ^^^ advance s := by
  have hpoly : ∀ a b : Bool, (if (a ^^ b) then polynomial.toBitVec else 0#8)
      = (if a then polynomial.toBitVec else 0#8) ^^^ if b then polynomial.toBitVec else 0#8 := by
    decide
  unfold advance
  rw [BitVec.msb_xor, BitVec.shiftLeft_xor_distrib, hpoly]
  ac_rfl

/-- The polynomial ends in a one, so nothing but zero becomes zero. -/
theorem eq_zero_of_advance : ∀ {r : BitVec 8}, advance r = 0#8 → r = 0#8 := by
  decide

/-- The remainder after so many more zero bits. -/
def advances : Nat → BitVec 8 → BitVec 8
  | 0, r => r
  | n + 1, r => advances n (advance r)

theorem shifts_toBitVec (n : Nat) (r : UInt8) : (shifts n r).toBitVec = advances n r.toBitVec := by
  induction n generalizing r with
  | zero => rfl
  | succ n ih => rw [shifts, advances, ih, shift_toBitVec]

theorem eq_zero_of_advances {n : Nat} {r : BitVec 8} (h : advances n r = 0#8) : r = 0#8 := by
  induction n generalizing r with
  | zero => exact h
  | succ n ih => exact eq_zero_of_advance (ih h)

theorem advances_zero (n : Nat) : advances n 0#8 = 0#8 := by
  induction n with
  | zero => rfl
  | succ n ih => exact ih

theorem step_toBitVec (d x : UInt8) :
    (step d x).toBitVec = advances 8 (d.toBitVec ^^^ x.toBitVec) := by
  have hindex : UInt8.ofNat (d ^^^ x).toNat = d ^^^ x := UInt8.ofNat_toNat
  rw [step, table, Vector.get_ofFn, hindex, shifts_toBitVec, UInt8.toBitVec_xor]

/-- A digest takes away itself. -/
theorem step_self (d : UInt8) : step d d = 0 := by
  rw [← UInt8.toBitVec_inj, step_toBitVec, BitVec.xor_self, advances_zero]
  rfl

theorem digest_concat_digest (bytes : List UInt8) : digest (bytes ++ [digest bytes]) = 0 := by
  rw [digest, extend, List.foldl_concat]
  exact step_self _

/-! ## Any bits -/

/-- The remainder after one more bit. -/
def feed (r : BitVec 8) (bit : Bool) : BitVec 8 := advance (r ^^^ if bit then 0x80#8 else 0#8)

/-- Up to eight bits as one vector, the first of them on top. -/
def pack : List Bool → BitVec 8
  | [] => 0#8
  | bit :: bits => (if bit then 0x80#8 else 0#8) ^^^ (pack bits >>> 1)

theorem getMsbD_pack (bits : List Bool) {i : Nat} (hi : i < 8) :
    (pack bits).getMsbD i = bits.getD i false := by
  induction bits generalizing i with
  | nil => simp [pack]
  | cons bit bits ih =>
    have htop : ∀ b : Bool, ∀ i : Fin 8, (if b then 0x80#8 else 0#8).getMsbD i
        = if i.val = 0 then b else false := by decide
    rw [pack, BitVec.getMsbD_xor, htop bit ⟨i, hi⟩, BitVec.getMsbD_ushiftRight]
    cases i with
    | zero => simp
    | succ i => simp [ih (show i < 8 by omega), hi]

/-- With a place left at the bottom, a packed vector is one that has just been advanced. -/
theorem advance_pack {bits : List Bool} (h : bits.length < 8) :
    advance (pack bits >>> 1) = pack bits := by
  have hmsb : (pack bits >>> 1).msb = false := by
    rw [BitVec.msb_ushiftRight]
    rfl
  unfold advance
  rw [hmsb, if_neg (by decide), BitVec.xor_zero]
  apply BitVec.eq_of_getMsbD_eq
  intro i hi
  rw [BitVec.getMsbD_shiftLeft, BitVec.getMsbD_ushiftRight]
  by_cases hlast : i + 1 < 8
  · simp [hlast]
  · rw [getMsbD_pack bits hi, List.getD_eq_default _ _ (by omega)]
    simp [hlast]

theorem foldl_feed {bits : List Bool} (h : bits.length ≤ 8) (r : BitVec 8) :
    bits.foldl feed r = advances bits.length (r ^^^ pack bits) := by
  induction bits generalizing r with
  | nil => simp [pack, advances]
  | cons bit bits ih =>
    rw [List.length_cons] at h
    have hpack := advance_pack (show bits.length < 8 by omega)
    rw [List.foldl_cons, ih (by omega), List.length_cons, advances, pack, feed,
      ← BitVec.xor_assoc, advance_xor (r ^^^ _), hpack]

/-- The bits of a byte, from the most significant one on. -/
def byteBits (x : UInt8) : List Bool := (List.range 8).map x.toBitVec.getMsbD

@[simp] theorem length_byteBits (x : UInt8) : (byteBits x).length = 8 := by
  rw [byteBits, List.length_map, List.length_range]

theorem getElem?_byteBits (x : UInt8) {i : Nat} (hi : i < 8) :
    (byteBits x)[i]? = some (x.toBitVec.getMsbD i) := by
  rw [byteBits, List.getElem?_map, List.getElem?_range hi, Option.map_some]

theorem pack_byteBits (x : UInt8) : pack (byteBits x) = x.toBitVec := by
  apply BitVec.eq_of_getMsbD_eq
  intro i hi
  rw [getMsbD_pack _ hi, List.getD_eq_getElem?_getD, getElem?_byteBits x hi, Option.getD_some]

theorem foldl_feed_byteBits (d x : UInt8) :
    (byteBits x).foldl feed d.toBitVec = (step d x).toBitVec := by
  rw [foldl_feed (length_byteBits x).le, length_byteBits, pack_byteBits, step_toBitVec]

/-- The bits of bytes, those of each byte from the most significant one on. -/
def bits (bytes : List UInt8) : List Bool := bytes.flatMap byteBits

@[simp] theorem bits_cons (x : UInt8) (bytes : List UInt8) :
    bits (x :: bytes) = byteBits x ++ bits bytes := rfl

theorem foldl_feed_bits (bytes : List UInt8) (d : UInt8) :
    (bits bytes).foldl feed d.toBitVec = (extend d bytes).toBitVec := by
  induction bytes generalizing d with
  | nil => rfl
  | cons x bytes ih =>
    rw [bits_cons, List.foldl_append, foldl_feed_byteBits, ih, extend, extend, List.foldl_cons]

@[simp] theorem length_bits (bytes : List UInt8) : (bits bytes).length = 8 * bytes.length := by
  induction bytes with
  | nil => rfl
  | cons x bytes ih =>
    rw [bits_cons, List.length_append, length_byteBits, List.length_cons, ih]
    omega

/-- The bit at a place of a message, counted in bits. -/
theorem getElem?_bits (bytes : List UInt8) (k : Nat) :
    (bits bytes)[k]? = bytes[k / 8]?.map fun x => x.toBitVec.getMsbD (k % 8) := by
  induction bytes generalizing k with
  | nil => rfl
  | cons x bytes ih =>
    rw [bits_cons]
    by_cases hk : k < 8
    · rw [List.getElem?_append_left (by rw [length_byteBits]; exact hk), getElem?_byteBits x hk,
        Nat.div_eq_of_lt hk, Nat.mod_eq_of_lt hk]
      rfl
    · obtain ⟨j, rfl⟩ : ∃ j, k = j + 8 := ⟨k - 8, by omega⟩
      rw [List.getElem?_append_right (by rw [length_byteBits]; omega), length_byteBits,
        Nat.add_sub_cancel, ih, Nat.add_div_right j (by decide), Nat.add_mod_right,
        List.getElem?_cons_succ]

/-! ## Differences -/

/-- The bits in which two messages differ. -/
def difference (a b : List Bool) : List Bool := List.zipWith xor a b

theorem foldl_feed_difference {a b : List Bool} (h : a.length = b.length) (r s : BitVec 8) :
    (difference a b).foldl feed (r ^^^ s) = a.foldl feed r ^^^ b.foldl feed s := by
  induction a generalizing b r s with
  | nil =>
    obtain rfl : b = [] := List.length_eq_zero_iff.mp h.symm
    rfl
  | cons x a ih =>
    cases b with
    | nil => cases h
    | cons y b =>
      have htop : (if (x ^^ y) then 0x80#8 else 0#8)
          = (if x then 0x80#8 else 0#8) ^^^ if y then 0x80#8 else 0#8 := by
        cases x <;> cases y <;> rfl
      have hfeed : feed (r ^^^ s) (x ^^ y) = feed r x ^^^ feed s y := by
        unfold feed
        rw [htop, ← advance_xor]
        congr 1
        ac_rfl
      change (difference a b).foldl feed (feed (r ^^^ s) (x ^^ y)) = _
      rw [hfeed, ih (Nat.succ.inj h)]
      rfl

theorem eq_of_difference {a b : List Bool} (h : a.length = b.length)
    (hfalse : ∀ x ∈ difference a b, x = false) : a = b := by
  induction a generalizing b with
  | nil => exact (List.length_eq_zero_iff.mp h.symm).symm
  | cons x a ih =>
    cases b with
    | nil => cases h
    | cons y b =>
      obtain ⟨hxy, hrest⟩ := List.forall_mem_cons.mp hfalse
      rw [ih (Nat.succ.inj h) hrest, Bool.xor_right_inj.mp (hxy.trans (Bool.xor_self x).symm)]

theorem foldl_feed_false {bits : List Bool} (h : ∀ b ∈ bits, b = false) (r : BitVec 8) :
    bits.foldl feed r = advances bits.length r := by
  induction bits generalizing r with
  | nil => rfl
  | cons bit bits ih =>
    obtain ⟨rfl, hrest⟩ := List.forall_mem_cons.mp h
    rw [List.foldl_cons, ih hrest, List.length_cons, advances, feed, if_neg (by decide),
      BitVec.xor_zero]

/-- Of a message without bits beyond a window of eight, only the message of zeros has the digest
zero. -/
theorem eq_false_of_digest_zero {bits : List Bool} {start : Nat}
    (hwindow : ∀ k, bits[k]? = some true → start ≤ k ∧ k < start + 8)
    (h : bits.foldl feed 0#8 = 0#8) : ∀ b ∈ bits, b = false := by
  have hfalse : ∀ k b, bits[k]? = some b → ¬(start ≤ k ∧ k < start + 8) → b = false := by
    intro k b hk hout
    by_contra hb
    rw [Bool.not_eq_false] at hb
    exact hout (hwindow k (hb ▸ hk))
  have hbefore : ∀ b ∈ bits.take start, b = false := by
    intro b hb
    obtain ⟨k, hk⟩ := List.mem_iff_getElem?.mp hb
    rw [List.getElem?_take] at hk
    split_ifs at hk with hlt
    exact hfalse k b hk (by omega)
  have hafter : ∀ b ∈ bits.drop (start + 8), b = false := by
    intro b hb
    obtain ⟨k, hk⟩ := List.mem_iff_getElem?.mp hb
    rw [List.getElem?_drop] at hk
    exact hfalse _ b hk (by omega)
  obtain ⟨w, hw⟩ : ∃ w, w = (bits.drop start).take 8 := ⟨_, rfl⟩
  have hsplit : bits = bits.take start ++ w ++ bits.drop (start + 8) := by
    rw [hw, List.append_assoc, ← List.drop_drop, List.take_append_drop, List.take_append_drop]
  have hlength : w.length ≤ 8 := by
    rw [hw]
    exact List.length_take_le _ _
  have hwfold : w.foldl feed 0#8 = 0#8 := by
    rw [hsplit, List.foldl_append, List.foldl_append, foldl_feed_false hbefore, advances_zero,
      foldl_feed_false hafter] at h
    exact eq_zero_of_advances h
  have hpack : pack w = 0#8 := by
    rw [foldl_feed hlength, BitVec.zero_xor] at hwfold
    exact eq_zero_of_advances hwfold
  have hin : ∀ b ∈ w, b = false := by
    intro b hb
    obtain ⟨k, hk⟩ := List.mem_iff_getElem?.mp hb
    have hk8 : k < 8 := lt_of_lt_of_le (List.getElem?_eq_some_iff.mp hk).1 hlength
    have hbit := getMsbD_pack w hk8
    rw [hpack, BitVec.getMsbD_zero, List.getD_eq_getElem?_getD, hk, Option.getD_some] at hbit
    exact hbit.symm
  intro b hb
  rw [hsplit, List.mem_append, List.mem_append] at hb
  rcases hb with (hb | hb) | hb
  · exact hbefore b hb
  · exact hin b hb
  · exact hafter b hb

/-! ## Bursts -/

/-- Two messages of one length differ at most in a window of eight bits. -/
structure Burst (a b : List UInt8) : Prop where
  length_eq : a.length = b.length
  window : ∃ start, ∀ k, (bits a)[k]? ≠ (bits b)[k]? → start ≤ k ∧ k < start + 8

theorem Burst.take {a b : List UInt8} (h : Burst a b) (n : Nat) : Burst (a.take n) (b.take n) := by
  obtain ⟨start, hwindow⟩ := h.window
  refine ⟨by rw [List.length_take, List.length_take, h.length_eq], start, fun k hk => hwindow k ?_⟩
  rw [getElem?_bits, getElem?_bits, List.getElem?_take, List.getElem?_take] at hk
  rw [getElem?_bits, getElem?_bits]
  split_ifs at hk with hlt
  · exact hk
  · exact absurd rfl hk

/-- One byte replaced by another is a burst. -/
theorem burst_set (a : List UInt8) (i : Nat) (x : UInt8) : Burst a (a.set i x) := by
  refine ⟨List.length_set.symm, 8 * i, fun k hk => ?_⟩
  rw [getElem?_bits, getElem?_bits] at hk
  by_cases hplace : i = k / 8
  · omega
  · rw [List.getElem?_set_ne hplace] at hk
    exact absurd rfl hk

/-- A byte that differs has a bit that does. -/
theorem exists_bit_ne {a b : List UInt8} {i : Nat} (h : a[i]? ≠ b[i]?) :
    ∃ k, k / 8 = i ∧ (bits a)[k]? ≠ (bits b)[k]? := by
  by_contra hno
  push Not at hno
  apply h
  have hbits : ∀ j < 8, a[i]?.map (fun x => x.toBitVec.getMsbD j)
      = b[i]?.map fun x => x.toBitVec.getMsbD j := by
    intro j hj
    have hk := hno (8 * i + j) (by omega)
    rw [getElem?_bits, getElem?_bits, show (8 * i + j) / 8 = i by omega,
      show (8 * i + j) % 8 = j by omega] at hk
    exact hk
  cases ha : a[i]? with
  | none =>
    cases hb : b[i]? with
    | none => rfl
    | some y =>
      have h0 := hbits 0 (by decide)
      rw [ha, hb] at h0
      cases h0
  | some x =>
    cases hb : b[i]? with
    | none =>
      have h0 := hbits 0 (by decide)
      rw [ha, hb] at h0
      cases h0
    | some y =>
      rw [ha, hb] at hbits
      rw [Option.some_inj, ← UInt8.toBitVec_inj]
      exact BitVec.eq_of_getMsbD_eq fun j hj => Option.some_inj.mp (hbits j hj)

theorem eq_of_bits_eq {a b : List UInt8} (h : bits a = bits b) : a = b := by
  apply List.ext_getElem?
  intro i
  by_contra hne
  obtain ⟨k, -, hk⟩ := exists_bit_ne hne
  exact hk (by rw [h])

/-- Two bytes of one burst are neighbours, or the same. -/
theorem Burst.neighbours {a b : List UInt8} (h : Burst a b) {i j : Nat} (hi : a[i]? ≠ b[i]?)
    (hj : a[j]? ≠ b[j]?) : i ≤ j + 1 := by
  obtain ⟨start, hwindow⟩ := h.window
  obtain ⟨k, hk, hkne⟩ := exists_bit_ne hi
  obtain ⟨l, hl, hlne⟩ := exists_bit_ne hj
  have := hwindow k hkne
  have := hwindow l hlne
  omega

/-- No burst leaves the digest as it was. -/
theorem Burst.eq_of_digest_eq {a b : List UInt8} (h : Burst a b) (hd : digest a = digest b) :
    a = b := by
  obtain ⟨start, hwindow⟩ := h.window
  have hlength : (bits a).length = (bits b).length := by
    rw [length_bits, length_bits, h.length_eq]
  have hzero : (difference (bits a) (bits b)).foldl feed 0#8 = 0#8 := by
    have hfold := foldl_feed_difference hlength 0#8 0#8
    have ha := foldl_feed_bits a 0
    have hb := foldl_feed_bits b 0
    rw [digest, digest] at hd
    rw [UInt8.toBitVec_zero] at ha hb
    rwa [ha, hb, hd, BitVec.xor_self, BitVec.xor_self] at hfold
  have hdiff : ∀ k, (difference (bits a) (bits b))[k]? = some true → start ≤ k ∧ k < start + 8 := by
    intro k hk
    obtain ⟨x, y, hx, hy, hxy⟩ := List.getElem?_zipWith_eq_some.mp hk
    refine hwindow k fun heq => ?_
    rw [hx, hy, Option.some_inj] at heq
    rw [heq, Bool.xor_self] at hxy
    cases hxy
  exact eq_of_bits_eq (eq_of_difference hlength (eq_false_of_digest_zero hdiff hzero))

end Quadrotor.Checksum

import Mathlib
import Quadrotor.Proofs.Checks
import Quadrotor.Proofs.Scalar.Fields
import Quadrotor.Storage.Record

/-!
# Layout of the payload

Everything in a payload but its two flags is made of scalars and has a fixed length. Reading such a
part takes that many bytes whatever they are, and gives back what was written. The other way round,
what has been read is written as the same bytes unless a scalar is a NaN, which has one encoding here
and many in a stored record.
-/

namespace Quadrotor.Payload

/-! ## Words -/

/-- The word of four bytes, the least significant first. -/
def word (a b c d : UInt8) : UInt32 :=
  a.toUInt32 ||| b.toUInt32 <<< 8 ||| c.toUInt32 <<< 16 ||| d.toUInt32 <<< 24

theorem word_wordBytes (w : UInt32) :
    word w.toUInt8 (w >>> 8).toUInt8 (w >>> 16).toUInt8 (w >>> 24).toUInt8 = w := by
  rw [← UInt32.toBitVec_inj]
  apply BitVec.eq_of_getLsbD_eq
  intro i hi
  simp only [word, UInt32.toBitVec_or, UInt8.toBitVec_toUInt32, UInt32.toBitVec_toUInt8,
    UInt32.toBitVec_shiftLeft, UInt32.toBitVec_shiftRight, UInt32.toBitVec_ofNat,
    BitVec.ofNat_eq_ofNat, BitVec.reduceMod, BitVec.ushiftRight_eq', BitVec.toNat_ofNat,
    Nat.reducePow, Nat.reduceMod, BitVec.shiftLeft_eq', hi, BitVec.getLsbD_eq_getElem,
    BitVec.getElem_or, BitVec.getElem_setWidth, BitVec.getLsbD_setWidth, BitVec.getElem_shiftLeft,
    BitVec.getLsbD_ushiftRight]
  grind

theorem wordBytes_word (a b c d : UInt8) : wordBytes (word a b c d) = [a, b, c, d] := by
  have hbyte : ∀ {x y : UInt8}, (∀ i < 8, x.toBitVec.getLsbD i = y.toBitVec.getLsbD i) → x = y :=
    fun h => UInt8.toBitVec_inj.mp (BitVec.eq_of_getLsbD_eq h)
  simp only [wordBytes, List.cons.injEq, and_true]
  refine ⟨hbyte ?_, hbyte ?_, hbyte ?_, hbyte ?_⟩
  all_goals
    intro i hi
    simp only [word, UInt32.toBitVec_or, UInt8.toBitVec_toUInt32, UInt32.toBitVec_toUInt8,
      UInt32.toBitVec_shiftLeft, UInt32.toBitVec_shiftRight, UInt32.toBitVec_ofNat,
      BitVec.ofNat_eq_ofNat, BitVec.reduceMod, BitVec.ushiftRight_eq', BitVec.toNat_ofNat,
      Nat.reducePow, Nat.reduceMod, BitVec.shiftLeft_eq', BitVec.getLsbD_or,
      BitVec.getLsbD_setWidth, BitVec.getLsbD_shiftLeft, BitVec.getLsbD_ushiftRight]
    grind

/-! ## Scalars -/

/-- A reader and a writer of parts of one length. A part that is `plain` is written as the bytes that
it has been read from. -/
structure Layout {α : Type} (size : Nat) (read : Reader α) (write : α → List UInt8)
    (plain : α → Prop) : Prop where
  length_write : ∀ a, (write a).length = size
  read_write : ∀ a rest, read (write a ++ rest) = .ok (a, rest)
  read_long : ∀ bytes : List UInt8, size ≤ bytes.length →
    ∃ a, read bytes = .ok (a, bytes.drop size) ∧ (plain a → write a = bytes.take size)
  read_short : ∀ bytes : List UInt8, bytes.length < size → ∃ e, read bytes = .error e

theorem layout_scalar : Layout 4 readScalar scalarBytes fun x => x.isNaN = false where
  length_write _ := rfl
  read_write x rest := by
    have hread : readScalar (scalarBytes x ++ rest)
        = .ok (Float32.ofBits (word x.toBits.toUInt8 (x.toBits >>> 8).toUInt8
          (x.toBits >>> 16).toUInt8 (x.toBits >>> 24).toUInt8), rest) := rfl
    rw [hread, word_wordBytes, Float32.ofBits_toBits]
  read_long bytes h := by
    match bytes, h with
    | a :: b :: c :: d :: rest, _ =>
      refine ⟨Float32.ofBits (word a b c d), rfl, fun hplain => ?_⟩
      rw [scalarBytes, Scalar.toBits_ofBits hplain, wordBytes_word]
      rfl
  read_short bytes h := by
    match bytes, h with
    | [], _ | [_], _ | [_, _], _ | [_, _, _], _ => exact ⟨.unexpectedEnd, rfl⟩

/-! ## Parts in sequence -/

section Sequence

variable {α β : Type} {bytes rest : List UInt8} {a : α} {e : EncodingError}

theorem bind_of_ok {r : Reader α} {f : α → Reader β} (h : r bytes = .ok (a, rest)) :
    (r >>= f) bytes = f a rest := by
  change (r bytes >>= fun p => f p.1 p.2) = _
  rw [h]
  rfl

theorem bind_of_error {r : Reader α} {f : α → Reader β} (h : r bytes = .error e) :
    (r >>= f) bytes = .error e := by
  change (r bytes >>= fun p => f p.1 p.2) = _
  rw [h]
  rfl

/-- One part and then another. -/
def both (r : Reader α) (s : Reader β) : Reader (α × β) := do return (← r, ← s)

variable {m n : Nat} {r : Reader α} {s : Reader β} {v : α → List UInt8} {w : β → List UInt8}
  {P : α → Prop} {Q : β → Prop}

theorem Layout.both (h : Layout m r v P) (k : Layout n s w Q) :
    Layout (m + n) (both r s) (fun t => v t.1 ++ w t.2) fun t => P t.1 ∧ Q t.2 where
  length_write t := by rw [List.length_append, h.length_write, k.length_write]
  read_write t rest := by
    rw [List.append_assoc, Payload.both, bind_of_ok (h.read_write _ _),
      bind_of_ok (k.read_write _ _)]
    rfl
  read_long bytes hlong := by
    obtain ⟨a, ha, hv⟩ := h.read_long bytes (by omega)
    obtain ⟨b, hb, hw⟩ := k.read_long (bytes.drop m) (by rw [List.length_drop]; omega)
    refine ⟨(a, b), ?_, fun hplain => ?_⟩
    · rw [Payload.both, bind_of_ok ha, bind_of_ok hb, List.drop_drop]
      rfl
    · rw [hv hplain.1, hw hplain.2, List.take_add]
  read_short bytes hshort := by
    by_cases hm : bytes.length < m
    · obtain ⟨e, he⟩ := h.read_short bytes hm
      exact ⟨e, bind_of_error he⟩
    · obtain ⟨a, ha, -⟩ := h.read_long bytes (by omega)
      obtain ⟨e, he⟩ := k.read_short (bytes.drop m) (by rw [List.length_drop]; omega)
      refine ⟨e, ?_⟩
      rw [Payload.both, bind_of_ok ha]
      exact bind_of_error he

/-- The same part under another type. -/
theorem Layout.map (h : Layout m r v P) (f : α ≃ β) :
    Layout m (f <$> r) (fun b => v (f.symm b)) fun b => P (f.symm b) where
  length_write b := h.length_write _
  read_write b rest := by
    rw [map_eq_pure_bind, bind_of_ok (h.read_write _ _), f.apply_symm_apply]
    rfl
  read_long bytes hlong := by
    obtain ⟨a, ha, hv⟩ := h.read_long bytes hlong
    refine ⟨f a, ?_, ?_⟩
    · rw [map_eq_pure_bind, bind_of_ok ha]
      rfl
    · rw [f.symm_apply_apply]
      exact hv
  read_short bytes hshort := by
    obtain ⟨e, he⟩ := h.read_short bytes hshort
    exact ⟨e, by rw [map_eq_pure_bind]; exact bind_of_error he⟩

end Sequence

/-! ## Gains and triples -/

def gainsEquiv : (Scalar × Scalar) × Scalar ≃ Gains where
  toFun t := ⟨t.1.1, t.1.2, t.2⟩
  invFun g := ((g.kp, g.ki), g.kd)

def tripleEquiv (α : Type) : (α × α) × α ≃ Triple α where
  toFun t := ⟨t.1.1, t.1.2, t.2⟩
  invFun t := ((t.x, t.y), t.z)

theorem readGains_eq : readGains = gainsEquiv <$> both (both readScalar readScalar) readScalar := by
  simp [readGains, both, gainsEquiv]

theorem readTriple_eq {α : Type} (r : Reader α) :
    readTriple r = tripleEquiv α <$> both (both r r) r := by
  simp [readTriple, both, tripleEquiv]

def PlainGains (g : Gains) : Prop := (g.kp.isNaN = false ∧ g.ki.isNaN = false) ∧ g.kd.isNaN = false

def PlainTriple {α : Type} (plain : α → Prop) (t : Triple α) : Prop :=
  (plain t.x ∧ plain t.y) ∧ plain t.z

theorem layout_gains : Layout 12 readGains gainsBytes PlainGains := by
  rw [readGains_eq]
  exact ((layout_scalar.both layout_scalar).both layout_scalar).map gainsEquiv

theorem Layout.triple {α : Type} {size : Nat} {read : Reader α} {write : α → List UInt8}
    {plain : α → Prop} (h : Layout size read write plain) :
    Layout (size + size + size) (readTriple read) (tripleBytes write) (PlainTriple plain) := by
  rw [readTriple_eq]
  exact ((h.both h).both h).map (tripleEquiv α)

/-! ## Parameter sets -/

/-- The scalars of a parameter set: gains, trims and offsets. -/
abbrev Scalars := ((Triple Gains × Triple Gains) × Scalar × Scalar) × Triple Scalar

def scalarsOf (p : TuningParams) : Scalars :=
  (((p.profileA, p.profileB), p.trims.roll, p.trims.pitch), p.accOffsets)

/-- The parameter set of scalars and flags. -/
def withFlags (s : Scalars) (lvcEnabled yawInverted : Bool) : TuningParams :=
  ⟨s.1.1.1, s.1.1.2, ⟨s.1.2.1, s.1.2.2⟩, s.2, lvcEnabled, yawInverted⟩

@[simp] theorem scalarsOf_withFlags (s : Scalars) (lvcEnabled yawInverted : Bool) :
    scalarsOf (withFlags s lvcEnabled yawInverted) = s := rfl

def readScalars : Reader Scalars :=
  both (both (both (readTriple readGains) (readTriple readGains)) (both readScalar readScalar))
    (readTriple readScalar)

def scalarsBytes (s : Scalars) : List UInt8 :=
  tripleBytes gainsBytes s.1.1.1 ++ tripleBytes gainsBytes s.1.1.2 ++
    (scalarBytes s.1.2.1 ++ scalarBytes s.1.2.2) ++ tripleBytes scalarBytes s.2

/-- No scalar of the set is a NaN. -/
def PlainScalars (s : Scalars) : Prop :=
  ((PlainTriple PlainGains s.1.1.1 ∧ PlainTriple PlainGains s.1.1.2) ∧
    s.1.2.1.isNaN = false ∧ s.1.2.2.isNaN = false) ∧ PlainTriple (fun x => x.isNaN = false) s.2

theorem layout_scalars : Layout 92 readScalars scalarsBytes PlainScalars :=
  ((layout_gains.triple.both layout_gains.triple).both (layout_scalar.both layout_scalar)).both
    layout_scalar.triple

theorem plainScalars_of_isValid {p : TuningParams} (h : p.isValid = true) :
    PlainScalars (scalarsOf p) := by
  have hgains : ∀ g : Gains, g.isValid = true → PlainGains g := by
    intro g hg
    simp only [Gains.isValid, Bool.and_eq_true, Scalar.isNonneg_iff] at hg
    exact ⟨⟨Scalar.isNaN_of_isFinite hg.1.1.1, Scalar.isNaN_of_isFinite hg.1.2.1⟩,
      Scalar.isNaN_of_isFinite hg.2.1⟩
  have hoffset : ∀ x : Scalar, TuningParams.isOffset x = true → x.isNaN = false := by
    intro x hx
    rw [TuningParams.isOffset, Bool.and_eq_true] at hx
    exact Scalar.isNaN_of_isFinite hx.1
  have htriple : ∀ {α : Type} {test : α → Bool} {plain : α → Prop} (t : Triple α),
      (∀ a, test a = true → plain a) → t.all test = true → PlainTriple plain t := by
    intro α test plain t hplain ht
    rw [Triple.all, Bool.and_eq_true, Bool.and_eq_true] at ht
    exact ⟨⟨hplain _ ht.1.1, hplain _ ht.1.2⟩, hplain _ ht.2⟩
  rw [TuningParams.isValid, Bool.and_eq_true, Bool.and_eq_true, Bool.and_eq_true, Tilt.all,
    Bool.and_eq_true] at h
  obtain ⟨⟨⟨ha, hb⟩, hroll, hpitch⟩, hacc⟩ := h
  exact ⟨⟨⟨htriple _ hgains ha, htriple _ hgains hb⟩, hoffset _ hroll, hoffset _ hpitch⟩,
    htriple _ hoffset hacc⟩

/-! ## Flags -/

/-- The byte of a flag, at a place that there is. -/
def IsFlag (b : Option UInt8) : Prop := b = some 0 ∨ b = some 1

theorem isFlag_iff {b : Option UInt8} : IsFlag b ↔ ∃ flag, b = some (flagByte flag) := by
  constructor
  · rintro (h | h)
    · exact ⟨false, h⟩
    · exact ⟨true, h⟩
  · rintro ⟨flag, h⟩
    cases flag
    · exact Or.inl h
    · exact Or.inr h

theorem readFlag_flagByte (flag : Bool) (rest : List UInt8) :
    readFlag (flagByte flag :: rest) = .ok (flag, rest) := by
  cases flag <;> rfl

theorem readFlag_error {bytes : List UInt8} (h : ¬IsFlag bytes[0]?) :
    ∃ e, readFlag bytes = .error e := by
  cases bytes with
  | nil => exact ⟨.unexpectedEnd, rfl⟩
  | cons b rest =>
    refine ⟨.badEncoding, ?_⟩
    rw [List.getElem?_cons_zero, IsFlag, Option.some_inj, Option.some_inj, not_or] at h
    have hbyte : readByte (b :: rest) = .ok (b, rest) := rfl
    rw [readFlag, bind_of_ok hbyte]
    split
    · exact absurd rfl h.1
    · exact absurd rfl h.2
    · rfl

/-- The two flags that follow the scalars. -/
def readFlags (s : Scalars) : Reader TuningParams := do
  let lvcEnabled ← readFlag
  let yawInverted ← readFlag
  return withFlags s lvcEnabled yawInverted

theorem readFlags_ok (s : Scalars) (lvcEnabled yawInverted : Bool) (rest : List UInt8) :
    readFlags s (flagByte lvcEnabled :: flagByte yawInverted :: rest)
      = .ok (withFlags s lvcEnabled yawInverted, rest) := by
  rw [readFlags, bind_of_ok (readFlag_flagByte _ _), bind_of_ok (readFlag_flagByte _ _)]
  rfl

theorem readFlags_error {bytes : List UInt8} (s : Scalars)
    (h : ¬(IsFlag bytes[0]? ∧ IsFlag bytes[1]?)) : ∃ e, readFlags s bytes = .error e := by
  by_cases h0 : IsFlag bytes[0]?
  · obtain ⟨flag, hflag⟩ := isFlag_iff.mp h0
    cases bytes with
    | nil => cases hflag
    | cons b rest =>
      obtain rfl : b = flagByte flag := Option.some_inj.mp hflag
      have h1 : ¬IsFlag rest[0]? := fun h1 => h ⟨h0, h1⟩
      obtain ⟨e, he⟩ := readFlag_error h1
      refine ⟨e, ?_⟩
      rw [readFlags, bind_of_ok (readFlag_flagByte _ _)]
      exact bind_of_error he
  · obtain ⟨e, he⟩ := readFlag_error h0
    exact ⟨e, bind_of_error he⟩

/-! ## Payloads -/

theorem readParams_eq : readParams = readScalars >>= readFlags := by
  simp [readParams, readScalars, readFlags, both, withFlags]

theorem encode_eq (p : TuningParams) : encode p =
    scalarsBytes (scalarsOf p) ++ [flagByte p.lvcEnabled, flagByte p.yawInverted] := by
  simp [encode, scalarsBytes, scalarsOf]

@[simp] theorem length_encode (p : TuningParams) : (encode p).length = 94 := by
  rw [encode_eq, List.length_append, layout_scalars.length_write]
  rfl

/-- What follows a payload does not matter. -/
theorem decode_encode (p : TuningParams) (rest : List UInt8) : decode (encode p ++ rest) = .ok p := by
  have hread : readParams (encode p ++ rest) = .ok (p, rest) := by
    rw [readParams_eq, encode_eq, List.append_assoc, bind_of_ok (layout_scalars.read_write _ _)]
    exact readFlags_ok _ _ _ _
  rw [decode, StateT.run, hread]
  rfl

/-- The bytes are long enough for a payload, and its flags are flags. -/
def Wellformed (bytes : List UInt8) : Prop :=
  94 ≤ bytes.length ∧ IsFlag bytes[92]? ∧ IsFlag bytes[93]?

theorem decode_of_wellformed {bytes : List UInt8} (h : Wellformed bytes) : ∃ p,
    decode bytes = .ok p ∧ (p.isValid = true → encode p = bytes.take 94) := by
  obtain ⟨hlength, h92, h93⟩ := h
  obtain ⟨s, hs, hwrite⟩ := layout_scalars.read_long bytes (by omega)
  obtain ⟨lvcEnabled, hlvc⟩ := isFlag_iff.mp h92
  obtain ⟨yawInverted, hyaw⟩ := isFlag_iff.mp h93
  have hdrop : bytes.drop 92 = flagByte lvcEnabled :: flagByte yawInverted :: bytes.drop 94 := by
    obtain ⟨h1, hlvc⟩ := List.getElem?_eq_some_iff.mp hlvc
    obtain ⟨h2, hyaw⟩ := List.getElem?_eq_some_iff.mp hyaw
    rw [List.drop_eq_getElem_cons h1, List.drop_eq_getElem_cons h2, hlvc, hyaw]
  refine ⟨withFlags s lvcEnabled yawInverted, ?_, fun hvalid => ?_⟩
  · have hread : readParams bytes = .ok (withFlags s lvcEnabled yawInverted, bytes.drop 94) := by
      rw [readParams_eq, bind_of_ok hs, hdrop]
      exact readFlags_ok _ _ _ _
    rw [decode, StateT.run, hread]
    rfl
  · have hplain := plainScalars_of_isValid hvalid
    rw [scalarsOf_withFlags] at hplain
    have htake : bytes.take 94 = bytes.take 92 ++ (bytes.drop 92).take 2 := by rw [← List.take_add]
    rw [encode_eq, scalarsOf_withFlags, htake, hwrite hplain, hdrop]
    rfl

theorem decode_of_not_wellformed {bytes : List UInt8} (h : ¬Wellformed bytes) :
    ∃ e, decode bytes = .error e := by
  have hread : ∃ e, readParams bytes = .error e := by
    rw [readParams_eq]
    by_cases hlength : bytes.length < 92
    · obtain ⟨e, he⟩ := layout_scalars.read_short bytes hlength
      exact ⟨e, bind_of_error he⟩
    · obtain ⟨s, hs, -⟩ := layout_scalars.read_long bytes (by omega)
      rw [bind_of_ok hs]
      refine readFlags_error s fun hflags => h ?_
      rw [List.getElem?_drop, List.getElem?_drop] at hflags
      refine ⟨?_, hflags⟩
      obtain ⟨flag, hflag⟩ := isFlag_iff.mp hflags.2
      exact (List.getElem?_eq_some_iff.mp hflag).1
  obtain ⟨e, he⟩ := hread
  exact ⟨e, by rw [decode, StateT.run, he]; rfl⟩

end Quadrotor.Payload

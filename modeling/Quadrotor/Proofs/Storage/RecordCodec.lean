import Mathlib
import Quadrotor.Proofs.Storage.Payload

/-!
# Reading and writing records

What makes bytes a record is stated here by the places of its parts, next to a payload whose length
the header states. A reader accepts a payload that is longer than a parameter set, so a set has more
than one record; the writer writes one of them.
-/

namespace Quadrotor.Record

open Payload (IsFlag Wellformed)

/-! ## Parts of a record -/

/-- The length of the payload as the header states it. -/
def statedLength (bytes : List UInt8) : Nat :=
  (bytes.getD 5 0).toNat + 256 * (bytes.getD 6 0).toNat

/-- The bytes begin with a record, whatever its payload holds. -/
structure Intact (bytes : List UInt8) : Prop where
  magic_eq : bytes.take 4 = Payload.wordBytes magic
  version_eq : bytes[4]? = some version
  length_le : statedLength bytes ≤ 120
  complete : statedLength bytes + 8 ≤ bytes.length
  checksum_eq : bytes[7 + statedLength bytes]?
    = some (Checksum.digest (bytes.take (7 + statedLength bytes)))

/-- The bytes begin with a record whose payload begins with a parameter set. -/
structure Carries (bytes : List UInt8) (p : TuningParams) : Prop extends Intact bytes where
  le_length : 94 ≤ statedLength bytes
  payload_eq : bytes.extract 7 101 = Payload.encode p

/-- The bytes begin with a record whose payload does not begin with a parameter set. -/
def Malformed (bytes : List UInt8) : Prop :=
  Intact bytes ∧ ¬(94 ≤ statedLength bytes ∧ IsFlag bytes[99]? ∧ IsFlag bytes[100]?)

section

variable {bytes rest : List UInt8} {p q : TuningParams}

theorem Intact.eq_cons (h : Intact bytes) : ∃ l₀ l₁ rest, bytes
    = Payload.wordBytes magic ++ version :: l₀ :: l₁ :: rest ∧
      statedLength bytes = l₀.toNat + 256 * l₁.toNat := by
  have hlength : 7 ≤ bytes.length := by
    have := h.complete
    omega
  match bytes, hlength, h.magic_eq, h.version_eq with
  | m₀ :: m₁ :: m₂ :: m₃ :: v :: l₀ :: l₁ :: rest, _, hmagic, hversion =>
    obtain rfl : v = version := Option.some_inj.mp hversion
    refine ⟨l₀, l₁, rest, ?_, rfl⟩
    rw [← hmagic]
    rfl

theorem Intact.take_header (h : Intact bytes) : bytes.take 7 = header (statedLength bytes) := by
  obtain ⟨l₀, l₁, rest, rfl, hstated⟩ := h.eq_cons
  have hlow : (l₀.toNat + 256 * l₁.toNat).toUInt8 = l₀ := by
    rw [← UInt8.toNat_inj, UInt8.toNat_ofNat']
    have := l₀.toNat_lt
    omega
  have hhigh : ((l₀.toNat + 256 * l₁.toNat) / 256).toUInt8 = l₁ := by
    rw [show (l₀.toNat + 256 * l₁.toNat) / 256 = l₁.toNat by have := l₀.toNat_lt; omega]
    exact UInt8.ofNat_toNat
  rw [hstated, header, hlow, hhigh]
  rfl

/-! ## The payload -/

theorem payload?_of_intact (h : Intact bytes) :
    payload? bytes = some ((bytes.drop 7).take (statedLength bytes)) := by
  obtain ⟨l₀, l₁, rest, rfl, hstated⟩ := h.eq_cons
  have hlength := h.length_le
  have hcrc := h.checksum_eq
  rw [hstated] at hlength hcrc
  have hrest : rest[l₀.toNat + 256 * l₁.toNat]? = some (Checksum.digest
      ((Payload.wordBytes magic ++ version :: l₀ :: l₁ :: rest).take
        (headerLength + (l₀.toNat + 256 * l₁.toNat)))) := by
    rw [headerLength, ← hcrc, Nat.add_comm 7]
    rfl
  have hread : payload? (Payload.wordBytes magic ++ version :: l₀ :: l₁ :: rest)
      = some (rest.take (l₀.toNat + 256 * l₁.toNat)) := by
    rw [Payload.wordBytes] at hrest ⊢
    simp only [List.cons_append, List.nil_append] at hrest ⊢
    rw [payload?, if_pos ⟨rfl, rfl⟩]
    dsimp only
    rw [if_pos (show _ ≤ maxPayload from hlength), hrest]
    exact if_pos rfl
  rw [hread, hstated]
  rfl

theorem intact_of_payload? {payload : List UInt8} (h : payload? bytes = some payload) :
    Intact bytes := by
  match bytes, h with
  | m₀ :: m₁ :: m₂ :: m₃ :: v :: l₀ :: l₁ :: rest, h =>
    rw [payload?, Option.ite_none_right_eq_some] at h
    obtain ⟨⟨hmagic, rfl⟩, h⟩ := h
    dsimp only at h
    rw [Option.ite_none_right_eq_some] at h
    obtain ⟨hlength, h⟩ := h
    cases hcrc : rest[l₀.toNat + 256 * l₁.toNat]? with
    | none =>
      rw [hcrc] at h
      cases h
    | some crc =>
      rw [hcrc] at h
      dsimp only at h
      rw [Option.ite_none_right_eq_some] at h
      have hindex := (List.getElem?_eq_some_iff.mp hcrc).1
      refine ⟨hmagic, rfl, hlength, ?_, ?_⟩
      · change l₀.toNat + 256 * l₁.toNat + 8 ≤ rest.length + 7
        omega
      · change _ = some (Checksum.digest (List.take (headerLength + (l₀.toNat + 256 * l₁.toNat)) _))
        rw [h.1, ← hcrc]
        change _[7 + (l₀.toNat + 256 * l₁.toNat)]? = _
        rw [Nat.add_comm 7]
        rfl

/-! ## Reading -/

theorem decode_of_not_intact (h : ¬Intact bytes) : decode bytes = .error .useDefaults := by
  have hnone : payload? bytes = none :=
    Option.eq_none_iff_forall_ne_some.mpr fun _ hsome => h (intact_of_payload? hsome)
  rw [decode, hnone]

theorem take_payload (hlength : 94 ≤ statedLength bytes) :
    ((bytes.drop 7).take (statedLength bytes)).take 94 = bytes.extract 7 101 := by
  rw [List.take_take, min_eq_left hlength, List.extract_eq_take_drop]

/-- The payload of an intact record is a parameter set if it is long enough and its flags are
flags. -/
theorem Intact.wellformed_iff (h : Intact bytes) :
    Wellformed ((bytes.drop 7).take (statedLength bytes)) ↔
      94 ≤ statedLength bytes ∧ IsFlag bytes[99]? ∧ IsFlag bytes[100]? := by
  have hlength : ((bytes.drop 7).take (statedLength bytes)).length = statedLength bytes := by
    have := h.complete
    rw [List.length_take, List.length_drop]
    omega
  have hflag : ∀ i < statedLength bytes,
      ((bytes.drop 7).take (statedLength bytes))[i]? = bytes[7 + i]? := by
    intro i hi
    rw [List.getElem?_take_of_lt hi, List.getElem?_drop]
  rw [Wellformed, hlength]
  constructor
  · rintro ⟨h94, h92, h93⟩
    rw [hflag 92 (by omega)] at h92
    rw [hflag 93 (by omega)] at h93
    exact ⟨h94, h92, h93⟩
  · rintro ⟨h94, h99, h100⟩
    refine ⟨h94, ?_, ?_⟩
    · rw [hflag 92 (by omega)]
      exact h99
    · rw [hflag 93 (by omega)]
      exact h100

theorem decode_of_carries (h : Carries bytes p) :
    decode bytes = if p.isValid then .ok p else .error .useDefaults := by
  have hpayload : Payload.decode ((bytes.drop 7).take (statedLength bytes)) = .ok p := by
    rw [← List.take_append_drop 94 ((bytes.drop 7).take (statedLength bytes)),
      take_payload h.le_length, h.payload_eq]
    exact Payload.decode_encode p _
  rw [decode, payload?_of_intact h.toIntact]
  dsimp only
  rw [hpayload]

/-- What bytes read as. -/
theorem decode_cases (bytes : List UInt8) :
    (¬Malformed bytes ∧ ∃ p, p.isValid = true ∧ Carries bytes p ∧ decode bytes = .ok p) ∨
    (Malformed bytes ∧ ∃ e, decode bytes = .error (.encoding e)) ∨
    (¬Malformed bytes ∧ decode bytes = .error .useDefaults) := by
  by_cases hintact : Intact bytes
  · by_cases hwell : Wellformed ((bytes.drop 7).take (statedLength bytes))
    · have hparts := hintact.wellformed_iff.mp hwell
      have hno : ¬Malformed bytes := fun h => h.2 hparts
      obtain ⟨p, hdecode, hencode⟩ := Payload.decode_of_wellformed hwell
      by_cases hvalid : p.isValid = true
      · have hcarries : Carries bytes p :=
          ⟨hintact, hparts.1, by rw [hencode hvalid, take_payload hparts.1]⟩
        refine Or.inl ⟨hno, p, hvalid, hcarries, ?_⟩
        rw [decode_of_carries hcarries, if_pos hvalid]
      · refine Or.inr (Or.inr ⟨hno, ?_⟩)
        rw [decode, payload?_of_intact hintact]
        dsimp only
        rw [hdecode]
        exact if_neg hvalid
    · refine Or.inr (Or.inl ⟨⟨hintact, fun h => hwell (hintact.wellformed_iff.mpr h)⟩, ?_⟩)
      obtain ⟨e, he⟩ := Payload.decode_of_not_wellformed hwell
      refine ⟨e, ?_⟩
      rw [decode, payload?_of_intact hintact]
      dsimp only
      rw [he]
  · exact Or.inr (Or.inr ⟨fun h => hintact h.1, decode_of_not_intact hintact⟩)

theorem decode_eq_ok_iff : decode bytes = .ok p ↔ p.isValid = true ∧ Carries bytes p := by
  constructor
  · intro hok
    rcases decode_cases bytes with ⟨-, q, hvalid, hq, hdecode⟩ | ⟨-, e, he⟩ | ⟨-, hdefaults⟩
    · rw [hok] at hdecode
      cases hdecode
      exact ⟨hvalid, hq⟩
    · rw [hok] at he
      cases he
    · rw [hok] at hdefaults
      cases hdefaults
  · rintro ⟨hvalid, h⟩
    rw [decode_of_carries h, if_pos hvalid]

theorem decode_eq_encoding_iff :
    (∃ e, decode bytes = .error (.encoding e)) ↔ Malformed bytes := by
  rcases decode_cases bytes with ⟨hno, q, -, -, hdecode⟩ | ⟨hyes, he⟩ | ⟨hno, hdefaults⟩
  · refine iff_of_false ?_ hno
    rintro ⟨e, he⟩
    rw [hdecode] at he
    cases he
  · exact iff_of_true he hyes
  · refine iff_of_false ?_ hno
    rintro ⟨e, he⟩
    rw [hdefaults] at he
    cases he

/-! ## Writing -/

theorem bytes_eq (p : TuningParams) : Record.bytes p = sealed (header 94 ++ Payload.encode p) := by
  rw [Record.bytes, Payload.length_encode]

@[simp] theorem length_bytes (p : TuningParams) : (Record.bytes p).length = 102 := by
  rw [bytes_eq, sealed, List.length_append, List.length_append, Payload.length_encode]
  rfl

theorem bytes_append (p : TuningParams) (rest : List UInt8) : Record.bytes p ++ rest
    = header 94 ++ (Payload.encode p ++
      Checksum.digest (header 94 ++ Payload.encode p) :: rest) := by
  rw [bytes_eq, sealed, List.append_assoc, List.append_assoc]
  rfl

theorem statedLength_bytes (p : TuningParams) (rest : List UInt8) :
    statedLength (Record.bytes p ++ rest) = 94 := by
  rw [bytes_append]
  rfl

theorem carries_bytes (p : TuningParams) (rest : List UInt8) :
    Carries (Record.bytes p ++ rest) p := by
  have hstated := statedLength_bytes p rest
  refine ⟨⟨?_, ?_, by omega, ?_, ?_⟩, by omega, ?_⟩
  · rw [bytes_append]
    rfl
  · rw [bytes_append]
    rfl
  · rw [List.length_append, length_bytes]
    omega
  · have hfront : (header 94 ++ Payload.encode p).length = 101 := by
      rw [List.length_append, Payload.length_encode]
      rfl
    rw [hstated, bytes_append, ← List.append_assoc, List.take_left' hfront,
      List.getElem?_append_right hfront.le, hfront]
    rfl
  · rw [bytes_append, List.extract_eq_take_drop]
    change List.take 94 (Payload.encode p ++ _) = _
    exact List.take_left' (Payload.length_encode p)

/-- A record whose payload is no longer than the parameter set is the one that is written. -/
theorem Carries.take_eq (h : Carries bytes p) (hlength : statedLength bytes = 94) :
    bytes.take 102 = Record.bytes p := by
  have hheader := h.take_header
  have hcrc := h.checksum_eq
  have hpayload := h.payload_eq
  rw [hlength] at hheader hcrc
  have hfront : bytes.take 101 = header 94 ++ Payload.encode p := by
    rw [← hheader, ← hpayload, List.extract_eq_take_drop, ← List.take_add]
  rw [bytes_eq, sealed, ← hfront, List.take_add_one, hcrc]
  rfl

theorem encode_eq (p : TuningParams) (buffer : List UInt8) :
    encode p buffer = .ok (102, Record.bytes p ++ buffer.drop 102) := by
  rw [encode, Payload.length_encode, if_pos (by decide), length_bytes]

theorem take_written (p : TuningParams) {n : Nat} (hn : 102 ≤ n) :
    (Record.bytes p ++ rest).take n = Record.bytes p ++ rest.take (n - 102) := by
  rw [List.take_append, List.take_of_length_le (by rw [length_bytes]; exact hn), length_bytes]

/-- A record that has been cut off is not intact. -/
theorem not_intact_take (p : TuningParams) {n : Nat} (hn : n < 102) :
    ¬Intact ((Record.bytes p ++ rest).take n) := by
  intro hintact
  have hcomplete := hintact.complete
  have hlength : ((Record.bytes p ++ rest).take n).length ≤ n := List.length_take_le _ _
  have hheader : statedLength ((Record.bytes p ++ rest).take n) = 94 := by
    have h5 : ((Record.bytes p ++ rest).take n).getD 5 0 = (Record.bytes p ++ rest).getD 5 0 := by
      rw [List.getD_eq_getElem?_getD, List.getD_eq_getElem?_getD, List.getElem?_take_of_lt (by omega)]
    have h6 : ((Record.bytes p ++ rest).take n).getD 6 0 = (Record.bytes p ++ rest).getD 6 0 := by
      rw [List.getD_eq_getElem?_getD, List.getD_eq_getElem?_getD, List.getElem?_take_of_lt (by omega)]
    rw [statedLength, h5, h6]
    exact statedLength_bytes p rest
  omega

theorem decode_take_written {n : Nat} (hn : 102 ≤ n) :
    decode ((Record.bytes p ++ rest).take n) = if p.isValid then .ok p else .error .useDefaults := by
  rw [take_written p hn]
  exact decode_of_carries (carries_bytes p _)

/-- A set that has been read is written with the payload it has been read from, and as the same
record if the payload held nothing else. -/
theorem Carries.rewritten (h : Carries bytes p) :
    (Record.bytes p ++ rest).extract 7 101 = bytes.extract 7 101 ∧
      ((Record.bytes p ++ rest).take 102 = bytes.take 102 ↔ statedLength bytes = 94) := by
  have hwritten := carries_bytes p rest
  have hfront := hwritten.take_eq (statedLength_bytes p rest)
  refine ⟨by rw [hwritten.payload_eq, h.payload_eq], ?_, ?_⟩
  · intro hsame
    have hget : ∀ i < 102, bytes.getD i 0 = (Record.bytes p ++ rest).getD i 0 := by
      intro i hi
      rw [List.getD_eq_getElem?_getD, List.getD_eq_getElem?_getD, ← List.getElem?_take_of_lt hi,
        ← hsame, List.getElem?_take_of_lt hi]
    rw [statedLength, hget 5 (by decide), hget 6 (by decide)]
    exact statedLength_bytes p rest
  · intro hlength
    rw [hfront, h.take_eq hlength]

end

/-- Which bytes read as which set or as which error, what the writer does to a buffer, and what
reading and writing again leaves as it was. -/
theorem codec_exact :
    (∀ bytes : List UInt8,
      (∀ p, decode bytes = .ok p ↔ p.isValid = true ∧ Carries bytes p) ∧
      ((∃ e, decode bytes = .error (.encoding e)) ↔ Intact bytes ∧
        (statedLength bytes < 94 ∨ ¬IsFlag bytes[99]? ∨ ¬IsFlag bytes[100]?)) ∧
      ((∀ p, decode bytes ≠ .ok p) → (∀ e, decode bytes ≠ .error (.encoding e)) →
        decode bytes = .error .useDefaults)) ∧
    (∀ (p : TuningParams) (buffer : List UInt8), buffer.length = size →
      ∃ written, encode p buffer = .ok (102, written) ∧ written.length = size ∧
        written.drop 102 = buffer.drop 102 ∧ Carries written p ∧ statedLength written = 94 ∧
        (∀ n, 102 ≤ n →
          decode (written.take n) = if p.isValid then .ok p else .error .useDefaults) ∧
        ∀ n < 102, decode (written.take n) = .error .useDefaults) ∧
    ∀ (bytes : List UInt8) (p : TuningParams) (buffer : List UInt8), decode bytes = .ok p →
      ∃ written, encode p buffer = .ok (102, written) ∧ decode written = .ok p ∧
        written.extract 7 101 = bytes.extract 7 101 ∧
        (written.take 102 = bytes.take 102 ↔ statedLength bytes = 94) := by
  refine ⟨fun bytes => ⟨fun p => decode_eq_ok_iff, ?_, ?_⟩, ?_, ?_⟩
  · rw [decode_eq_encoding_iff, Malformed, not_and_or, not_and_or, Nat.not_le]
  · intro hok hencoding
    rcases decode_cases bytes with ⟨-, p, -, -, hp⟩ | ⟨-, e, he⟩ | ⟨-, hdefaults⟩
    · exact absurd hp (hok p)
    · exact absurd he (hencoding e)
    · exact hdefaults
  · intro p buffer hbuffer
    refine ⟨_, encode_eq p buffer, ?_, ?_, carries_bytes p _, statedLength_bytes p _,
      fun n hn => decode_take_written hn, fun n hn => decode_of_not_intact (not_intact_take p hn)⟩
    · rw [List.length_append, length_bytes, List.length_drop, hbuffer]
      rfl
    · exact List.drop_left' (length_bytes p)
  · intro bytes p buffer hdecode
    obtain ⟨hvalid, hcarries⟩ := decode_eq_ok_iff.mp hdecode
    exact ⟨_, encode_eq p buffer, decode_eq_ok_iff.mpr ⟨hvalid, carries_bytes p _⟩,
      hcarries.rewritten⟩

/-- The initial parameters come back from a record, and from no part of one. -/
theorem codec_exact_initial : ∃ written again,
    encode {} (List.replicate size 0x55) = .ok (102, written) ∧
    decode (written.take 102) = .ok {} ∧ decode (written.take 101) = .error .useDefaults ∧
    encode {} written = .ok (102, again) ∧
    again.extract 7 101 = (written.take 102).extract 7 101 := by
  obtain ⟨-, hwrite, hread⟩ := codec_exact
  obtain ⟨written, hencode, -, -, -, -, hlong, hshort⟩ :=
    hwrite {} (List.replicate size 0x55) List.length_replicate
  have hvalid : TuningParams.isValid {} = true := by decide +kernel
  have hdecode := hlong 102 le_rfl
  rw [if_pos hvalid] at hdecode
  obtain ⟨again, hagain, -, hpayload, -⟩ := hread (written.take 102) {} written hdecode
  exact ⟨written, again, hencode, hdecode, hshort 101 (by decide), hagain, hpayload⟩

end Quadrotor.Record

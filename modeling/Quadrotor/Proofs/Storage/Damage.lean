import Mathlib
import Quadrotor.Proofs.Storage.Bursts
import Quadrotor.Proofs.Storage.RecordCodec

/-!
# Damaged records

A record with its checksum has the digest zero, so a burst inside it is found out as long as the
header still states the length it was written with. Any other length that can be read comes from
damage to its low byte, and a burst that reaches there leaves the parameters alone.
-/

namespace Quadrotor.Record

open Checksum (Burst)

theorem digest_sealed (bytes : List UInt8) : Checksum.digest (sealed bytes) = 0 :=
  Checksum.digest_concat_digest bytes

theorem Carries.params_eq {a b : List UInt8} {p q : TuningParams} (ha : Carries a p) (hb : Carries b q)
    (h : a.extract 7 101 = b.extract 7 101) : p = q := by
  rw [ha.payload_eq, hb.payload_eq] at h
  have hp := Payload.decode_encode p []
  rw [h, Payload.decode_encode q []] at hp
  exact (Except.ok.inj hp).symm

section

variable {written damaged : List UInt8} {p q : TuningParams}

/-- Lengths that fit into a record have no high byte. -/
theorem Intact.statedLength_eq (h : Intact damaged) :
    statedLength damaged = (damaged.getD 5 0).toNat := by
  have := h.length_le
  rw [statedLength] at this ⊢
  omega

/-- A burst that leaves the stated length alone leaves nothing of the record changed. -/
theorem Carries.take_eq_of_burst (hw : Carries written p) (hlength : statedLength written = 94)
    (hd : Carries damaged q) (hsame : statedLength damaged = 94) (h : Burst written damaged) :
    written.take 102 = damaged.take 102 := by
  apply (h.take 102).eq_of_digest_eq
  rw [hw.take_eq hlength, hd.take_eq hsame, bytes_eq, bytes_eq, digest_sealed, digest_sealed]

/-- A burst that changes the stated length of a record leaves the payload alone. -/
theorem Intact.getElem?_of_burst (hw : Intact written) (hd : Intact damaged)
    (hne : statedLength written ≠ statedLength damaged) (h : Burst written damaged) :
    ∀ i, 7 ≤ i → written[i]? = damaged[i]? := by
  intro i hi
  have hlow : written[5]? ≠ damaged[5]? := by
    intro heq
    apply hne
    rw [hw.statedLength_eq, hd.statedLength_eq, List.getD_eq_getElem?_getD,
      List.getD_eq_getElem?_getD, heq]
  by_contra hdiff
  have := h.neighbours hdiff hlow
  omega

theorem Intact.getElem?_front (hw : Intact written) (hd : Intact damaged) :
    ∀ i ≤ 4, written[i]? = damaged[i]? := by
  intro i hi
  by_cases h4 : i = 4
  · rw [h4, hw.version_eq, hd.version_eq]
  · rw [← List.getElem?_take_of_lt (show i < 4 by omega), hw.magic_eq, ← hd.magic_eq,
      List.getElem?_take_of_lt (by omega)]

/-- What still reads as a set after a burst reads as the one that was written, and only the stated
length or what follows the record has changed. -/
theorem Carries.survives (hw : Carries written p) (hlength : statedLength written = 94)
    (hd : Carries damaged q) (h : Burst written damaged) :
    q = p ∧ ∀ i, i ≤ 4 ∨ 7 ≤ i ∧ i ≤ 101 → written[i]? = damaged[i]? := by
  have hbody : ∀ i, 7 ≤ i → i ≤ 101 → written[i]? = damaged[i]? := by
    -- The checksum is where it was written only if the stated length is as it was.
    by_cases hsame : statedLength damaged = 94
    · intro i _ hi
      rw [← List.getElem?_take_of_lt (show i < 102 by omega),
        hw.take_eq_of_burst hlength hd hsame h, List.getElem?_take_of_lt (by omega)]
    · intro i hi _
      exact hw.toIntact.getElem?_of_burst hd.toIntact (by omega) h i hi
  refine ⟨hd.params_eq hw ?_, ?_⟩
  · rw [List.extract_eq_take_drop, List.extract_eq_take_drop]
    apply List.ext_getElem?
    intro i
    rw [List.getElem?_take, List.getElem?_take]
    split_ifs with hi
    · rw [List.getElem?_drop, List.getElem?_drop, hbody _ (by omega) (by omega)]
    · rfl
  · rintro i (hi | ⟨h7, h101⟩)
    · exact hw.toIntact.getElem?_front hd.toIntact i hi
    · exact hbody i h7 h101

end

/-- After a burst a record of valid parameters reads as them or not at all, and not at all if the
burst has changed the number that records begin with, the version, the payload or the checksum. -/
theorem burst_never_misread {p : TuningParams} {buffer written damaged : List UInt8}
    (hvalid : p.isValid = true) (hwritten : encode p buffer = .ok (102, written))
    (hburst : Burst written damaged) :
    ((∃ e, decode damaged = .error e) ∨ decode damaged = .ok p) ∧
    ((∃ k, (k / 8 ≤ 4 ∨ 7 ≤ k / 8 ∧ k / 8 ≤ 101) ∧
        (Checksum.bits written)[k]? ≠ (Checksum.bits damaged)[k]?) →
      ∃ e, decode damaged = .error e) := by
  obtain rfl : Record.bytes p ++ buffer.drop 102 = written := by
    rw [encode_eq] at hwritten
    exact (Prod.mk.inj (Except.ok.inj hwritten)).2
  have hsurvives : ∀ q, decode damaged = .ok q → q = p ∧ ∀ i, i ≤ 4 ∨ 7 ≤ i ∧ i ≤ 101 →
      (Record.bytes p ++ buffer.drop 102)[i]? = damaged[i]? := by
    intro q hq
    exact (carries_bytes p _).survives (statedLength_bytes p _) (decode_eq_ok_iff.mp hq).2 hburst
  cases hdecode : decode damaged with
  | error e => exact ⟨Or.inl ⟨e, rfl⟩, fun _ => ⟨e, rfl⟩⟩
  | ok q =>
    obtain ⟨rfl, hsame⟩ := hsurvives q hdecode
    refine ⟨Or.inr rfl, ?_⟩
    rintro ⟨k, hplace, hbit⟩
    rw [Checksum.getElem?_bits, Checksum.getElem?_bits, hsame _ hplace] at hbit
    exact absurd rfl hbit

/-- A byte of the first gain of a record replaced. -/
theorem burst_never_misread_gain : ∃ written,
    encode {} (List.replicate size 0xff) = .ok (102, written) ∧
      ∃ e, decode (written.set 8 0xaa) = .error e := by
  have hwritten := encode_eq {} (List.replicate size 0xff)
  have hgain : (Record.bytes {} ++ (List.replicate size 0xff).drop 102)[8]? = some 0x14 := by
    decide +kernel
  have hdiff : (Record.bytes {} ++ (List.replicate size 0xff).drop 102)[8]? ≠
      ((Record.bytes {} ++ (List.replicate size 0xff).drop 102).set 8 0xaa)[8]? := by
    rw [List.getElem?_set_self (List.getElem?_eq_some_iff.mp hgain).1, hgain]
    decide
  obtain ⟨k, hk, hbit⟩ := Checksum.exists_bit_ne hdiff
  exact ⟨_, hwritten, (burst_never_misread (by decide +kernel) hwritten
    (Checksum.burst_set _ 8 0xaa)).2 ⟨k, by omega, hbit⟩⟩

end Quadrotor.Record

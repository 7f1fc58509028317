import Mathlib
import Quadrotor.Proofs.Storage.Bursts

/-!
# The digest as a remainder

A message is a polynomial over the field of two elements, its first bit the coefficient of the highest
power. Feeding its bits to a register that starts at zero is long division: each bit comes down to the
rest so far, and the divisor is taken away wherever it fits. So the register ends as the remainder of
the message times `X ^ 8`, and the table, which takes eight of these steps at once, ends there too.
-/

namespace Quadrotor.Checksum

open Polynomial

/-- The polynomial that messages are divided by. -/
noncomputable def generator : (ZMod 2)[X] := X ^ 8 + X ^ 7 + X ^ 6 + X ^ 4 + X ^ 2 + 1

/-- A register as a polynomial: bit `i` is the coefficient of `X ^ i`. -/
noncomputable def residue (r : BitVec 8) : (ZMod 2)[X] :=
  ∑ i ∈ Finset.range 8, if r.getLsbD i then X ^ i else 0

/-- A message as a polynomial: the first bit goes with the highest power. -/
noncomputable def message : List Bool → (ZMod 2)[X]
  | [] => 0
  | bit :: bits => (if bit then X ^ bits.length else 0) + message bits

/-! ## Messages -/

theorem message_append (a b : List Bool) :
    message (a ++ b) = message a * X ^ b.length + message b := by
  induction a with
  | nil => simp [message]
  | cons bit a ih =>
    rw [List.cons_append, message, message, ih, List.length_append]
    cases bit
    · simp
    · simp only [if_true]
      ring

theorem message_concat (bits : List Bool) (bit : Bool) :
    message (bits ++ [bit]) = message bits * X + if bit then 1 else 0 := by
  rw [message_append]
  simp [message]

/-! ## Registers -/

theorem coeff_term (bit : Bool) (i n : Nat) :
    (if bit then (X : (ZMod 2)[X]) ^ i else 0).coeff n = if n = i then if bit then 1 else 0 else 0 := by
  cases bit <;> simp [coeff_X_pow]

theorem coeff_residue (r : BitVec 8) (n : Nat) :
    (residue r).coeff n = if r.getLsbD n then 1 else 0 := by
  simp only [residue, finsetSum_coeff, coeff_term, Finset.sum_ite_eq, Finset.mem_range]
  by_cases hn : n < 8
  · rw [if_pos hn]
  · rw [if_neg hn, BitVec.getLsbD_of_ge r n (by omega)]
    rfl

theorem degree_residue_lt (r : BitVec 8) : (residue r).degree < (8 : ℕ) := by
  rw [degree_lt_iff_coeff_zero]
  intro n hn
  rw [coeff_residue, BitVec.getLsbD_of_ge r n hn]
  rfl

theorem residue_injective : Function.Injective residue := by
  intro r s h
  apply BitVec.eq_of_getLsbD_eq
  intro i _
  have hcoeff : (residue r).coeff i = (residue s).coeff i := by rw [h]
  rw [coeff_residue, coeff_residue] at hcoeff
  cases hr : r.getLsbD i <;> cases hs : s.getLsbD i <;> simp_all

@[simp] theorem residue_zero : residue 0#8 = 0 := by
  simp [residue]

theorem residue_xor (r s : BitVec 8) : residue (r ^^^ s) = residue r + residue s := by
  ext n
  rw [coeff_add, coeff_residue, coeff_residue, coeff_residue, BitVec.getLsbD_xor]
  cases r.getLsbD n <;> cases s.getLsbD n <;> decide

/-- The place where a bit comes in. -/
theorem residue_top (bit : Bool) :
    residue (if bit then 0x80#8 else 0#8) = if bit then X ^ 7 else 0 := by
  cases bit
  · exact residue_zero
  · simp [residue, Finset.sum_range_succ]

/-- The bit that falls out at the top was worth `X ^ 8`. -/
theorem residue_shiftLeft (r : BitVec 8) :
    residue r * X = residue (r <<< 1) + if r.msb then X ^ 8 else 0 := by
  ext n
  rw [coeff_add, coeff_residue, coeff_term, BitVec.getLsbD_shiftLeft]
  cases n with
  | zero => simp
  | succ n =>
    rw [coeff_mul_X, coeff_residue, show r.msb = r.getLsbD 7 from rfl]
    rcases lt_trichotomy n 7 with hn | rfl | hn
    · simp [show n + 1 < 8 by omega, show n ≠ 7 by omega]
    · simp
    · rw [BitVec.getLsbD_of_ge r n (by omega)]
      simp [show ¬n + 1 < 8 by omega, show n ≠ 7 by omega]

/-! ## Division -/

theorem generator_eq : generator = X ^ 8 + residue polynomial.toBitVec := by
  have hbits : residue polynomial.toBitVec = X ^ 7 + X ^ 6 + X ^ 4 + X ^ 2 + 1 := by
    simp [residue, Finset.sum_range_succ, polynomial]
    ring
  rw [generator, hbits]
  ring

theorem monic_generator : generator.Monic := by
  rw [generator_eq]
  exact monic_X_pow_add (degree_residue_lt _)

theorem degree_generator : generator.degree = (8 : ℕ) := by
  rw [generator_eq, degree_add_eq_left_of_degree_lt, degree_X_pow]
  rw [degree_X_pow]
  exact degree_residue_lt _

theorem residue_advance (r : BitVec 8) :
    residue r * X = residue (advance r) + generator * if r.msb then 1 else 0 := by
  rw [residue_shiftLeft, advance, residue_xor, generator_eq]
  cases r.msb
  · simp
  · -- The lower terms of the divisor are taken away twice, once by the register itself.
    have htwice : residue polynomial.toBitVec + residue polynomial.toBitVec = 0 :=
      CharTwo.add_self_eq_zero _
    simp only [if_true]
    linear_combination -htwice

theorem exists_quotient_feed (r : BitVec 8) (bit : Bool) :
    ∃ q, residue r * X + (if bit then X ^ 8 else 0) = residue (feed r bit) + generator * q := by
  have hsum : residue r * X + (if bit then X ^ 8 else 0)
      = residue (r ^^^ if bit then 0x80#8 else 0#8) * X := by
    rw [residue_xor, residue_top]
    cases bit
    · simp
    · simp only [if_true]
      ring
  exact ⟨_, hsum.trans (residue_advance _)⟩

/-- After any message the register is what is left of it. -/
theorem exists_quotient (bits : List Bool) :
    ∃ q, message bits * X ^ 8 = residue (bits.foldl feed 0#8) + generator * q := by
  induction bits using List.reverseRecOn with
  | nil => exact ⟨0, by simp [message]⟩
  | append_singleton bits bit ih =>
    obtain ⟨q, hq⟩ := ih
    obtain ⟨p, hp⟩ := exists_quotient_feed (bits.foldl feed 0#8) bit
    refine ⟨q * X + p, ?_⟩
    calc message (bits ++ [bit]) * X ^ 8
        = message bits * X ^ 8 * X + (if bit then X ^ 8 else 0) := by
          rw [message_concat]
          cases bit <;> simp <;> ring
      _ = residue (bits.foldl feed 0#8) * X + (if bit then X ^ 8 else 0) + generator * (q * X) := by
          rw [hq]
          ring
      _ = residue ((bits ++ [bit]).foldl feed 0#8) + generator * (q * X + p) := by
          rw [hp, List.foldl_concat]
          ring

theorem residue_foldl_feed (bits : List Bool) :
    residue (bits.foldl feed 0#8) = (message bits * X ^ 8) %ₘ generator := by
  obtain ⟨q, hq⟩ := exists_quotient bits
  have hdegree : (residue (bits.foldl feed 0#8)).degree < generator.degree := by
    rw [degree_generator]
    exact degree_residue_lt _
  exact (div_modByMonic_unique q _ monic_generator ⟨hq.symm, hdegree⟩).2.symm

/-! ## Digests -/

theorem residue_digest (bytes : List UInt8) :
    residue (digest bytes).toBitVec = (message (bits bytes) * X ^ 8) %ₘ generator := by
  rw [← residue_foldl_feed, digest, ← foldl_feed_bits]
  rfl

/-- The digest of a message is the one byte that is its remainder, whether it is worked out bit by bit,
at once, or over parts of the message; and a message that ends with its digest has the digest zero. -/
theorem digest_is_remainder (bytes : List UInt8) :
    (∀ d : UInt8, d = digest bytes ↔
      residue d.toBitVec = (message (bits bytes) * X ^ 8) %ₘ generator) ∧
    (bits bytes).foldl feed 0#8 = (digest bytes).toBitVec ∧
    (∀ parts : List (List UInt8), parts.foldl extend 0 = digest parts.flatten) ∧
    digest (bytes ++ [digest bytes]) = 0 := by
  refine ⟨fun d => ⟨?_, fun h => ?_⟩, foldl_feed_bits bytes 0, ?_, digest_concat_digest bytes⟩
  · rintro rfl
    exact residue_digest bytes
  · rw [← residue_digest] at h
    exact UInt8.toBitVec_inj.mp (residue_injective h)
  · intro parts
    exact List.foldl_flatten.symm

end Quadrotor.Checksum

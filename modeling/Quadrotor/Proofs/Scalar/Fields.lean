import Mathlib
import Quadrotor.Proofs.Scalar.Alike
import Quadrotor.Scalar.Exact

/-!
# The fields of a word

The word of a scalar is a sign bit, eight bits of exponent and 23 bits of fraction. Here its form is
read off these fields, so that what is computed from them is about the value of the scalar.
-/

namespace Quadrotor.Scalar

open Float.Model (Format UnpackedFloat)
open Float.Model.UnpackedFloat

theorem toNat_unpackExponent (w : UInt32) :
    (@unpackExponent .binary32 w.toBitVec).toNat = w.toNat / 2 ^ 23 % 2 ^ 8 := by
  change (BitVec.extractLsb 30 23 w.toBitVec).toNat = _
  rw [BitVec.extractLsb_toNat, Nat.shiftRight_eq_div_pow, UInt32.toNat_toBitVec]

theorem toNat_unpackMantissa (w : UInt32) :
    (@unpackMantissa .binary32 w.toBitVec).toNat = w.toNat % 2 ^ 23 := by
  change (BitVec.extractLsb 22 0 w.toBitVec).toNat = _
  rw [BitVec.extractLsb_toNat, Nat.shiftRight_zero, UInt32.toNat_toBitVec]

/-- Only the encodings of a NaN are not kept. -/
theorem toBits_ofBits {w : UInt32} (h : (Float32.ofBits w).isNaN = false) :
    (Float32.ofBits w).toBits = w := by
  have hpack := @UnpackedFloat.pack_unpack .binary32 w.toBitVec (by decide)
  have hbits : (Float32.ofBits w).toBits.toBitVec
      = UnpackedFloat.pack .binary32 (UnpackedFloat.unpack .binary32 w.toBitVec) := rfl
  rw [← UInt32.toBitVec_inj, hbits, hpack]
  split_ifs with hnan
  · have hform : (Float32.ofBits w).isNaN = (UnpackedFloat.unpack .binary32
        (UnpackedFloat.pack .binary32 (UnpackedFloat.unpack .binary32 w.toBitVec))).isNaN := rfl
    rw [if_pos hnan] at hpack
    rw [hform, hpack, UnpackedFloat.unpack_packedNaN] at h
    cases h
  · rfl

variable {x : Scalar}

theorem exponentField_eq (x : Scalar) : x.exponentField = x.toBits.toNat / 2 ^ 23 % 2 ^ 8 := by
  rw [exponentField, UInt32.toNat_shiftRight, Nat.shiftRight_eq_div_pow]
  rfl

theorem fractionField_eq (x : Scalar) : x.fractionField = x.toBits.toNat % 2 ^ 23 := rfl

/-- A finite scalar is as large as its significand and its exponent say. -/
theorem abs_value_eq (hx : x.isFinite = true) : |x.value| = x.significand * 2 ^ x.exponent := by
  have hexponent := (toNat_unpackExponent x.toBits).trans (exponentField_eq x).symm
  have hfraction := (toNat_unpackMantissa x.toBits).trans (fractionField_eq x).symm
  have hform : x.form = unpack .binary32 x.toBits.toBitVec := rfl
  have hfield : @unpackExponent .binary32 x.toBits.toBitVec = 0#8 ↔ x.exponentField = 0 := by
    rw [← hexponent]
    exact ⟨fun h => by rw [h]; rfl, fun h => BitVec.eq_of_toNat_eq h⟩
  have hb := bias_eq
  change x.form.isFinite = true at hx
  rw [value]
  rw [hform] at hx ⊢
  unfold unpack at hx ⊢
  simp only [hb, hidden_append] at hx ⊢
  split_ifs at hx ⊢ with hlast hinf hleast hzero
  · cases hx
  · cases hx
  · have hnone : x.fractionField = 0 := by rw [← hfraction, hzero]; rfl
    rw [formValue_zero, significand, if_pos (hfield.mp hleast), hnone]
    simp
  · rw [abs_formValue, significand, exponent, if_pos (hfield.mp hleast),
      if_pos (hfield.mp hleast), hfraction, hexponent, hfield.mp hleast]
    rfl
  · rw [abs_formValue, significand, exponent, if_neg (hfield.not.mp hleast),
      if_neg (hfield.not.mp hleast), hfraction, hexponent, Nat.add_comm]
    rfl

theorem isFinite_of_exponentField (h : x.exponentField ≠ 255) : x.isFinite = true := by
  have hexponent := (toNat_unpackExponent x.toBits).trans (exponentField_eq x).symm
  have hlast : @unpackExponent .binary32 x.toBits.toBitVec ≠ -1#8 := by
    intro hlast
    rw [hlast] at hexponent
    exact h hexponent.symm
  have hform : x.isFinite = (unpack .binary32 x.toBits.toBitVec).isFinite := rfl
  rw [hform]
  unfold unpack
  dsimp only
  rw [if_neg hlast]
  split_ifs <;> rfl

theorem isNegative_eq_false_iff (hx : x.isNaN = false) :
    x.isNegative = false ↔ formSign x.form = .positive := by
  rw [← toBits_lt_iff hx, isNegative, decide_eq_false_iff_not, UInt32.not_le]

end Quadrotor.Scalar

import Mathlib
import Quadrotor.Proofs.Scalar.Fields
import Quadrotor.Scalar.Circular

/-!
# Lengths and angles

The square root of a number that is not negative is a number, and a root is finite only if what it
is taken of is. The inverse tangent of two numbers is a number whatever they are: its series end in
an encoding that is cut off at infinity, and no such encoding is that of a NaN.
-/

namespace Quadrotor.Scalar

open Float.Model (Format UnpackedFloat)
open Float.Model.UnpackedFloat

variable {x y : Scalar}

/-! ## Packing makes no NaN -/

/-- An exponent that is too large is packed as an infinity, and any other leaves the exponent field
below its largest value. -/
theorem repack_finite_ne (s : Sign) (m : Nat) (e : Int) (hm : 0 < m) :
    repack (.finite s m e hm) ≠ .notANumber := by
  obtain ⟨biased, hbiased⟩ : ∃ biased, biased =
      (e + Format.binary32.exponentBias + Format.binary32.mantissaBitsWithoutImplicit).toNat :=
    ⟨_, rfl⟩
  have hcap : 2 ^ Format.binary32.exponentBits = 256 := rfl
  unfold repack UnpackedFloat.pack
  simp only [← hbiased, hcap]
  split_ifs with hover hfull
  · exact fun h => nomatch (repack_infinity s).symm.trans h
  · have hfield : BitVec.ofNat 8 biased ≠ -1#8 := by
      intro h
      have h255 : _ = (-1#8).toNat := congrArg BitVec.toNat h
      rw [BitVec.toNat_ofNat] at h255
      change biased % 256 = 255 at h255
      omega
    rw [unpack_fields, if_neg hfield]
    split_ifs <;> simp
  · rw [unpack_fields, if_neg (by decide), if_pos rfl]
    split_ifs <;> simp

theorem repack_ne {u : UnpackedFloat} (hu : u ≠ .notANumber) : repack u ≠ .notANumber := by
  cases u with
  | notANumber => exact absurd rfl hu
  | infinity s => rw [repack_infinity]; simp
  | zero s => rw [repack_zero]; simp
  | finite s m e hm => exact repack_finite_ne s m e hm

theorem roundWithAccuracy_ne (s : Sign) (m : Nat) (e : Int) (acc : Accuracy) :
    roundWithAccuracy .binary32 s m e acc ≠ .notANumber := by
  unfold roundWithAccuracy
  dsimp only
  split_ifs <;> simp

/-! ## Square roots -/

theorem form_sqrt (x : Scalar) : form x.sqrt = repack (UnpackedFloat.sqrt .binary32 x.form) := rfl

theorem isNaN_sqrt (hx : 0.0 ≤ x) : x.sqrt.isNaN = false := by
  rw [isNaN_eq_false, form_sqrt]
  have hn := isNaN_eq_false.mp (le_iff.mp hx).2.1
  have hv := value_nonneg hx
  rw [value] at hv
  cases hform : x.form with
  | notANumber => exact absurd hform hn
  | zero s => rw [UnpackedFloat.sqrt, repack_zero]; simp
  | infinity s =>
    cases s with
    | positive => rw [UnpackedFloat.sqrt, repack_infinity]; simp
    | negative =>
      rw [hform, formValue_infinity_neg] at hv
      norm_num at hv
  | finite s m e hm =>
    cases s with
    | positive => exact repack_ne (roundWithAccuracy_ne _ _ _ _)
    | negative =>
      rw [hform, formValue_finite_neg] at hv
      linarith [magnitude_pos hm e]

theorem isFinite_of_sqrt (h : x.sqrt.isFinite = true) : x.isFinite = true := by
  change (form x.sqrt).isFinite = true at h
  rw [form_sqrt] at h
  change x.form.isFinite = true
  cases hform : x.form with
  | zero s | finite s => rfl
  | notANumber =>
    rw [hform] at h
    cases h
  | infinity s =>
    rw [hform] at h
    cases s with
    | positive =>
      rw [UnpackedFloat.sqrt, repack_infinity] at h
      cases h
    | negative => cases h

theorem nonneg_square (hx : x.isFinite = true) : 0.0 ≤ x * x := by
  refine (faithful_mul hx hx).le_of_value_le isNaN_zero ?_
  rw [value_zero]
  exact mul_self_nonneg _

/-- A scalar whose square is finite is far below the largest one. -/
theorem within_of_square (h : (x * x).isFinite = true) : Within 64 x := by
  have hn : x.isNaN = false := by
    by_contra hnan
    rw [Bool.not_eq_false] at hnan
    exact absurd (isNaN_of_isFinite h) (by rw [isNaN_mul_left hnan]; decide)
  have hx : x.isFinite = true := by
    by_contra hinfinite
    obtain ⟨s, hs⟩ := form_infinity hn hinfinite
    change (x * x).form.isFinite = true at h
    rw [form_mul, hs, UnpackedFloat.mul, repack_infinity] at h
    cases h
  refine ⟨hx, ?_⟩
  by_contra hlarge
  rw [not_le] at hlarge
  have hsquare : (2 : ℚ) ^ (128 : ℤ) ≤ x.value * x.value := by
    rw [← abs_mul_abs_self]
    calc (2 : ℚ) ^ (128 : ℤ) = 2 ^ 64 * 2 ^ 64 := by norm_num
      _ ≤ |x.value| * |x.value| := by gcongr
  have hoverflow := (rounds_mul hx hx).pow_le_of_le (by decide) le_rfl hsquare
  have hlimit := (le_abs_self _).trans_lt (isFinite_iff.mp h).2
  norm_num at hoverflow hlimit
  linarith

/-! ## Angles -/

theorem nearestBits_le (num den : Nat) (shift : Int) : nearestBits num den shift ≤ 0x7f800000 := by
  unfold nearestBits
  dsimp only
  split_ifs <;> first | exact Nat.zero_le _ | exact Nat.min_le_right _ _

/-- Among the encodings the NaNs are beyond infinity, on either side of the sign bit. -/
theorem isNaN_ofBits {w : UInt32} (h : w.toNat % 2 ^ 31 ≤ 0x7f800000) :
    (Float32.ofBits w).isNaN = false := by
  have hform : form (Float32.ofBits w) = repack (unpack .binary32 w.toBitVec) := rfl
  rw [isNaN_eq_false, hform]
  refine repack_ne ?_
  unfold unpack
  dsimp only
  split_ifs with hlast hzero
  · simp
  · -- The last exponent is that of infinity, which has no digits.
    have h255 : _ = (-1#8).toNat := congrArg BitVec.toNat hlast
    rw [toNat_unpackExponent] at h255
    change _ = 255 at h255
    refine absurd (BitVec.eq_of_toNat_eq ?_) hzero
    change _ = 0
    rw [toNat_unpackMantissa]
    omega
  all_goals simp

theorem isNaN_withSign (negative : Bool) {bits : Nat} (h : bits ≤ 0x7f800000) :
    (withSign negative bits).isNaN = false := by
  refine isNaN_ofBits ?_
  cases negative <;>
    simp only [Bool.false_eq_true, if_false, if_true, Nat.toUInt32_eq, UInt32.toNat_ofNat'] <;> omega

theorem isNaN_nearest (negative : Bool) (num den : Nat) (shift : Int) :
    (nearest negative num den shift).isNaN = false :=
  isNaN_withSign negative (nearestBits_le num den shift)

theorem isNaN_atan2 (hy : y.isNaN = false) (hx : x.isNaN = false) : (atan2 y x).isNaN = false := by
  unfold atan2
  rw [if_neg (by rw [hx, hy]; decide)]
  dsimp only
  unfold quartersOfPi
  split_ifs <;> exact isNaN_nearest _ _ _ _

end Quadrotor.Scalar

import Mathlib
import Quadrotor.Proofs.Scalar.Direction
import Quadrotor.Proofs.Scalar.Fields
import Quadrotor.Proofs.Scalar.Nearest

/-!
# Scalars as words

A scalar becomes a word by rounding it to a whole number, of which the word then keeps as much as
it has room for. Rounding puts the whole number in place of the digits of the scalar; that loses
nothing, since a number with digits below the point is below `2 ^ 24`. For a positive scalar the
word is therefore the whole number nearest to its value, and zero exactly below one half.
-/

namespace Quadrotor.Scalar

variable {x : Scalar}

/-! ## The whole part -/

theorem wholePart_eq (hx : x.isFinite = true) : x.wholePart = ⌊|x.value|⌋₊ := by
  rw [abs_value_eq hx, wholePart]
  split_ifs with he
  · obtain ⟨k, hk⟩ := Int.eq_ofNat_of_zero_le he
    have hcast : (x.significand : ℚ) * 2 ^ (k : ℤ) = (x.significand * 2 ^ k : ℕ) := by
      rw [zpow_natCast]
      push_cast
      rfl
    rw [hk, Int.toNat_natCast, hcast, Nat.floor_natCast, Nat.shiftLeft_eq]
  · obtain ⟨k, hk⟩ := Int.eq_ofNat_of_zero_le (show 0 ≤ -x.exponent by omega)
    have hcast : (x.significand : ℚ) * 2 ^ x.exponent = (x.significand : ℚ) / (2 ^ k : ℕ) := by
      rw [← neg_neg x.exponent, hk, zpow_neg, zpow_natCast, div_eq_mul_inv]
      push_cast
      rfl
    rw [hk, Int.toNat_natCast, hcast, Nat.floor_div_eq_div, Nat.shiftRight_eq_div_pow]

/-! ## The scalar of a whole number -/

section

variable {n : ℕ}

theorem lastPlace_whole (h0 : 0 < n) : lastPlace n 1 = max ((n.log2 : ℤ) - 23) (-149) := by
  have hlow : ¬n < 2 ^ n.log2 := not_lt.mpr (Nat.log2_self_le h0.ne')
  have hone : Nat.log2 1 = 0 := by decide
  simp only [lastPlace, hone, Nat.cast_zero, sub_zero, Int.natCast_nonneg, if_true,
    Int.toNat_natCast, Nat.one_shiftLeft, decide_eq_true_eq, if_neg hlow]

theorem roundDivEven_one (m : ℕ) : roundDivEven m 1 = m := by
  simp [roundDivEven, Nat.mod_one]

/-- The digits of a whole number, the first of them in the 24th place. -/
theorem digits_lt (h0 : 0 < n) (hn : n < 2 ^ 24) :
    2 ^ 23 ≤ n * 2 ^ (23 - n.log2) ∧ n * 2 ^ (23 - n.log2) < 2 ^ 24 := by
  have hlog : n.log2 < 24 := (Nat.log2_lt h0.ne').mpr hn
  constructor
  · calc 2 ^ 23 = 2 ^ n.log2 * 2 ^ (23 - n.log2) := by rw [← pow_add]; congr 1; omega
      _ ≤ n * 2 ^ (23 - n.log2) := Nat.mul_le_mul_right _ (Nat.log2_self_le h0.ne')
  · calc n * 2 ^ (23 - n.log2) < 2 ^ (n.log2 + 1) * 2 ^ (23 - n.log2) :=
          Nat.mul_lt_mul_of_pos_right Nat.lt_log2_self (by positivity)
      _ = 2 ^ 24 := by rw [← pow_add]; congr 1; omega

/-- A whole number of 24 digits is encoded with all of them. -/
theorem nearestBits_whole (h0 : 0 < n) (hn : n < 2 ^ 24) :
    nearestBits n 1 0 = (n.log2 + 126) * 2 ^ 23 + n * 2 ^ (23 - n.log2) := by
  have hlog : n.log2 < 24 := (Nat.log2_lt h0.ne').mpr hn
  have hdigits := (digits_lt h0 hn).2
  have hplace : lastPlace n 1 = (n.log2 : ℤ) - 23 := by
    rw [lastPlace_whole h0]
    omega
  have hfield : ((n.log2 : ℤ) - 23 + 149).toNat = n.log2 + 126 := by omega
  have hshift : (-((n.log2 : ℤ) - 23)).toNat = 23 - n.log2 := by omega
  have hencoding : (if 0 ≤ (n.log2 : ℤ) - 23 then roundDivEven n (1 <<< ((n.log2 : ℤ) - 23).toNat)
      else roundDivEven (n <<< (23 - n.log2)) 1) = n * 2 ^ (23 - n.log2) := by
    split_ifs with hq
    · rw [show n.log2 = 23 by omega]
      simp [roundDivEven_one]
    · rw [roundDivEven_one, Nat.shiftLeft_eq]
  simp only [nearestBits, le_refl, if_true, Int.toNat_zero, Nat.shiftLeft_zero, h0.ne', if_false,
    hplace, hfield, hshift, hencoding]
  rw [Nat.min_eq_left (by rw [hiddenBit]; omega)]
  rfl

theorem toBits_nearest_whole (h0 : 0 < n) (hn : n < 2 ^ 24) :
    (nearest false n 1 0).toBits.toNat = (n.log2 + 126) * 2 ^ 23 + n * 2 ^ (23 - n.log2) := by
  have hlog : n.log2 < 24 := (Nat.log2_lt h0.ne').mpr hn
  have hdigits := (digits_lt h0 hn).2
  have hword : nearest false n 1 0 = Float32.ofBits (nearestBits n 1 0 + 0).toUInt32 := rfl
  rw [hword, toBits_ofBits (hword ▸ isNaN_nearest false n 1 0), nearestBits_whole h0 hn]
  rw [Nat.toUInt32_eq, UInt32.toNat_ofNat']
  omega

/-- A whole number of 24 digits is a scalar. -/
theorem nearest_whole (hn : n < 2 ^ 24) : (nearest false n 1 0).isFinite = true ∧
    (nearest false n 1 0).isNegative = false ∧ (nearest false n 1 0).wholePart = n := by
  rcases Nat.eq_zero_or_pos n with rfl | h0
  · decide
  · have hlog : n.log2 < 24 := (Nat.log2_lt h0.ne').mpr hn
    obtain ⟨hlow, hhigh⟩ := digits_lt h0 hn
    have hbits := toBits_nearest_whole h0 hn
    generalize nearest false n 1 0 = x at hbits ⊢
    have hfield : x.exponentField = n.log2 + 127 := by
      rw [exponentField_eq, hbits]
      omega
    have hfraction : x.fractionField = n * 2 ^ (23 - n.log2) - 2 ^ 23 := by
      rw [fractionField_eq, hbits]
      omega
    have hx : x.isFinite = true := isFinite_of_exponentField (by omega)
    have hvalue : |x.value| = n := by
      have hdigits : x.significand = n * 2 ^ (23 - n.log2) := by
        rw [significand, if_neg (by omega), hfraction, hiddenBit]
        omega
      have hexponent : x.exponent = -((23 - n.log2 : ℕ) : ℤ) := by
        rw [exponent, if_neg (by omega), hfield]
        omega
      rw [abs_value_eq hx, hdigits, hexponent, zpow_neg, zpow_natCast]
      push_cast
      field_simp
    refine ⟨hx, ?_, ?_⟩
    · rw [isNegative, decide_eq_false_iff_not, UInt32.le_iff_toNat_le, hbits]
      change ¬2 ^ 31 ≤ _
      omega
    · rw [wholePart_eq hx, hvalue, Nat.floor_natCast]

end

/-! ## Rounding to a whole number -/

theorem isNegative_of_pos (hx : 0.0 < x) : x.isNegative = false := by
  obtain ⟨-, hn, hv⟩ := lt_iff.mp hx
  rw [value_zero] at hv
  exact (isNegative_eq_false_iff hn).mpr ((formSign_of_value x.form).1 hv)

theorem significand_lt (x : Scalar) : x.significand < 2 ^ 24 := by
  have hfraction : x.fractionField < 2 ^ 23 := Nat.mod_lt _ (by decide)
  unfold significand
  split_ifs
  · omega
  · rw [hiddenBit]
    omega

/-- With digits below the point, half a unit is added and the digits are dropped. -/
theorem floor_half {m k : ℕ} (hk : 0 < k) :
    (m + 1 <<< (k - 1)) >>> k = ⌊(m : ℚ) * 2 ^ (-k : ℤ) + 1 / 2⌋₊ := by
  obtain ⟨j, rfl⟩ := Nat.exists_eq_succ_of_ne_zero hk.ne'
  have hcast : (m : ℚ) * 2 ^ (-(j.succ : ℕ) : ℤ) + 1 / 2
      = (m + 2 ^ j : ℕ) / (2 ^ j.succ : ℕ) := by
    rw [zpow_neg, zpow_natCast, Nat.succ_eq_add_one]
    push_cast
    field_simp
    ring
  rw [hcast, Nat.floor_div_eq_div, Nat.shiftRight_eq_div_pow, Nat.one_shiftLeft, Nat.succ_sub_one]

theorem wholePart_round (hx : x.isFinite = true) (hneg : x.isNegative = false) :
    x.round.isFinite = true ∧ x.round.isNegative = false ∧
      x.round.wholePart = ⌊|x.value| + 1 / 2⌋₊ := by
  rw [abs_value_eq hx]
  by_cases he : 0 ≤ x.exponent
  · have hround : x.round = x := by
      rw [round, if_pos (by rw [hx, decide_eq_true he]; rfl)]
    obtain ⟨k, hk⟩ := Int.eq_ofNat_of_zero_le he
    have hcast : (x.significand : ℚ) * 2 ^ x.exponent = (x.significand * 2 ^ k : ℕ) := by
      rw [hk, zpow_natCast]
      push_cast
      rfl
    refine ⟨by rw [hround]; exact hx, by rw [hround]; exact hneg, ?_⟩
    rw [hround, wholePart_eq hx, abs_value_eq hx, hcast, Nat.floor_natCast, eq_comm,
      Nat.floor_eq_iff (by positivity)]
    constructor <;> linarith
  · obtain ⟨k, hk⟩ := Int.eq_ofNat_of_zero_le (show 0 ≤ -x.exponent by omega)
    have hround : x.round
        = nearest false ((x.significand + 1 <<< (k - 1)) >>> k) 1 0 := by
      simp only [round, hx, he, hneg, hk, Int.toNat_natCast]
      rfl
    have hexponent : x.exponent = -k := by omega
    rw [hround, floor_half (by omega), hexponent]
    refine nearest_whole ?_
    have hm : (x.significand : ℚ) + 1 ≤ 2 ^ 24 := by exact_mod_cast significand_lt x
    have hle : (2 : ℚ) ^ (-k : ℤ) ≤ 1 := zpow_le_one_of_nonpos₀ one_le_two (by omega)
    rw [Nat.floor_lt (by positivity)]
    calc (x.significand : ℚ) * 2 ^ (-k : ℤ) + 1 / 2 ≤ x.significand * 1 + 1 / 2 := by gcongr
      _ < 2 ^ 24 := by linarith
      _ = (2 ^ 24 : ℕ) := by push_cast; rfl

/-! ## Words -/

theorem toNatWithin_of_isFinite (bits : ℕ) (hx : x.isFinite = true) (hneg : x.isNegative = false) :
    x.toNatWithin bits = min x.wholePart (2 ^ bits - 1) := by
  have hn := isNaN_of_isFinite hx
  have hinf : x.isInf = false := by
    change x.form.isFinite = true at hx
    change x.form.isInf = false
    cases h : x.form with
    | infinity s => rw [h] at hx; cases hx
    | notANumber | zero s | finite s => rfl
  rw [toNatWithin, hn, hneg, hinf, Nat.one_shiftLeft]
  rfl

theorem toWord_round_of_pos (hx : 0.0 < x) :
    x.round.toWord.toNat = min ⌊x.value + 1 / 2⌋₊ (2 ^ 64 - 1) := by
  have hneg := isNegative_of_pos hx
  have hnonneg := value_nonneg (le_of_lt hx)
  have hword : ∀ n : ℕ, (min n (2 ^ 64 - 1)).toUInt64.toNat = min n (2 ^ 64 - 1) := by
    intro n
    rw [Nat.toUInt64_eq, UInt64.toNat_ofNat']
    omega
  by_cases hf : x.isFinite = true
  · obtain ⟨hfinite, hsign, hwhole⟩ := wholePart_round hf hneg
    rw [toWord, toNatWithin_of_isFinite 64 hfinite hsign, hword, hwhole, abs_of_nonneg hnonneg]
  · have hform := form_of_nonneg (le_of_lt hx) hf
    have hround : x.round = x := by
      rw [round, if_pos (by simp [hf])]
    have hinf : x.isInf = true := by
      change x.form.isInf = true
      rw [hform]
      rfl
    have hlarge : 2 ^ 64 - 1 ≤ ⌊x.value + 1 / 2⌋₊ := by
      refine Nat.le_floor ?_
      rw [value_infinity hform]
      norm_num
    rw [hround, toWord, toNatWithin, (lt_iff.mp hx).2.1, hneg, hinf, Nat.min_eq_right hlarge]
    rfl

/-- A scalar that is not negative is rounded to the nearest whole number, within the word. -/
theorem toWord_round (hx : 0.0 ≤ x) :
    x.round.toWord.toNat = min ⌊x.value + 1 / 2⌋₊ (2 ^ 64 - 1) := by
  obtain ⟨-, hn, hv⟩ := le_iff.mp hx
  rw [value_zero] at hv
  rcases hv.lt_or_eq with hpos | hzero
  · exact toWord_round_of_pos (lt_iff.mpr ⟨isNaN_zero, hn, by rwa [value_zero]⟩)
  · have hfloor : ⌊x.value + 1 / 2⌋₊ = 0 := by
      rw [← hzero, zero_add, Nat.floor_eq_zero]
      norm_num
    have hsigns : x = 0.0 ∨ x = -0.0 := by
      obtain ⟨s, hs⟩ := (value_eq_zero_iff hn).mp hzero.symm
      cases s with
      | positive => exact Or.inl (form_injective hs)
      | negative => exact Or.inr (form_injective hs)
    rw [hfloor]
    rcases hsigns with rfl | rfl <;> decide

/-- Only below one half the word is zero. -/
theorem toWord_round_pos_iff (hx : 0.0 ≤ x) : 0 < x.round.toWord.toNat ↔ 0.5 ≤ x := by
  have hhalf : value 0.5 = 1 / 2 := by
    have hform : form 0.5 = .finite .positive (2 ^ 23) (-24) (by decide) := rfl
    rw [value_of_form hform]
    norm_num
  rw [toWord_round hx, le_iff_value (by decide) (le_iff.mp hx).2.1, hhalf, lt_min_iff, Nat.floor_pos]
  constructor
  · rintro ⟨h, -⟩
    linarith
  · intro h
    exact ⟨by linarith, by decide⟩

end Quadrotor.Scalar

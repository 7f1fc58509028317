import Mathlib
import Quadrotor.Proofs.Scalar.Quotient
import Quadrotor.Proofs.Scalar.WholeNumber
import Quadrotor.Time

/-!
# The time of a step

A simulation takes as many steps a second as its rate says, and a step takes a whole number of
microseconds, the nearest one. With more than two steps a microsecond that is none at all. Both the
length of the step and its length in microseconds are rounded before, which does not move this
bound: two million steps a second are exactly half a microsecond each, and at the next rate that a
scalar can hold the step is already shorter.
-/

namespace Quadrotor.Time

open Scalar

variable {rate : Scalar}

/-- The length of a step in microseconds, before it is rounded to a whole number of them. -/
def stepLength (rate : Scalar) : Scalar := 1.0 / rate * 1e6

theorem stepLength_nonneg (h : isPositive rate = true) : 0.0 ≤ stepLength rate :=
  nonneg_mul (nonneg_div_isPositive (by decide) h) (by decide) (by decide)

theorem stepLength_le {r r' : Scalar} (h : isPositive r = true) (h' : isPositive r' = true)
    (hle : r ≤ r') : stepLength r' ≤ stepLength r :=
  mul_le_mul_of_le (nonneg_div_isPositive (by decide) h')
    (div_le_div_of_le (by decide) (by decide) h h' hle) (by decide) (by decide)

/-- Above two million a scalar has three binary digits below the point at most. -/
theorem next_rate_le (h : isPositive rate = true) (hlt : 2000000.0 < rate) : 2000000.125 ≤ rate := by
  obtain ⟨hf, hpos⟩ := isPositive_iff.mp h
  obtain ⟨n, s, hv, hn, -, -⟩ := exists_digits hf
  rw [abs_of_pos (lt_iff.mp hpos).2.2] at hv
  have hlow : value 2000000.0 = 2000000 := by
    have hform : form 2000000.0 = .finite .positive 16000000 (-3) (by decide) := rfl
    rw [value_of_form hform]
    norm_num
  have hhigh : value 2000000.125 = 2000000 + 1 / 8 := by
    have hform : form 2000000.125 = .finite .positive 16000001 (-3) (by decide) := rfl
    rw [value_of_form hform]
    norm_num
  have hlt' : 2000000 < rate.value := hlow ▸ (lt_iff.mp hlt).2.2
  have hs : -3 ≤ s := by
    by_contra hs
    have hsmall : (2 : ℚ) ^ s ≤ 2 ^ (-4 : ℤ) := zpow_le_zpow_right₀ one_le_two (by omega)
    have hn' : (n : ℚ) < 2 ^ 24 := by exact_mod_cast hn
    have hbelow : rate.value ≤ 2 ^ 24 * 2 ^ (-4 : ℤ) := by
      rw [hv]
      gcongr
    norm_num at hbelow
    linarith
  -- Eight times the rate is a whole number.
  obtain ⟨k, hk⟩ := Int.eq_ofNat_of_zero_le (show 0 ≤ s + 3 by omega)
  have hwhole : 8 * rate.value = (n * 2 ^ k : ℕ) := by
    rw [hv, show s = k + -3 by omega, zpow_add₀ two_ne_zero, zpow_natCast]
    push_cast
    ring
  have hlarge : 16000000 < n * 2 ^ k := by
    have : (16000000 : ℚ) < (n * 2 ^ k : ℕ) := by
      rw [← hwhole]
      linarith
    exact_mod_cast this
  have hnext : (16000001 : ℚ) ≤ (n * 2 ^ k : ℕ) := by exact_mod_cast hlarge
  rw [le_iff_value (by decide) (isNaN_of_isFinite hf), hhigh]
  rw [← hwhole] at hnext
  linarith

theorem half_le_stepLength (h : isPositive rate = true) :
    0.5 ≤ stepLength rate ↔ rate ≤ 2000000.0 := by
  have hn : rate.isNaN = false := isNaN_of_isFinite (isPositive_iff.mp h).1
  constructor
  · intro hhalf
    by_contra hle
    have hlt : 2000000.0 < rate := by
      rw [lt_iff_value (by decide) hn]
      rw [le_iff_value hn (by decide), not_le] at hle
      exact hle
    have hshort := stepLength_le (by decide) h (next_rate_le h hlt)
    exact absurd (le_trans hhalf hshort) (by decide)
  · intro hle
    exact le_trans (by decide) (stepLength_le h (by decide) hle)

/-- The steps of a simulation take time exactly up to two million of them a second. -/
theorem ofSeconds_step_pos (h : isPositive rate = true) :
    0 < (ofSeconds (1.0 / rate)).toNat ↔ rate ≤ 2000000.0 :=
  (toWord_round_pos_iff (stepLength_nonneg h)).trans (half_le_stepLength h)

end Quadrotor.Time

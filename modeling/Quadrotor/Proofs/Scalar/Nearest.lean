import Mathlib
import Quadrotor.Proofs.Scalar.Nonneg

/-!
# The error of rounding

Of an operation on finite scalars more is known than that its result is next to the exact one. It
is the nearest scalar, so it is off by half a unit in the last place at most, and it grows with the
exact result. A result with few enough digits is exact, and a result that exceeds a power of two by
no more than half a unit is rounded down to it.
-/

namespace Quadrotor.Scalar

open Float.Model (UnpackedFloat)
open Float.Model.UnpackedFloat

namespace Nearest

variable {p q : ℚ} {r r' t t' : ℤ}

/-- A multiple of the power of two is not rounded. -/
theorem eq_of_multiple {n : ℤ} (h : Nearest (n * 2 ^ t) r t) : r = n :=
  le_antisymm (h.ge_of_ge le_rfl) (h.le_of_le le_rfl)

theorem le_full (h : Nearest q r t) : r ≤ 2 ^ 24 := by
  refine h.ge_of_ge ?_
  push_cast
  exact (le_abs_self q).trans h.fits

/-! ## Order -/

theorem mono_of_lt (h : Nearest p r t) (h' : Nearest q r' t') (hlt : t < t') (hpq : p ≤ q) :
    (r : ℚ) * 2 ^ t ≤ r' * 2 ^ t' := by
  have hp : (0 : ℚ) < 2 ^ t := by positivity
  -- What the coarser grid keeps of its numbers begins where the finer one ends.
  have hstep : (2 : ℚ) ^ 24 * 2 ^ t ≤ 2 ^ 23 * 2 ^ t' := by
    have hle : (2 : ℚ) ^ (t + 1) ≤ 2 ^ t' := zpow_le_zpow_right₀ one_le_two hlt
    rw [zpow_add_one₀ two_ne_zero] at hle
    linarith
  have hfull := h'.full.resolve_right (by have := h.least; omega)
  rcases le_or_gt 0 q with hq | hq
  · rw [abs_of_nonneg hq] at hfull
    have hlow : (2 : ℤ) ^ 23 ≤ r' := h'.le_of_le (by push_cast; exact hfull)
    have hlow' : (2 : ℚ) ^ 23 ≤ r' := by exact_mod_cast hlow
    have hhigh : (r : ℚ) ≤ 2 ^ 24 := by exact_mod_cast h.le_full
    calc (r : ℚ) * 2 ^ t ≤ 2 ^ 24 * 2 ^ t := by gcongr
      _ ≤ 2 ^ 23 * 2 ^ t' := hstep
      _ ≤ r' * 2 ^ t' := by gcongr
  · rw [abs_of_neg hq] at hfull
    have hfits := (abs_le.mp h.fits).1
    have hp' : p = (-2 ^ 24 : ℤ) * 2 ^ t := by push_cast; linarith
    have hq' : q = (-2 ^ 23 : ℤ) * 2 ^ t' := by push_cast; linarith
    rw [hp'] at h
    rw [hq'] at h'
    rw [h.eq_of_multiple, h'.eq_of_multiple, ← hp', ← hq']
    exact hpq

/-- Rounding keeps the order. -/
theorem mono (h : Nearest p r t) (h' : Nearest q r' t') (hpq : p ≤ q) :
    (r : ℚ) * 2 ^ t ≤ r' * 2 ^ t' := by
  rcases lt_trichotomy t t' with hlt | rfl | hgt
  · exact h.mono_of_lt h' hlt hpq
  · have hpos : (0 : ℚ) < 2 ^ t := by positivity
    rw [mul_le_mul_iff_of_pos_right hpos, Int.cast_le]
    by_contra hlt
    -- Two numbers in the wrong order would both be halfway, and only one of them is even.
    have hr : (r' : ℚ) + 1 ≤ r := by exact_mod_cast not_le.mp hlt
    have hr' : ((r' : ℚ) + 1) * 2 ^ t ≤ r * 2 ^ t := mul_le_mul_of_nonneg_right hr hpos.le
    have hlow := (abs_le.mp h.near).1
    have hhigh := (abs_le.mp h'.near).2
    have hr1 : (r : ℚ) * 2 ^ t = (r' + 1) * 2 ^ t := by linarith
    have hsucc : r = r' + 1 := by
      have := mul_right_cancel₀ hpos.ne' hr1
      exact_mod_cast this
    have heven : Even r := h.even (by
      rw [abs_of_neg (by linarith)]
      linarith)
    have heven' : Even r' := h'.even (by
      rw [abs_of_pos (by linarith)]
      linarith)
    rw [Int.even_iff] at heven heven'
    omega
  · have hneg := h'.neg.mono_of_lt h.neg hgt (neg_le_neg hpq)
    push_cast at hneg
    linarith

/-! ## Exact results -/

/-- A number of 24 digits is not rounded. -/
theorem eq_of_digits {n s : ℤ} (h : Nearest (n * 2 ^ s) r t) (hn : |n| ≤ 2 ^ 24) (hs : -149 ≤ s) :
    (r : ℚ) * 2 ^ t = n * 2 ^ s := by
  have hn' : |(n : ℚ)| ≤ 2 ^ 24 := by exact_mod_cast hn
  rcases le_or_gt t s with hts | hst
  · have hmultiple : (n : ℚ) * 2 ^ s = (n * 2 ^ (s - t).toNat : ℤ) * 2 ^ t := by
      push_cast
      rw [mul_assoc, shift_amount hts]
    rw [hmultiple] at h ⊢
    rw [h.eq_of_multiple]
  · -- Only the largest of these numbers reaches the next grid.
    have hpos : (0 : ℚ) < 2 ^ s := by positivity
    have hstep : (2 : ℚ) ^ s * 2 ≤ 2 ^ t := by
      rw [← zpow_add_one₀ two_ne_zero]
      exact zpow_le_zpow_right₀ one_le_two hst
    have hfull := h.full.resolve_right (by omega)
    rw [abs_mul, abs_of_pos hpos] at hfull
    have hle : |(n : ℚ)| * 2 ^ s ≤ 2 ^ 24 * 2 ^ s := by gcongr
    have ht : (2 : ℚ) ^ t = 2 ^ s * 2 := by linarith
    have habs : |(n : ℚ)| = 2 ^ 24 := by
      refine mul_right_cancel₀ hpos.ne' (le_antisymm hle ?_)
      rw [ht] at hfull
      linarith
    obtain ⟨k, hk⟩ : ∃ k : ℤ, (n : ℚ) = 2 * k := by
      rcases abs_eq (by positivity) |>.mp habs with h1 | h1
      · exact ⟨2 ^ 23, by rw [h1]; norm_num⟩
      · exact ⟨-2 ^ 23, by rw [h1]; norm_num⟩
    have hmultiple : (n : ℚ) * 2 ^ s = k * 2 ^ t := by rw [hk, ht]; ring
    rw [hmultiple] at h ⊢
    rw [h.eq_of_multiple]

/-- Whatever has digits can be rounded. -/
theorem exists_of_digits (n : ℕ) (s : ℤ) : ∃ r t, Nearest (n * 2 ^ s) r t := by
  rcases Nat.eq_zero_or_pos n with rfl | hn
  · have h := nearest_self (r := 0) (t := -149) le_rfl (Or.inr rfl) (by decide)
    exact ⟨0, -149, by simpa using h⟩
  · obtain ⟨r, t, h, -⟩ := (rounds_round hn s .positive).nearest
    exact ⟨r, t, by simpa [Sign.apply] using h⟩

/-- A number of 24 digits is not passed. -/
theorem le_digits {n : ℕ} {s : ℤ} (h : Nearest q r t) (hn : n ≤ 2 ^ 24) (hs : -149 ≤ s)
    (hq : q ≤ n * 2 ^ s) : (r : ℚ) * 2 ^ t ≤ n * 2 ^ s := by
  obtain ⟨r', t', h'⟩ := exists_of_digits n s
  have hexact := eq_of_digits (n := n) (s := s) (by exact_mod_cast h')
    (by rw [Nat.abs_cast]; exact_mod_cast hn) hs
  rw [Int.cast_natCast] at hexact
  rw [← hexact]
  exact h.mono h' hq

theorem abs_le_digits {n : ℕ} {s : ℤ} (h : Nearest q r t) (hn : n ≤ 2 ^ 24) (hs : -149 ≤ s)
    (hq : |q| ≤ n * 2 ^ s) : |(r : ℚ) * 2 ^ t| ≤ n * 2 ^ s := by
  have hneg := h.neg.le_digits hn hs ((neg_le_abs q).trans hq)
  push_cast at hneg
  exact abs_le.mpr ⟨by linarith, h.le_digits hn hs ((le_abs_self q).trans hq)⟩

/-! ## The size of the error -/

/-- The rounding error is half a unit in the 24th place at most. -/
theorem error_le {e : ℤ} (h : Nearest q r t) (he : -125 ≤ e) (hq : |q| ≤ 2 ^ e) :
    |q - r * 2 ^ t| ≤ 2 ^ (e - 25) := by
  rcases le_or_gt t (e - 24) with hte | het
  · refine h.near.trans ?_
    have hle : (2 : ℚ) ^ t ≤ 2 ^ (e - 25 + 1) := zpow_le_zpow_right₀ one_le_two (by omega)
    rw [zpow_add_one₀ two_ne_zero] at hle
    linarith
  · -- With a coarser grid the number is at its end, where nothing is rounded.
    have hfull := h.full.resolve_right (by omega)
    have hle : (2 : ℚ) ^ e ≤ 2 ^ 23 * 2 ^ t := by
      rw [← zpow_natCast, ← zpow_add₀ two_ne_zero]
      exact zpow_le_zpow_right₀ one_le_two (by push_cast; omega)
    have habs : |q| = 2 ^ 23 * 2 ^ t := le_antisymm (hq.trans hle) hfull
    obtain ⟨n, hn⟩ : ∃ n : ℤ, q = n * 2 ^ t := by
      rcases abs_eq (by positivity) |>.mp habs with h1 | h1
      · exact ⟨2 ^ 23, by rw [h1]; norm_num⟩
      · exact ⟨-2 ^ 23, by rw [h1]; push_cast; ring⟩
    rw [hn] at h ⊢
    rw [h.eq_of_multiple, sub_self, abs_zero]
    positivity

/-- Half a unit above a power of two, the power is the even neighbour. -/
theorem nearest_midpoint {e : ℤ} (he : -126 ≤ e) :
    Nearest (2 ^ e + 2 ^ (e - 24)) (2 ^ 23) (e - 23) := by
  have hpow : (2 : ℚ) ^ 23 * 2 ^ (e - 23) = 2 ^ e := by
    rw [← zpow_natCast, ← zpow_add₀ two_ne_zero]
    congr 1
    push_cast
    ring
  have hhalf : (2 : ℚ) ^ (e - 23) = 2 ^ (e - 24) * 2 := by
    rw [← zpow_add_one₀ two_ne_zero]
    congr 1
    ring
  have hpos : (0 : ℚ) < 2 ^ (e - 24) := by positivity
  refine ⟨by omega, Or.inl ?_, ?_, ?_, fun _ => by decide⟩
  · rw [abs_of_pos (by positivity), hpow]
    linarith
  · rw [abs_of_pos (by positivity), ← hpow]
    linarith
  · rw [Int.cast_pow, Int.cast_ofNat, hpow, add_sub_cancel_left, abs_of_pos hpos, hhalf]
    linarith

/-- A number that exceeds a power of two by no more than half a unit is rounded down to it. -/
theorem le_pow {e : ℤ} (h : Nearest q r t) (he : -126 ≤ e) (hq : q ≤ 2 ^ e + 2 ^ (e - 24)) :
    (r : ℚ) * 2 ^ t ≤ 2 ^ e := by
  have hmono := h.mono (nearest_midpoint he) hq
  rw [show e = 23 + (e - 23) by ring, zpow_add₀ two_ne_zero]
  push_cast at hmono
  exact hmono

theorem abs_le_pow {e : ℤ} (h : Nearest q r t) (he : -126 ≤ e) (hq : |q| ≤ 2 ^ e + 2 ^ (e - 24)) :
    |(r : ℚ) * 2 ^ t| ≤ 2 ^ e := by
  have hneg := h.neg.le_pow he ((neg_le_abs q).trans hq)
  push_cast at hneg
  exact abs_le.mpr ⟨by linarith, h.le_pow he ((le_abs_self q).trans hq)⟩

/-- A quarter of a unit below a power of two, where the places are half as wide, the power is the
even neighbour. -/
theorem nearest_midpoint_below {e : ℤ} (he : -125 ≤ e) :
    Nearest (2 ^ e - 2 ^ (e - 25)) (2 ^ 24) (e - 24) := by
  have hpow : (2 : ℚ) ^ 24 * 2 ^ (e - 24) = 2 ^ e := by
    rw [← zpow_natCast, ← zpow_add₀ two_ne_zero]
    congr 1
    push_cast
    ring
  have hhalf : (2 : ℚ) ^ (e - 24) = 2 ^ (e - 25) * 2 := by
    rw [← zpow_add_one₀ two_ne_zero]
    congr 1
    ring
  have hpos : (0 : ℚ) < 2 ^ (e - 25) := by positivity
  refine ⟨by omega, Or.inl ?_, ?_, ?_, fun _ => by decide⟩
  · rw [abs_of_pos (by linarith)]
    linarith
  · rw [abs_of_pos (by linarith), hpow]
    linarith
  · rw [Int.cast_pow, Int.cast_ofNat, hpow, abs_of_neg (by linarith)]
    linarith

/-- A number that falls short of a power of two by no more than that is rounded up to it. -/
theorem pow_le {e : ℤ} (h : Nearest q r t) (he : -125 ≤ e) (hq : 2 ^ e - 2 ^ (e - 25) ≤ q) :
    (2 : ℚ) ^ e ≤ r * 2 ^ t := by
  have hmono := (nearest_midpoint_below he).mono h hq
  rw [show e = 24 + (e - 24) by ring, zpow_add₀ two_ne_zero]
  push_cast at hmono
  exact hmono

theorem abs_le_half (h : Nearest q r t) : |(r : ℚ) * 2 ^ t| ≤ |q| + 2 ^ t / 2 := by
  have hsub := abs_sub_abs_le_abs_sub ((r : ℚ) * 2 ^ t) q
  rw [abs_sub_comm] at hsub
  linarith [h.near]

/-- A number that is nearer to one with 24 digits than to the next is rounded to it at most. -/
theorem abs_le_of_lt_midpoint {n : ℕ} {s : ℤ} (h : Nearest q r t) (hn : 2 ^ 23 ≤ n)
    (hn' : n < 2 ^ 24) (hs : -149 ≤ s) (hq : |q| < (n + 1 / 2) * 2 ^ s) :
    |(r : ℚ) * 2 ^ t| ≤ n * 2 ^ s := by
  have hpos : (0 : ℚ) < 2 ^ s := by positivity
  have hlow : (2 : ℚ) ^ 23 ≤ n := by exact_mod_cast hn
  have hhigh : (n : ℚ) + 1 ≤ 2 ^ 24 := by exact_mod_cast hn'
  rcases lt_trichotomy t s with hlt | rfl | hgt
  · have hfull : |(r : ℚ)| ≤ 2 ^ 24 := by
      have hneg := h.neg.le_full
      have hle := h.le_full
      rw [← Int.cast_abs]
      exact_mod_cast abs_le.mpr ⟨by omega, hle⟩
    have hstep : (2 : ℚ) ^ 24 * 2 ^ t ≤ 2 ^ 23 * 2 ^ s := by
      have hle : (2 : ℚ) ^ (t + 1) ≤ 2 ^ s := zpow_le_zpow_right₀ one_le_two hlt
      rw [zpow_add_one₀ two_ne_zero] at hle
      linarith
    rw [abs_mul, abs_of_pos (show (0 : ℚ) < 2 ^ t by positivity)]
    calc |(r : ℚ)| * 2 ^ t ≤ 2 ^ 24 * 2 ^ t := by gcongr
      _ ≤ 2 ^ 23 * 2 ^ s := hstep
      _ ≤ n * 2 ^ s := by gcongr
  · rw [abs_mul, abs_of_pos hpos, mul_le_mul_iff_of_pos_right hpos]
    have hnear := h.abs_le_half
    rw [abs_mul, abs_of_pos hpos] at hnear
    have hlt : |(r : ℚ)| * 2 ^ t < (n + 1) * 2 ^ t := by linarith
    have hlt' : |(r : ℚ)| < n + 1 := lt_of_mul_lt_mul_right hlt hpos.le
    rw [← Int.cast_abs] at hlt' ⊢
    exact_mod_cast Int.lt_add_one_iff.mp (by exact_mod_cast hlt')
  · -- A coarser grid would leave the number fewer than 24 digits.
    have hfull := h.full.resolve_right (by omega)
    have hle : (2 : ℚ) ^ (s + 1) ≤ 2 ^ t := zpow_le_zpow_right₀ one_le_two hgt
    rw [zpow_add_one₀ two_ne_zero] at hle
    have hlt : (n + 1 / 2 : ℚ) * 2 ^ s < 2 ^ 24 * 2 ^ s := by
      gcongr
      linarith
    linarith

/-- The rounding error in proportion to the number, with what is lost below the least scalar. -/
theorem abs_le_add (h : Nearest q r t) :
    |(r : ℚ) * 2 ^ t| ≤ |q| * (1 + 2 ^ (-24 : ℤ)) + 2 ^ (-150 : ℤ) := by
  rw [mul_add, mul_one, add_assoc]
  refine h.abs_le_half.trans ((add_le_add_iff_left _).mpr ?_)
  rcases h.full with hfull | rfl
  · have hhalf : (2 : ℚ) ^ t / 2 = 2 ^ 23 * 2 ^ t * 2 ^ (-24 : ℤ) := by
      norm_num
      ring
    rw [hhalf]
    exact (mul_le_mul_of_nonneg_right hfull (by positivity)).trans
      (le_add_of_nonneg_right (by positivity))
  · have hhalf : (2 : ℚ) ^ (-149 : ℤ) / 2 = 2 ^ (-150 : ℤ) := by norm_num
    rw [hhalf]
    exact le_add_of_nonneg_left (by positivity)

end Nearest

/-! ## The digits of a scalar -/

/-- A finite scalar has no more than 24 digits. -/
theorem exists_digits {x : Scalar} (hx : x.isFinite = true) :
    ∃ (n : ℕ) (s : ℤ), |x.value| = n * 2 ^ s ∧ n < 2 ^ 24 ∧ -149 ≤ s ∧ s ≤ 104 := by
  have hform := form_isForm x
  change x.form.isFinite = true at hx
  unfold value
  cases h : x.form with
  | notANumber | infinity s => rw [h] at hx; cases hx
  | zero s => exact ⟨0, -149, by simp, by decide, le_rfl, by decide⟩
  | finite s m e hm =>
    rw [h] at hform
    exact ⟨m, e, abs_formValue s e hm, hform.1.1, hform.1.2.1, hform.2⟩

/-- The largest finite scalar. -/
theorem abs_le_largest {x : Scalar} (hx : x.isFinite = true) : |x.value| ≤ 2 ^ 128 - 2 ^ 104 := by
  obtain ⟨n, s, hv, hn, -, hs⟩ := exists_digits hx
  have hn' : (n : ℚ) ≤ 2 ^ 24 - 1 := by
    have hsucc : (n : ℚ) + 1 ≤ 2 ^ 24 := by exact_mod_cast hn
    linarith
  have hs' : (2 : ℚ) ^ s ≤ 2 ^ (104 : ℤ) := zpow_le_zpow_right₀ one_le_two hs
  calc |x.value| = n * 2 ^ s := hv
    _ ≤ (2 ^ 24 - 1) * 2 ^ (104 : ℤ) := by gcongr
    _ = 2 ^ 128 - 2 ^ 104 := by norm_num

/-- The smallest positive scalar. -/
theorem least_le {x : Scalar} (hx : x.isFinite = true) (h0 : x.value ≠ 0) :
    2 ^ (-149 : ℤ) ≤ |x.value| := by
  obtain ⟨n, s, hv, -, hs, -⟩ := exists_digits hx
  have hn : (1 : ℚ) ≤ n := by
    have hpos : n ≠ 0 := by
      rintro rfl
      rw [Nat.cast_zero, zero_mul, abs_eq_zero] at hv
      exact h0 hv
    exact_mod_cast Nat.one_le_iff_ne_zero.mpr hpos
  have hs' : (2 : ℚ) ^ (-149 : ℤ) ≤ 2 ^ s := zpow_le_zpow_right₀ one_le_two hs
  calc (2 : ℚ) ^ (-149 : ℤ) = 1 * 2 ^ (-149 : ℤ) := (one_mul _).symm
    _ ≤ n * 2 ^ s := by gcongr
    _ = |x.value| := hv.symm

/-! ## Rounded scalars -/

namespace Rounds

variable {p q : ℚ} {x y : Scalar}

theorem isNaN (h : Rounds q x.form) : x.isNaN = false := h.faithful.isNaN

theorem saturated_mono {p q : ℚ} (h : p ≤ q) : saturated p ≤ saturated q :=
  max_le_max_left _ (min_le_min_right _ h)

/-- Rounding keeps the order. -/
theorem le (hx : Rounds p x.form) (hy : Rounds q y.form) (h : p ≤ q) : x ≤ y := by
  obtain ⟨r, t, hr, hxv⟩ := hx.nearest
  obtain ⟨r', t', hr', hyv⟩ := hy.nearest
  refine (le_iff_value hx.isNaN hy.isNaN).mpr ?_
  rw [value, value, hxv, hyv]
  exact saturated_mono (hr.mono hr' h)

/-- A result of 24 digits is exact, unless it is beyond the finite scalars. -/
theorem value_of_digits {n s : ℤ} (h : Rounds (n * 2 ^ s) x.form) (hn : |n| ≤ 2 ^ 24)
    (hs : -149 ≤ s) (hlt : |(n : ℚ) * 2 ^ s| < 2 ^ 128) :
    x.isFinite = true ∧ x.value = n * 2 ^ s := by
  obtain ⟨r, t, hr, hv⟩ := h.nearest
  have hvalue : x.value = n * 2 ^ s := by
    rw [value, hv, hr.eq_of_digits hn hs, saturated_of_abs_le hlt.le]
  exact ⟨isFinite_iff.mpr ⟨h.isNaN, by rw [hvalue]; exact hlt⟩, hvalue⟩

/-- Where the nearest multiple cannot overflow, it is the result. -/
theorem exists_nearest {b : ℚ} (h : Rounds q x.form) (hb : b < 2 ^ 128)
    (hle : ∀ r t : ℤ, Nearest q r t → |(r : ℚ) * 2 ^ t| ≤ b) :
    x.isFinite = true ∧ |x.value| ≤ b ∧ ∃ r t : ℤ, Nearest q r t ∧ x.value = r * 2 ^ t := by
  obtain ⟨r, t, hr, hv⟩ := h.nearest
  have hvalue : x.value = r * 2 ^ t := by
    rw [value, hv, saturated_of_abs_le ((hle r t hr).trans hb.le)]
  have habs : |x.value| ≤ b := hvalue ▸ hle r t hr
  exact ⟨isFinite_iff.mpr ⟨h.isNaN, habs.trans_lt hb⟩, habs, r, t, hr, hvalue⟩

/-- A result does not pass a number of 24 digits. -/
theorem abs_le_of_digits {n : ℕ} {s : ℤ} (h : Rounds q x.form) (hn : n ≤ 2 ^ 24) (hs : -149 ≤ s)
    (hlt : (n : ℚ) * 2 ^ s < 2 ^ 128) (hq : |q| ≤ n * 2 ^ s) :
    x.isFinite = true ∧ |x.value| ≤ n * 2 ^ s := by
  obtain ⟨hf, habs, -⟩ := h.exists_nearest hlt fun r t hr => hr.abs_le_digits hn hs hq
  exact ⟨hf, habs⟩

/-- A result is no more than the scalar that the exact result is nearer to than to the next. -/
theorem abs_le_of_lt_midpoint {n : ℕ} {s : ℤ} (h : Rounds q x.form) (hn : 2 ^ 23 ≤ n)
    (hn' : n < 2 ^ 24) (hs : -149 ≤ s) (hlt : (n : ℚ) * 2 ^ s < 2 ^ 128)
    (hq : |q| < (n + 1 / 2) * 2 ^ s) : x.isFinite = true ∧ |x.value| ≤ n * 2 ^ s := by
  obtain ⟨hf, habs, -⟩ := h.exists_nearest hlt fun r t hr =>
    hr.abs_le_of_lt_midpoint hn hn' hs hq
  exact ⟨hf, habs⟩

theorem pow_lt_limit {e : ℤ} (he : e < 128) : (2 : ℚ) ^ e < 2 ^ 128 := by
  rw [← zpow_natCast]
  exact zpow_lt_zpow_right₀ one_lt_two he

/-- A result that exceeds a power of two by no more than half a unit does not exceed it once it is
rounded. -/
theorem abs_le_pow {e : ℤ} (h : Rounds q x.form) (he : -126 ≤ e) (he' : e < 128)
    (hq : |q| ≤ 2 ^ e + 2 ^ (e - 24)) : x.isFinite = true ∧ |x.value| ≤ 2 ^ e := by
  obtain ⟨hf, habs, -⟩ := h.exists_nearest (pow_lt_limit he') fun r t hr => hr.abs_le_pow he hq
  exact ⟨hf, habs⟩

theorem abs_le_of_le_pow {e : ℤ} (h : Rounds q x.form) (he : -126 ≤ e) (he' : e < 128)
    (hq : |q| ≤ 2 ^ e) : x.isFinite = true ∧ |x.value| ≤ 2 ^ e :=
  h.abs_le_pow he he' (hq.trans (le_add_of_nonneg_right (by positivity)))

/-- The magnitude of a result in proportion to that of the exact one. -/
theorem abs_le_add {b : ℚ} (h : Rounds q x.form) (hb : b < 2 ^ 128)
    (hq : |q| * (1 + 2 ^ (-24 : ℤ)) + 2 ^ (-150 : ℤ) ≤ b) :
    x.isFinite = true ∧ |x.value| ≤ b := by
  obtain ⟨hf, habs, -⟩ := h.exists_nearest hb fun r t hr => hr.abs_le_add.trans hq
  exact ⟨hf, habs⟩

/-- A result that falls short of a power of two by no more than a quarter of a unit reaches it. -/
theorem pow_le {e : ℤ} (h : Rounds q x.form) (he : -125 ≤ e) (he' : e ≤ 128)
    (hq : 2 ^ e - 2 ^ (e - 25) ≤ q) : 2 ^ e ≤ x.value := by
  obtain ⟨r, t, hr, hv⟩ := h.nearest
  have hlimit : (2 : ℚ) ^ e ≤ 2 ^ 128 := by
    rw [← zpow_natCast]
    exact zpow_le_zpow_right₀ one_le_two he'
  rw [value, hv]
  exact le_max_of_le_right (le_min (hr.pow_le he hq) hlimit)

theorem pow_le_of_le {e : ℤ} (h : Rounds q x.form) (he : -125 ≤ e) (he' : e ≤ 128)
    (hq : 2 ^ e ≤ q) : 2 ^ e ≤ x.value :=
  h.pow_le he he' ((sub_le_self _ (by positivity)).trans hq)

/-- A result is off by half a unit at most. -/
theorem error_le {e : ℤ} (h : Rounds q x.form) (he : -125 ≤ e) (he' : e < 128) (hq : |q| ≤ 2 ^ e) :
    |q - x.value| ≤ 2 ^ (e - 25) := by
  have hpos : (0 : ℚ) < 2 ^ (e - 24) := by positivity
  obtain ⟨-, -, r, t, hr, hv⟩ := h.exists_nearest (pow_lt_limit he') fun r t hr =>
    hr.abs_le_pow (by omega) (by linarith)
  rw [hv]
  exact hr.error_le he hq

end Rounds

/-! ## The order of results -/

/-- No number is above an infinity that is not negative. -/
theorem le_of_not_isFinite {x y : Scalar} (hx : x.isNaN = false) (hy : 0.0 ≤ y)
    (hf : ¬y.isFinite = true) : x ≤ y := by
  refine (le_iff_value hx (le_iff.mp hy).2.1).mpr ?_
  rw [value_infinity (form_of_nonneg hy hf)]
  exact (le_abs_self _).trans (abs_value_le hx)

/-- A sum grows with the number that is added. -/
theorem add_le_add_of_le {x y z : Scalar} (hx : 0.0 ≤ x) (hfx : x.isFinite = true) (hy : 0.0 ≤ y)
    (h : y ≤ z) : x + y ≤ x + z := by
  obtain ⟨_, hz, hv⟩ := le_iff.mp h
  have hz0 : 0.0 ≤ z := le_trans hy h
  by_cases hfz : z.isFinite = true
  · have hfy : y.isFinite = true := isFinite_of_mem rfl hfz hy h
    exact (rounds_add hfx hfy).le (rounds_add hfx hfz) (by linarith)
  · have hsum := form_infinity_add hfx (form_of_nonneg hz0 hfz)
    refine le_of_not_isFinite (le_iff.mp (nonneg_add hx hy)).2.1 (nonneg_of_form hsum) ?_
    change ¬(x + z).form.isFinite = true
    rw [hsum]
    decide

/-- A product with a positive number grows with the other factor. -/
theorem mul_le_mul_of_le {x y z : Scalar} (hx : 0.0 ≤ x) (h : x ≤ y) (hz : 0.0 < z)
    (hfz : z.isFinite = true) : x * z ≤ y * z := by
  obtain ⟨_, hy, hv⟩ := le_iff.mp h
  have hy0 : 0.0 ≤ y := le_trans hx h
  by_cases hfy : y.isFinite = true
  · have hfx : x.isFinite = true := isFinite_of_mem rfl hfy hx h
    have hz0 : 0 ≤ z.value := (lt_iff.mp hz).2.2.le
    exact (rounds_mul hfx hfz).le (rounds_mul hfy hfz) (mul_le_mul_of_nonneg_right hv hz0)
  · have hform := form_infinity_mul (form_of_nonneg hy0 hfy) hz hfz
    refine le_of_not_isFinite (le_iff.mp (nonneg_mul hx hz hfz)).2.1 (nonneg_of_form hform) ?_
    change ¬(y * z).form.isFinite = true
    rw [hform]
    decide

/-! ## Whole numbers -/

/-- A word is converted by rounding it. -/
theorem rounds_ofWord (n : UInt32) : Rounds n.toNat (form n.toFloat32) := by
  have h := rounds_normalize n.toNat 0 .positive
  rw [zpow_zero, mul_one, Int.cast_natCast] at h
  exact h

/-- A word of 24 digits is converted as it is. -/
theorem value_ofWord {n : UInt32} (h : n.toNat ≤ 2 ^ 24) :
    n.toFloat32.isFinite = true ∧ value n.toFloat32 = n.toNat := by
  have hdigits : (n.toNat : ℚ) = (n.toNat : ℤ) * 2 ^ (0 : ℤ) := by simp
  have hrounds := rounds_ofWord n
  rw [hdigits] at hrounds ⊢
  have hle : (n.toNat : ℚ) ≤ 2 ^ 24 := by exact_mod_cast h
  refine hrounds.value_of_digits ?_ (by decide) ?_
  · rw [Nat.abs_cast]
    exact_mod_cast h
  · rw [← hdigits, Nat.abs_cast]
    exact hle.trans_lt (by norm_num)

end Quadrotor.Scalar

import Mathlib
import Quadrotor.Filter.Kalman

/-!
# The gain that a Kalman filter settles into

The formulas of the filters are read in exact arithmetic here: in any ordered field, so over the
rational numbers in particular. The inputs have no part in the variance of the estimate. After an
input it is the share of that input in the estimate, times the noise of an input. One share is passed
on from input to input, the gain that the process noise is chosen for, and any other share comes
nearer to it by a factor. So a filter that starts out with that gain keeps it, which makes it the
low-pass filter of that gain.
-/

namespace Quadrotor.Kalman

/-! ## A filter at work for a gain -/

section

variable {K : Type} [Field K] [LinearOrder K] {k : K} {f : Kalman K}

/-- The filter is at work with the process noise of the gain `k`, whatever its variance is. -/
structure Tuned (k : K) (f : Kalman K) : Prop where
  lt_one : k < 1
  working : f.passThrough = false
  noise : f.processNoise = processNoiseFor k
  variance_nonneg : 0 ≤ f.variance

theorem tuned_retune (hlt : k < 1) (hvariance : 0 ≤ f.variance) : Tuned k (f.retune k) where
  lt_one := hlt
  working := decide_eq_false hlt.not_ge
  noise := if_neg hlt.not_ge
  variance_nonneg := hvariance

theorem Tuned.update_eq (h : Tuned k f) (z : K) :
    f.update z = { f with
      mean := f.mean + f.gain * (z - f.mean)
      variance := (1 - f.gain) * f.prior } := by
  rw [Kalman.update, if_neg]
  rw [h.working]
  decide

theorem Tuned.mean_update (h : Tuned k f) (z : K) :
    (f.update z).mean = f.gain * z + (1 - f.gain) * f.mean := by
  rw [h.update_eq]
  ring

end

variable {K : Type} [Field K] [LinearOrder K] [IsStrictOrderedRing K] {k : K} {f : Kalman K}

theorem processNoiseFor_nonneg (hlt : k < 1) : 0 ≤ processNoiseFor k :=
  div_nonneg (mul_nonneg (mul_self_nonneg k) zero_le_one) (sub_nonneg.mpr hlt.le)

namespace Tuned

theorem prior_nonneg (h : Tuned k f) : 0 ≤ f.prior := by
  rw [prior, h.noise]
  exact add_nonneg h.variance_nonneg (processNoiseFor_nonneg h.lt_one)

theorem one_le_prior_add (h : Tuned k f) : 1 ≤ f.prior + inputNoise :=
  le_add_of_nonneg_left h.prior_nonneg

theorem prior_add_ne_zero (h : Tuned k f) : f.prior + inputNoise ≠ 0 :=
  (zero_lt_one.trans_le h.one_le_prior_add).ne'

theorem gain_nonneg (h : Tuned k f) : 0 ≤ f.gain :=
  div_nonneg h.prior_nonneg (zero_le_one.trans h.one_le_prior_add)

/-- The variance of the estimate tells the gain of the latest input. -/
theorem variance_update (h : Tuned k f) (z : K) : (f.update z).variance = f.gain * inputNoise := by
  have hsum := h.prior_add_ne_zero
  calc (f.update z).variance = (1 - f.gain) * f.prior := by rw [h.update_eq]
    _ = inputNoise / (f.prior + inputNoise) * f.prior := by
      rw [gain, one_sub_div hsum, add_sub_cancel_left]
    _ = f.gain * inputNoise := by rw [gain, div_mul_comm]

theorem update (h : Tuned k f) (z : K) : Tuned k (f.update z) := by
  have hvariance : 0 ≤ (f.update z).variance := by
    rw [h.variance_update]
    exact mul_nonneg h.gain_nonneg zero_le_one
  rw [h.update_eq] at hvariance ⊢
  exact ⟨h.lt_one, h.working, h.noise, hvariance⟩

/-! ## Coming nearer -/

/-- The gain is `k` for one variance only, and off it by a share of what the variance is off. -/
theorem gain_sub (h : Tuned k f) :
    f.gain - k = (1 - k) * (f.variance - k * inputNoise) / (f.prior + inputNoise) := by
  have hrest : 1 - k ≠ 0 := (sub_pos.mpr h.lt_one).ne'
  have hsum := h.prior_add_ne_zero
  -- Without the common divisor both sides are polynomials in the variance.
  rw [gain, eq_div_iff hsum, sub_mul, div_mul_cancel₀ _ hsum, prior, h.noise]
  unfold processNoiseFor inputNoise
  field_simp
  ring

theorem abs_gain_sub_le (h : Tuned k f) :
    |f.gain - k| ≤ (1 - k) * |f.variance - k * inputNoise| := by
  have hrest : 0 < 1 - k := sub_pos.mpr h.lt_one
  have hsum := h.one_le_prior_add
  rw [h.gain_sub, abs_div, abs_mul, abs_of_pos hrest, abs_of_pos (zero_lt_one.trans_le hsum)]
  exact div_le_self (mul_nonneg hrest.le (abs_nonneg _)) hsum

theorem abs_variance_update_sub_le (h : Tuned k f) (z : K) :
    |(f.update z).variance - k * inputNoise| ≤ (1 - k) * |f.variance - k * inputNoise| := by
  have hsub : (f.update z).variance - k * inputNoise = f.gain - k := by
    rw [h.variance_update, inputNoise, mul_one, mul_one]
  rw [hsub]
  exact h.abs_gain_sub_le

theorem foldl (h : Tuned k f) (zs : List K) : Tuned k (zs.foldl Kalman.update f) :=
  zs.foldlRecOn Kalman.update h fun _ hf z _ => hf.update z

/-- Each input takes a share of `k` at least from the distance that is left. -/
theorem abs_variance_foldl_sub_le (h : Tuned k f) (zs : List K) :
    |(zs.foldl Kalman.update f).variance - k * inputNoise| ≤
      (1 - k) ^ zs.length * |f.variance - k * inputNoise| := by
  have hrest : 0 ≤ 1 - k := sub_nonneg.mpr h.lt_one.le
  induction zs generalizing f with
  | nil => rw [List.foldl_nil, List.length_nil, pow_zero, one_mul]
  | cons z zs ih =>
    calc |((z :: zs).foldl Kalman.update f).variance - k * inputNoise|
        ≤ (1 - k) ^ zs.length * |(f.update z).variance - k * inputNoise| := ih (h.update z)
      _ ≤ (1 - k) ^ zs.length * ((1 - k) * |f.variance - k * inputNoise|) :=
        mul_le_mul_of_nonneg_left (h.abs_variance_update_sub_le z) (pow_nonneg hrest _)
      _ = (1 - k) ^ (z :: zs).length * |f.variance - k * inputNoise| := by
        rw [List.length_cons, pow_succ, mul_assoc]

end Tuned

/-- A filter that is retuned settles into its new gain, whatever its variance has been. -/
theorem abs_gain_retune_sub_le (hlt : k < 1) (hvariance : 0 ≤ f.variance) (zs : List K) :
    |(zs.foldl update (f.retune k)).gain - k| ≤
      (1 - k) ^ (zs.length + 1) * |f.variance - k * inputNoise| := by
  have htuned := tuned_retune hlt hvariance
  calc |(zs.foldl update (f.retune k)).gain - k|
      ≤ (1 - k) * |(zs.foldl update (f.retune k)).variance - k * inputNoise| :=
        (htuned.foldl zs).abs_gain_sub_le
    _ ≤ (1 - k) * ((1 - k) ^ zs.length * |f.variance - k * inputNoise|) :=
        mul_le_mul_of_nonneg_left (htuned.abs_variance_foldl_sub_le zs) (sub_nonneg.mpr hlt.le)
    _ = (1 - k) ^ (zs.length + 1) * |f.variance - k * inputNoise| := by
        rw [pow_succ', mul_assoc]

/-! ## Staying there -/

/-- The filter has the variance that an input with the gain `k` leaves. -/
structure Settled (k : K) (f : Kalman K) : Prop extends Tuned k f where
  variance_eq : f.variance = k * inputNoise

theorem settled_ofGain (hpos : 0 < k) (hlt : k < 1) : Settled k (ofGain k) :=
  ⟨tuned_retune hlt (mul_nonneg hpos.le zero_le_one), rfl⟩

namespace Settled

theorem gain_eq (h : Settled k f) : f.gain = k := by
  have hsub := h.gain_sub
  rw [h.variance_eq, sub_self, mul_zero, zero_div] at hsub
  exact sub_eq_zero.mp hsub

theorem update (h : Settled k f) (z : K) : Settled k (f.update z) :=
  ⟨h.toTuned.update z, by rw [h.variance_update, h.gain_eq]⟩

theorem foldl (h : Settled k f) (zs : List K) : Settled k (zs.foldl Kalman.update f) :=
  zs.foldlRecOn Kalman.update h fun _ hf z _ => hf.update z

/-- A settled filter and a low-pass filter of its gain stay together from any common output on. -/
theorem mean_foldl {g : Lowpass K} (h : Settled k f) (hgain : g.gain = k) (hmean : f.mean = g.y)
    (zs : List K) : (zs.foldl Kalman.update f).mean = (zs.foldl Lowpass.update g).y := by
  -- The gains agree before every input, so equal outputs stay equal.
  induction zs generalizing f g with
  | nil => exact hmean
  | cons z zs ih =>
    have hnow : (f.update z).mean = (g.update z).y := by
      rw [h.mean_update, h.gain_eq, Lowpass.update, hgain, hmean]
    exact ih (h.update z) hgain hnow

end Settled

/-- A filter that starts out with the gain `k` is settled and has that gain before every input, and
its estimate is the output of a low-pass filter `g` of that gain which was at rest at zero, such as
`Lowpass.new tau dt` where `k` is the gain of the time constant `tau` and the period `dt`. -/
theorem estimates_eq_lowpass (hpos : 0 < k) (hlt : k < 1) (g : Lowpass K) (hgain : g.gain = k)
    (hrest : g.y = 0) (zs : List K) :
    Settled k (zs.foldl update (ofGain k)) ∧
      (zs.foldl update (ofGain k)).gain = k ∧
      (zs.foldl update (ofGain k)).mean = (zs.foldl Lowpass.update g).y := by
  have hstart := settled_ofGain hpos hlt
  have hsettled := hstart.foldl zs
  exact ⟨hsettled, hsettled.gain_eq, hstart.mean_foldl hgain hrest.symm zs⟩

/-- A time constant of two periods. -/
theorem estimates_of_two_periods : (0 : ℚ) < 1 / 3 ∧ (1 / 3 : ℚ) < 1 ∧
    (Lowpass.new (2 : ℚ) 1).gain = 1 / 3 ∧ (Lowpass.new (2 : ℚ) 1).y = 0 ∧
    Settled (1 / 3 : ℚ) ([1, -1 / 2, 4].foldl update (ofGain (1 / 3))) ∧
    ([1, -1 / 2, 4].foldl update (ofGain (1 / 3 : ℚ))).gain = 1 / 3 ∧
    ([1, -1 / 2, 4].foldl update (ofGain (1 / 3 : ℚ))).mean =
      ([1, -1 / 2, 4].foldl Lowpass.update (Lowpass.new (2 : ℚ) 1)).y := by
  have hpos : (0 : ℚ) < 1 / 3 := by norm_num
  have hlt : (1 / 3 : ℚ) < 1 := by norm_num
  have hgain : (Lowpass.new (2 : ℚ) 1).gain = 1 / 3 := by
    norm_num [Lowpass.new, Lowpass.gainFor]
  exact ⟨hpos, hlt, hgain, rfl, estimates_eq_lowpass hpos hlt _ hgain rfl _⟩

end Quadrotor.Kalman

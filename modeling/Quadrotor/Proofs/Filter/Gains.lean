import Mathlib
import Quadrotor.Filter.Conditioner
import Quadrotor.Proofs.Checks
import Quadrotor.Proofs.Scalar.Mean

/-!
# Gains of the filters

Whatever cutoff frequency and sample period a filter is tuned for, its gain is a share: a number
between nothing and all of the input. For a Kalman filter this takes a bound on the variances that
it tracks, since an infinite one would make a gain that is no number. Its variance stays below the
largest process noise there is, because a large variance is halved by the next input.
-/

namespace Quadrotor

open Scalar

/-! ## Low-pass filters -/

namespace Lowpass

variable {tau cutoff dt : Scalar}

/-- The time constant may be infinite, the gain is a share all the same. -/
theorem share_gainFor (htau : 0.0 ≤ tau) (hdt : isPositive dt = true) : Share (gainFor tau dt) := by
  obtain ⟨hf, hpos⟩ := isPositive_iff.mp hdt
  have hdt0 : 0.0 ≤ dt := Scalar.le_of_lt hpos
  have hle : dt ≤ tau + dt := by
    by_cases hft : tau.isFinite = true
    · refine (rounds_add hft hf).faithful.le_of_value_le (isNaN_of_isFinite hf) ?_
      exact le_add_of_nonneg_left (value_zero ▸ (le_iff.mp htau).2.2)
    · have hsum := form_add_infinity (form_of_nonneg htau hft) hf
      refine le_of_not_isFinite (isNaN_of_isFinite hf) (nonneg_of_form hsum) ?_
      change ¬(tau + dt).form.isFinite = true
      rw [hsum]
      decide
  exact Share.div hdt0 hf hle (Scalar.lt_of_lt_of_le hpos hle)

theorem nonneg_tauFor (hcutoff : isPositive cutoff = true) (dt : Scalar) :
    0.0 ≤ tauFor cutoff dt := by
  obtain ⟨hf, hpos⟩ := isPositive_iff.mp hcutoff
  unfold tauFor
  split_ifs with hfast
  · decide
  · -- The circle is longer than one, so the divisor is not below the cutoff.
    have hcircle : Float32.isFinite (2.0 * pi) = true := rfl
    have hone : (1.0 : Scalar) ≤ 2.0 * pi := by decide
    have hone' : 1 ≤ value (2.0 * pi) := value_one ▸ (le_iff.mp hone).2.2
    have hcutoff0 : 0 < cutoff.value := (lt_iff.mp hpos).2.2
    have hle : cutoff ≤ 2.0 * pi * cutoff :=
      (rounds_mul hcircle hf).faithful.le_of_value_le (isNaN_of_isFinite hf)
        (le_mul_of_one_le_left hcutoff0.le hone')
    exact nonneg_div (by decide) rfl (Scalar.lt_of_lt_of_le hpos hle)

theorem share_ofCutoff (hcutoff : isPositive cutoff = true) (hdt : isPositive dt = true) :
    Share (ofCutoff cutoff dt).gain := share_gainFor (nonneg_tauFor hcutoff dt) hdt

end Lowpass

/-! ## Kalman filters -/

/-- A scalar that is not negative and not beyond the largest process noise. -/
structure Moderate (x : Scalar) : Prop extends Within 24 x where
  nonneg : 0.0 ≤ x

theorem Moderate.value_nonneg {x : Scalar} (h : Moderate x) : 0 ≤ x.value :=
  Scalar.value_nonneg h.nonneg

theorem Moderate.value_le {x : Scalar} (h : Moderate x) : x.value ≤ 2 ^ 24 :=
  (le_abs_self _).trans h.abs_le

theorem moderate_of_share {x : Scalar} (h : Share x) : Moderate x := by
  refine ⟨⟨h.isFinite, ?_⟩, h.nonneg⟩
  rw [abs_of_nonneg h.value_nonneg]
  exact h.value_le_one.trans (by norm_num)

theorem moderate_of_rounds {q : ℚ} {x : Scalar} (h : Rounds q x.form) (h0 : 0 ≤ q)
    (hle : q ≤ 2 ^ (24 : ℤ)) : Moderate x := by
  obtain ⟨hf, habs⟩ := h.abs_le_of_le_pow (e := 24) (by decide) (by decide)
    ((abs_of_nonneg h0).trans_le hle)
  exact ⟨⟨hf, habs⟩, h.faithful.le_of_value_le rfl (value_zero ▸ h0)⟩

namespace Kalman

/-- A gain below one leaves `2 ^ -24` at least. -/
theorem le_rest_of_lt {k : Scalar} (hk : Share k) (h : ¬1.0 ≤ k) :
    2 ^ (-24 : ℤ) ≤ value (1.0 - k) := by
  have hlt : k.value < 1 := by
    rw [le_iff_value rfl (isNaN_of_isFinite hk.isFinite), value_one, not_le] at h
    exact h
  have hle : k.value ≤ 1 - 2 ^ (-24 : ℤ) := by
    rcases le_or_gt k.value (1 / 2) with hsmall | hlarge
    · norm_num
      linarith
    · obtain ⟨n, -, -, hn⟩ := hk.exists_steps hlarge
      have hstep : (n : ℚ) < 2 ^ 24 := by
        rw [hn] at hlt
        norm_num at hlt
        linarith
      have hstep' : (n : ℚ) + 1 ≤ 2 ^ 24 := by
        have : n < 2 ^ 24 := by exact_mod_cast hstep
        exact_mod_cast this
      rw [hn]
      norm_num
      linarith
  refine (rounds_sub (x := 1.0) rfl hk.isFinite).pow_le_of_le (by decide) (by decide) ?_
  rw [value_one]
  linarith

theorem moderate_processNoiseFor {k : Scalar} (hk : Share k) (h : ¬1.0 ≤ k) :
    Moderate (processNoiseFor k) := by
  have hsquare : Share (k * k * 1.0) := (hk.mul hk).mul Share.one
  have hrest := le_rest_of_lt hk h
  have hpos : 0 < value (1.0 - k) := lt_of_lt_of_le (by positivity) hrest
  have hquotient := rounds_div hsquare.isFinite hk.rest.isFinite hpos.ne'
  have h0 : 0 ≤ value (k * k * 1.0) / value (1.0 - k) := div_nonneg hsquare.value_nonneg hpos.le
  have hle : value (k * k * 1.0) / value (1.0 - k) ≤ 2 ^ (24 : ℤ) := by
    rw [div_le_iff₀ hpos]
    norm_num at hrest ⊢
    linarith [hsquare.value_le_one]
  exact moderate_of_rounds hquotient h0 hle

/-- The share of the input for the variance `p` of the estimate. -/
theorem share_of_variance {p : Scalar} (hp : 0.0 ≤ p) (hf : p.isFinite = true) :
    Share (p / (p + 1.0)) := by
  have hp0 : 0 ≤ p.value := value_nonneg hp
  have hsum := (rounds_add hf (y := 1.0) rfl).faithful
  rw [value_one] at hsum
  have hle := hsum.le_of_value_le (isNaN_of_isFinite hf) (by linarith)
  have hone := hsum.le_of_value_le (g := 1.0) rfl (by
    rw [value_one]
    linarith)
  exact Share.div hp hf hle (Scalar.lt_of_lt_of_le (by decide) hone)

/-- A variance of one or more is halved at least. -/
theorem rest_le_half {p : Scalar} (hp : 1 ≤ p.value) (hw : Within 25 p) :
    value (1.0 - p / (p + 1.0)) ≤ 2 ^ (-1 : ℤ) := by
  have hp0 : 0.0 ≤ p := (nonneg_iff (isNaN_of_isFinite hw.isFinite)).mpr (by linarith)
  have hshare := share_of_variance hp0 hw.isFinite
  -- The sum in the divisor is at most twice the variance, which is a scalar.
  obtain ⟨n, s, hv, hn, hs, -⟩ := exists_digits hw.isFinite
  have hdouble : (n : ℚ) * 2 ^ (s + 1) = 2 * p.value := by
    rw [zpow_add_one₀ two_ne_zero, ← mul_assoc, ← hv, abs_of_nonneg (by linarith)]
    ring
  have hlarge := (abs_le.mp hw.abs_le).2
  have hsum := rounds_add hw.isFinite (y := 1.0) rfl
  rw [value_one] at hsum
  obtain ⟨hfsum, hsumle⟩ := hsum.abs_le_of_digits hn.le (s := s + 1) (by omega) (by
    rw [hdouble]
    norm_num at hlarge ⊢
    linarith) (by
    rw [hdouble, abs_of_nonneg (by linarith)]
    linarith)
  rw [hdouble] at hsumle
  have hone := hsum.faithful.le_of_value_le (g := 1.0) rfl (by
    rw [value_one]
    linarith)
  have hsum1 : 1 ≤ value (p + 1.0) := value_one ▸ (le_iff.mp hone).2.2
  have hsum2 : value (p + 1.0) ≤ 2 * p.value := (le_abs_self _).trans hsumle
  have hgain := (rounds_div hw.isFinite hfsum (by linarith)).pow_le_of_le (e := -1) (by decide)
    (by decide) (by
      rw [le_div_iff₀ (by linarith)]
      norm_num
      linarith)
  have hle := (rounds_sub (x := 1.0) rfl hshare.isFinite).abs_le_of_le_pow (e := -1) (by decide)
    (by decide) (by
      rw [value_one, abs_of_nonneg (by linarith [hshare.value_le_one])]
      norm_num at hgain ⊢
      linarith)
  exact (le_abs_self _).trans hle.2

theorem moderate_posterior {p : Scalar} (hp : 0.0 ≤ p) (hw : Within 25 p) :
    Moderate ((1.0 - p / (p + 1.0)) * p) := by
  have hrest := (share_of_variance hp hw.isFinite).rest
  have hp0 : 0 ≤ p.value := value_nonneg hp
  have hlarge := (abs_le.mp hw.abs_le).2
  have h0 : 0 ≤ value (1.0 - p / (p + 1.0)) * p.value := mul_nonneg hrest.value_nonneg hp0
  have hle : value (1.0 - p / (p + 1.0)) * p.value ≤ 2 ^ (24 : ℤ) := by
    rcases lt_or_ge p.value 1 with hsmall | hone
    · refine (mul_le_of_le_one_left hp0 hrest.value_le_one).trans (hsmall.le.trans ?_)
      norm_num
    · refine (mul_le_mul_of_nonneg_right (rest_le_half hone hw) hp0).trans ?_
      norm_num at hlarge ⊢
      linarith
  exact moderate_of_rounds (rounds_mul hrest.isFinite hw.isFinite) h0 hle

/-- The variances that the filter works with. -/
structure Steady (f : Kalman Scalar) : Prop where
  noise : Moderate f.processNoise
  variance : Moderate f.variance

variable {f : Kalman Scalar} {k : Scalar}

theorem Steady.prior (h : Steady f) : 0.0 ≤ f.prior ∧ Within 25 f.prior := by
  have hsum := rounds_add h.variance.isFinite h.noise.isFinite
  have h0 : 0 ≤ f.variance.value + f.processNoise.value :=
    add_nonneg h.variance.value_nonneg h.noise.value_nonneg
  obtain ⟨hf, hle⟩ := hsum.abs_le_of_le_pow (e := 25) (by decide) (by decide) (by
    have hv := h.variance.value_le
    have hn := h.noise.value_le
    rw [abs_of_nonneg h0]
    norm_num at hv hn ⊢
    linarith)
  exact ⟨hsum.faithful.le_of_value_le rfl (value_zero ▸ h0), hf, hle⟩

theorem Steady.gain (h : Steady f) : Share f.gain :=
  share_of_variance h.prior.1 h.prior.2.isFinite

theorem Steady.retune (h : Steady f) (hk : Share k) : Steady (f.retune k) := by
  refine ⟨?_, h.variance⟩
  change Moderate (if 1.0 ≤ k then 0.0 else processNoiseFor k)
  split_ifs with hpass
  · exact moderate_of_share Share.zero
  · exact moderate_processNoiseFor hk hpass

theorem steady_ofGain (hk : Share k) : Steady (ofGain k) :=
  Steady.retune (f := ⟨0, 0, k * inputNoise, false⟩)
    ⟨moderate_of_share Share.zero, moderate_of_share (hk.mul Share.one)⟩ hk

theorem Steady.update (h : Steady f) (z : Scalar) : Steady (f.update z) := by
  unfold Kalman.update
  split_ifs with hpass
  · exact ⟨h.noise, h.variance⟩
  · exact ⟨h.noise, moderate_posterior h.prior.1 h.prior.2⟩

/-- The estimate takes the input as it is, or moves towards it. -/
theorem Steady.mean_update (h : Steady f) {P : Scalar → Prop} (hP : Approaches P)
    (hmean : P f.mean) {z : Scalar} (hz : P z) : P (f.update z).mean := by
  unfold Kalman.update
  split_ifs with hpass
  · exact hz
  · exact hP f.gain f.mean z h.gain hmean hz

end Kalman

end Quadrotor

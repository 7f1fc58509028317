import Mathlib
import Quadrotor.Proofs.Scalar.Nearest

/-!
# Weighted means

A mean of two numbers lies between them, but its computation rounds on the way. There are two ways
to compute it. A blend adds the weighted numbers, and of finite numbers it is always finite. An
approach adds the weighted difference to the first of them, and the difference may overflow. Neither
of them leaves a range of the form `[-2 ^ e, 2 ^ e]`, as long as the differences in it are finite.
-/

namespace Quadrotor.Scalar

/-! ## Shares -/

/-- A weight between nothing and all. -/
structure Share (g : Scalar) : Prop where
  nonneg : 0.0 ≤ g
  le_one : g ≤ 1.0

namespace Share

variable {g k x y : Scalar}

theorem isFinite (h : Share g) : g.isFinite = true := isFinite_of_mem rfl rfl h.nonneg h.le_one

theorem value_nonneg (h : Share g) : 0 ≤ g.value := Scalar.value_nonneg h.nonneg

theorem value_le_one (h : Share g) : g.value ≤ 1 := value_one ▸ (le_iff.mp h.le_one).2.2

theorem zero : Share 0.0 := ⟨by decide, by decide⟩

theorem one : Share 1.0 := ⟨by decide, by decide⟩

theorem mul (h : Share g) (h' : Share k) : Share (g * k) := by
  have hproduct := (rounds_mul h.isFinite h'.isFinite).faithful
  constructor
  · exact nonneg_mul_of_isFinite h.nonneg h'.nonneg h.isFinite h'.isFinite
  · refine hproduct.le_of_le_value rfl ?_
    rw [value_one]
    exact mul_le_one₀ h.value_le_one h'.value_nonneg h'.value_le_one

/-- What a part is of a whole. -/
theorem div (hx : 0.0 ≤ x) (hfx : x.isFinite = true) (hxy : x ≤ y) (hy : 0.0 < y) :
    Share (x / y) := by
  refine ⟨nonneg_div hx hfx hy, ?_⟩
  have hy0 : 0 < y.value := (lt_iff.mp hy).2.2
  by_cases hfy : y.isFinite = true
  · refine (rounds_div hfx hfy hy0.ne').faithful.le_of_le_value rfl ?_
    rw [value_one]
    exact (div_le_one hy0).mpr (le_iff.mp hxy).2.2
  · obtain ⟨s, hs⟩ := form_div_infinity hfx (form_of_nonneg (le_of_lt hy) hfy)
    refine (le_iff_value (isNaN_eq_false.mpr (by rw [hs]; simp)) rfl).mpr ?_
    rw [value, hs, formValue_zero, value_one]
    exact zero_le_one

/-- The rest of the whole. -/
theorem rest (h : Share g) : Share (1.0 - g) := by
  have hle := (rounds_sub (x := 1.0) rfl h.isFinite).faithful.le_of_le_value (g := 1.0) rfl (by
    linarith [h.value_nonneg])
  exact ⟨sub_nonneg h.isFinite h.le_one, hle⟩

/-- A share and the rest are the whole, up to the rounding error. -/
theorem rest_le (h : Share g) : g.value + value (1.0 - g) ≤ 1 + 2 ^ (-25 : ℤ) := by
  have hrounds := rounds_sub (x := 1.0) rfl h.isFinite
  rw [value_one] at hrounds
  have herror := hrounds.error_le (e := 0) (by decide) (by decide) (by
    rw [zpow_zero, abs_le]
    constructor <;> linarith [h.value_nonneg, h.value_le_one])
  rw [zero_sub] at herror
  linarith [(abs_le.mp herror).1]

/-- Above one half, the shares are the multiples of `2 ^ -24`. -/
theorem exists_steps (h : Share g) (hhalf : 1 / 2 < g.value) :
    ∃ n : ℕ, 2 ^ 23 < n ∧ n ≤ 2 ^ 24 ∧ g.value = n * 2 ^ (-24 : ℤ) := by
  obtain ⟨m, s, hg, hm, -, -⟩ := exists_digits h.isFinite
  rw [abs_of_nonneg h.value_nonneg] at hg
  have hs : -24 ≤ s := by
    by_contra hlt
    have hs' : (2 : ℚ) ^ s ≤ 2 ^ (-25 : ℤ) := zpow_le_zpow_right₀ one_le_two (by omega)
    have hm' : (m : ℚ) < 2 ^ 24 := by exact_mod_cast hm
    have hlow : g.value ≤ 2 ^ 24 * 2 ^ (-25 : ℤ) := by
      rw [hg]
      gcongr
    norm_num at hlow
    linarith
  obtain ⟨n, hn⟩ : ∃ n : ℕ, g.value = n * 2 ^ (-24 : ℤ) := by
    refine ⟨m * 2 ^ (s + 24).toNat, ?_⟩
    rw [hg, Nat.cast_mul, mul_assoc]
    congr 1
    push_cast
    rw [← zpow_natCast, ← zpow_add₀ two_ne_zero, Int.toNat_of_nonneg (by omega)]
    congr 1
    ring
  have hn' : (n : ℚ) = g.value * 2 ^ 24 := by
    rw [hn, mul_assoc]
    norm_num
  have hlow : (2 : ℚ) ^ 23 < n := by
    rw [hn']
    linarith
  have hhigh : (n : ℚ) ≤ 2 ^ 24 := by
    rw [hn']
    linarith [h.value_le_one]
  exact ⟨n, by exact_mod_cast hlow, by exact_mod_cast hhigh, hn⟩

/-- A share of a scalar that does not exceed a power of two. -/
theorem abs_mul_le (h : Share g) {e : ℕ} (he : e < 128) (hx : x.isFinite = true)
    (hle : |x.value| ≤ 2 ^ e) :
    Float32.isFinite (g * x) = true ∧ |value (g * x)| ≤ g.value * 2 ^ e := by
  obtain ⟨n, s, hg, hn, hs, -⟩ := exists_digits h.isFinite
  rw [abs_of_nonneg h.value_nonneg] at hg
  have hdigits : g.value * 2 ^ e = n * 2 ^ (s + e) := by
    rw [hg, zpow_add₀ two_ne_zero, zpow_natCast]
    ring
  rw [hdigits]
  refine (rounds_mul h.isFinite hx).abs_le_of_digits hn.le (by omega) ?_ ?_
  · rw [← hdigits]
    exact (mul_le_of_le_one_left (by positivity) h.value_le_one).trans_lt
      (pow_lt_pow_right₀ one_lt_two he)
  · rw [← hdigits, abs_mul, abs_of_nonneg h.value_nonneg]
    exact mul_le_mul_of_nonneg_left hle h.value_nonneg

/-- A share of a scalar lies between zero and the scalar. -/
theorem mul_mem (h : Share g) (hx : x.isFinite = true) : Float32.isFinite (g * x) = true ∧
    min 0 x.value ≤ value (g * x) ∧ value (g * x) ≤ max 0 x.value := by
  have h0 := h.value_nonneg
  have h1 := h.value_le_one
  have hxn := isNaN_of_isFinite hx
  have hproduct := (rounds_mul h.isFinite hx).faithful
  refine ⟨hproduct.isFinite hx ?_, ?_⟩
  · rw [abs_mul, abs_of_nonneg h0]
    exact mul_le_of_le_one_left (abs_nonneg _) h1
  rcases le_total 0 x.value with hup | hdown
  · rw [min_eq_left hup, max_eq_right hup]
    have hlow := hproduct.le_of_value_le (g := 0.0) rfl (by
      rw [value_zero]
      positivity)
    have hhigh := hproduct.le_of_le_value hxn (mul_le_of_le_one_left hup h1)
    exact ⟨value_zero ▸ (le_iff.mp hlow).2.2, (le_iff.mp hhigh).2.2⟩
  · rw [min_eq_right hdown, max_eq_left hdown]
    have hlow := hproduct.le_of_value_le hxn (by nlinarith)
    have hhigh := hproduct.le_of_le_value (g := 0.0) rfl (by
      rw [value_zero]
      exact mul_nonpos_of_nonneg_of_nonpos h0 hdown)
    exact ⟨(le_iff.mp hlow).2.2, value_zero ▸ (le_iff.mp hhigh).2.2⟩

end Share

/-! ## Means in a range -/

/-- The mean of `x` and `y` in which `x` has the share `g`, as a sum. -/
def blend (g x y : Scalar) : Scalar := g * x + (1.0 - g) * y

/-- The mean of `z` and `x` in which `z` has the share `g`, as a step from `x` towards `z`. -/
def approach (g x z : Scalar) : Scalar := x + g * (z - x)

/-- A property that no blend leaves. -/
def Blends (P : Scalar → Prop) : Prop := ∀ g x y, Share g → P x → P y → P (blend g x y)

/-- A property that no approach leaves. -/
def Approaches (P : Scalar → Prop) : Prop := ∀ g x z, Share g → P x → P z → P (approach g x z)

/-- A finite scalar of no more than the given magnitude. -/
structure Within (e : ℕ) (x : Scalar) : Prop where
  isFinite : x.isFinite = true
  abs_le : |x.value| ≤ 2 ^ e

theorem blends_within {e : ℕ} (he : e < 128) : Blends (Within e) := by
  intro g x y hg hx hy
  obtain ⟨hfp, hp⟩ := hg.abs_mul_le he hx.isFinite hx.abs_le
  obtain ⟨hfq, hq⟩ := hg.rest.abs_mul_le he hy.isFinite hy.abs_le
  have hwhole : g.value * 2 ^ e + value (1.0 - g) * 2 ^ e ≤ 2 ^ e + 2 ^ (-25 : ℤ) * 2 ^ e := by
    rw [← add_mul, ← one_add_mul]
    exact mul_le_mul_of_nonneg_right hg.rest_le (by positivity)
  have hhalf : (2 : ℚ) ^ (-25 : ℤ) * 2 ^ e ≤ 2 ^ ((e : ℤ) - 24) := by
    rw [← zpow_natCast, ← zpow_add₀ two_ne_zero]
    exact zpow_le_zpow_right₀ one_le_two (by omega)
  obtain ⟨hf, hle⟩ := (rounds_add hfp hfq).abs_le_pow (e := e) (by omega) (by omega) (by
    rw [zpow_natCast]
    calc |value (g * x) + value ((1.0 - g) * y)|
        ≤ |value (g * x)| + |value ((1.0 - g) * y)| := abs_add_le _ _
      _ ≤ g.value * 2 ^ e + value (1.0 - g) * 2 ^ e := add_le_add hp hq
      _ ≤ 2 ^ e + 2 ^ ((e : ℤ) - 24) := hwhole.trans ((add_le_add_iff_left _).mpr hhalf))
  exact ⟨hf, hle.trans_eq (zpow_natCast 2 e)⟩

theorem approaches_within {e : ℕ} (he : e ≤ 126) : Approaches (Within e) := by
  intro g x z hg hx hz
  obtain ⟨hxl, hxu⟩ := abs_le.mp hx.abs_le
  obtain ⟨hzl, hzu⟩ := abs_le.mp hz.abs_le
  -- The difference of two scalars in the range is finite, and nearly exact.
  have hdifference := rounds_sub hz.isFinite hx.isFinite
  have hlarge : |z.value - x.value| ≤ 2 ^ ((e : ℤ) + 1) := by
    rw [zpow_add_one₀ two_ne_zero, zpow_natCast, abs_le]
    constructor <;> linarith
  obtain ⟨hfd, -⟩ := hdifference.abs_le_of_le_pow (by omega) (by omega) hlarge
  have herror := hdifference.error_le (by omega) (by omega) hlarge
  rw [show (e : ℤ) + 1 - 25 = e - 24 by ring, abs_le] at herror
  -- No share of it passes it, so the sum does not pass `z` by more than the error.
  obtain ⟨hfstep, hlow, hhigh⟩ := hg.mul_mem hfd
  have hhalf : (0 : ℚ) < 2 ^ ((e : ℤ) - 24) := by positivity
  obtain ⟨hf, hle⟩ := (rounds_add hx.isFinite hfstep).abs_le_pow (e := e) (by omega) (by omega) (by
    rw [zpow_natCast, abs_le]
    rcases le_total 0 (value (z - x)) with hup | hdown
    · rw [min_eq_left hup] at hlow
      rw [max_eq_right hup] at hhigh
      constructor <;> linarith
    · rw [min_eq_right hdown] at hlow
      rw [max_eq_left hdown] at hhigh
      constructor <;> linarith)
  exact ⟨hf, hle.trans_eq (zpow_natCast 2 e)⟩

/-! ## Means of finite scalars -/

namespace Share

variable {g k x y : Scalar}

theorem abs_mul_le_value (h : Share g) (hx : x.isFinite = true) :
    |g.value * x.value| ≤ g.value * (2 ^ 128 - 2 ^ 104) := by
  rw [abs_mul, abs_of_nonneg h.value_nonneg]
  exact mul_le_mul_of_nonneg_left (abs_le_largest hx) h.value_nonneg

/-- A share of a finite scalar is below the share of the limit. -/
theorem abs_mul_lt (h : Share g) (hx : x.isFinite = true) : Float32.isFinite (g * x) = true ∧
    |value (g * x)| ≤ g.value * (2 ^ 128 - 2 ^ 80) + 2 ^ (-150 : ℤ) := by
  have h0 := h.value_nonneg
  have h1 := h.value_le_one
  have hleast : (2 : ℚ) ^ (-150 : ℤ) < 1 := by norm_num
  refine (rounds_mul h.isFinite hx).abs_le_add (by linarith) ?_
  have hle := mul_le_mul_of_nonneg_right (h.abs_mul_le_value hx)
    (show (0 : ℚ) ≤ 1 + 2 ^ (-24 : ℤ) by positivity)
  have heq : g.value * (2 ^ 128 - 2 ^ 104) * (1 + 2 ^ (-24 : ℤ)) =
      g.value * (2 ^ 128 - 2 ^ 80) := by
    norm_num
    ring
  rw [heq] at hle
  exact (add_le_add_iff_right _).mpr hle

/-- The smaller share of a finite scalar is far from the limit. -/
theorem abs_mul_le_of_le_half (h : Share g) (hhalf : g.value ≤ 1 / 2) (hx : x.isFinite = true) :
    |value (g * x)| ≤ 2 ^ 127 - 2 ^ 103 := by
  have hlimit : ((2 ^ 24 - 1 : ℕ) : ℚ) * 2 ^ (103 : ℤ) = 2 ^ 127 - 2 ^ 103 := by norm_num
  have hle := (rounds_mul h.isFinite hx).abs_le_of_digits (n := 2 ^ 24 - 1) (s := 103) (by decide)
    (by decide) (by rw [hlimit]; norm_num) (by
      rw [hlimit]
      linarith [h.abs_mul_le_value hx])
  exact hlimit ▸ hle.2

/-- The larger share of a finite scalar is rounded down. -/
theorem abs_mul_le_of_half_lt (h : Share g) (hhalf : 1 / 2 < g.value) (hx : x.isFinite = true) :
    |value (g * x)| ≤ g.value * 2 ^ 128 - 2 ^ 104 := by
  obtain ⟨n, hlow, hhigh, hn⟩ := h.exists_steps hhalf
  have hn' : g.value * 2 ^ 24 = n := by
    rw [hn, mul_assoc]
    norm_num
  have hpred : ((n - 1 : ℕ) : ℚ) = g.value * 2 ^ 24 - 1 := by
    rw [Nat.cast_sub (by omega), Nat.cast_one, hn']
  have hbound : ((n - 1 : ℕ) : ℚ) * 2 ^ (104 : ℤ) = g.value * 2 ^ 128 - 2 ^ 104 := by
    rw [hpred]
    norm_num
    ring
  have hle := (rounds_mul h.isFinite hx).abs_le_of_lt_midpoint (n := n - 1) (s := 104) (by omega)
    (by omega) (by decide) (by
      rw [hbound]
      linarith [h.value_le_one]) (by
      refine (h.abs_mul_le_value hx).trans_lt ?_
      rw [hpred]
      norm_num
      linarith)
  exact hbound ▸ hle.2

/-- Two shares that are no more than the whole, up to the rounding error, of finite scalars. -/
theorem abs_add_lt (hg : Share g) (hk : Share k) (hwhole : g.value + k.value ≤ 1 + 2 ^ (-25 : ℤ))
    (hle : k.value ≤ g.value) (hx : x.isFinite = true) (hy : y.isFinite = true) :
    |value (g * x)| + |value (k * y)| < 2 ^ 128 - 2 ^ 103 := by
  -- Only a share of more than one half comes near the limit, and that one is rounded down.
  rcases le_or_gt g.value (1 / 2) with hsmall | hlarge
  · have hp := hg.abs_mul_le_of_le_half hsmall hx
    have hq := hk.abs_mul_le_of_le_half (hle.trans hsmall) hy
    linarith
  · have hp := hg.abs_mul_le_of_half_lt hlarge hx
    obtain ⟨-, hq⟩ := hk.abs_mul_lt hy
    norm_num at hwhole hq
    by_cases hzero : k.value = 0
    · rw [hzero] at hq
      linarith [hg.value_le_one]
    · have hleast := least_le hk.isFinite hzero
      rw [abs_of_nonneg hk.value_nonneg] at hleast
      norm_num at hleast
      linarith

end Share

theorem blends_isFinite : Blends fun x => x.isFinite = true := by
  intro g x y hg hx hy
  have hlimit : (((2 ^ 24 - 1 : ℕ) : ℚ) + 1 / 2) * 2 ^ (104 : ℤ) = 2 ^ 128 - 2 ^ 103 := by norm_num
  refine ((rounds_add (hg.abs_mul_lt hx).1 (hg.rest.abs_mul_lt hy).1).abs_le_of_lt_midpoint
    (n := 2 ^ 24 - 1) (s := 104) (by decide) (by decide) (by decide) (by norm_num) ?_).1
  rw [hlimit]
  refine (abs_add_le _ _).trans_lt ?_
  rcases le_total (value (1.0 - g)) g.value with hle | hle
  · exact hg.abs_add_lt hg.rest hg.rest_le hle hx hy
  · rw [add_comm]
    exact hg.rest.abs_add_lt hg (add_comm g.value _ ▸ hg.rest_le) hle hy hx

end Quadrotor.Scalar

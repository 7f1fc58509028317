import Mathlib
import Quadrotor.Proofs.Control.LevelingLimit
import Quadrotor.Proofs.Scalar.Alike

/-!
# Windup of an angle controller

An angle controller decides by the proportional and the derivative part of its output alone whether
it integrates. While these two are at the limit the integral is frozen. But an integral that has
grown to where it saturates the output by itself keeps growing in the direction of the error, as
long as the other two parts leave room; and it takes as long to unwind. It never starts to wind up in
a saturated output: it has to be on the side of the error already.
-/

namespace Quadrotor

open Scalar

namespace AnglePid

/-- The controller after some errors. -/
def after (p : AnglePid) (errors : List Scalar) : Checked AnglePid :=
  errors.foldlM (fun p e => do
    let (p, _) ← p.update e
    return p) p

/-- The proportional and the derivative part of the next output. -/
def inner (p : AnglePid) (error : Scalar) : Scalar :=
  p.config.kp * error + (p.stepped error).derivativeFilter.y

/-- What the error adds to the integral while the controller integrates. -/
def increment (p : AnglePid) (error : Scalar) : Scalar := p.config.ki * error * p.period

/-- From `i` to `j` is a move in the direction of the error. -/
def Outward (error i j : Scalar) : Prop := (0.0 < error ∧ i < j) ∨ (error < 0.0 ∧ j < i)

/-- An output is at the limit or beyond it on the side that the error pushes towards. -/
def Saturates (limit error output : Scalar) : Prop :=
  (0.0 < error ∧ limit ≤ output) ∨ (error < 0.0 ∧ output ≤ -limit)

instance (error i j : Scalar) : Decidable (Outward error i j) := inferInstanceAs (Decidable (_ ∨ _))

instance (limit error output : Scalar) : Decidable (Saturates limit error output) :=
  inferInstanceAs (Decidable (_ ∨ _))

theorem after_of_limit {p : AnglePid} {l : Scalar} (hl : p.limit = some l) (h0 : 0.0 ≤ l)
    (errors : List Scalar) : p.after errors = .ok (errors.foldl stepped p) := by
  induction errors generalizing p with
  | nil => rfl
  | cons e errors ih =>
    rw [after, List.foldlM_cons, update_of_limit hl h0]
    exact ih (p := p.stepped e) hl

/-- No error changes what the controller was built with. -/
theorem foldl_stepped (p : AnglePid) (errors : List Scalar) :
    (errors.foldl stepped p).config = p.config ∧ (errors.foldl stepped p).period = p.period ∧
      (errors.foldl stepped p).limit = p.limit := by
  induction errors generalizing p with
  | nil => exact ⟨rfl, rfl, rfl⟩
  | cons e errors ih => exact ih (p.stepped e)

section

variable {p : AnglePid} {l e : Scalar}

theorem integral_stepped (hl : p.limit = some l) (e : Scalar) : (p.stepped e).integral =
    if -l < p.inner e ∧ p.inner e < l then p.integral + p.increment e else p.integral := by
  have hrange : p.inRange (p.inner e) = true ↔ -l < p.inner e ∧ p.inner e < l := by
    rw [inRange, hl, Bool.and_eq_true, decide_eq_true_iff, decide_eq_true_iff]
  simp only [← hrange]
  rfl

theorem Outward.irrefl (i : Scalar) : ¬Outward e i i := by
  rintro (⟨-, h⟩ | ⟨-, h⟩) <;> exact lt_irrefl _ (lt_iff.mp h).2.2

/-- The increment is on the side of the error, unless it is no number. -/
theorem increment_side (hki : 0.0 ≤ p.config.ki) (hperiod : 0.0 ≤ p.period) :
    (0.0 < e → (p.increment e).isNaN = true ∨ 0.0 ≤ p.increment e) ∧
      (e < 0.0 → (p.increment e).isNaN = true ∨ p.increment e ≤ 0.0) := by
  have hnonneg : ∀ {d : Scalar}, 0.0 ≤ d →
      (p.increment d).isNaN = true ∨ 0.0 ≤ p.increment d := by
    intro d hd
    rcases isNaN_or_nonneg_mul hki hd with hn | hproduct
    · exact Or.inl (isNaN_mul_left hn _)
    · exact isNaN_or_nonneg_mul hproduct hperiod
  refine ⟨fun he => hnonneg (Scalar.le_of_lt he), fun he => ?_⟩
  have hopposite : p.increment e = -p.increment (-e) := by
    rw [increment, increment, Scalar.mul_comm p.config.ki (-e), Scalar.neg_mul, Scalar.neg_mul,
      Scalar.neg_neg, Scalar.mul_comm e]
  obtain ⟨hn, -, hv⟩ := lt_iff.mp he
  have hpos : 0.0 ≤ -e := by
    rw [nonneg_iff (by rwa [isNaN_neg]), value_neg]
    rw [value_zero] at hv
    exact (neg_pos.mpr hv).le
  rw [hopposite, isNaN_neg]
  exact (hnonneg hpos).imp_right neg_le_zero

/-- What an update does to the integral: the controller before it and after it. -/
structure Integrates (l e : Scalar) (p q : AnglePid) : Prop where
  /-- The integral moves with the error exactly if the other two parts leave room and the increment
  is not lost in rounding. -/
  outward_iff : Outward e p.integral q.integral ↔
    (-l < p.inner e ∧ p.inner e < l) ∧ Outward e p.integral (p.integral + p.increment e)
  /-- It never moves against the error. -/
  not_inward : ¬Outward e q.integral p.integral
  /-- It stays where the other two parts saturate the output. -/
  frozen : Saturates l e (p.inner e) → q.integral = p.integral
  /-- If it moves although the output is saturated, it has been on the side of the error before. -/
  wound : Saturates l e (p.inner e + p.integral) → Outward e p.integral q.integral →
    Outward e 0.0 p.integral
  /-- It does not move without a gain. -/
  disabled : p.config.ki.value = 0 → p.period.isFinite = true → e.isFinite = true →
    ¬Outward e p.integral q.integral

theorem integrates_stepped (hl : p.limit = some l) (hki : 0.0 ≤ p.config.ki)
    (hperiod : 0.0 ≤ p.period) (e : Scalar) : Integrates l e p (p.stepped e) := by
  have hside := increment_side (e := e) hki hperiod
  have houtward : Outward e p.integral (p.stepped e).integral ↔
      (-l < p.inner e ∧ p.inner e < l) ∧ Outward e p.integral (p.integral + p.increment e) := by
    rw [integral_stepped hl]
    split_ifs with hroom
    · exact (and_iff_right hroom).symm
    · exact iff_of_false (Outward.irrefl _) fun h => hroom h.1
  refine ⟨houtward, ?_, ?_, ?_, ?_⟩
  · rw [integral_stepped hl]
    split_ifs
    · rintro (⟨he, h⟩ | ⟨he, h⟩)
      · exact not_add_lt (hside.1 he) h
      · exact not_lt_add (hside.2 he) h
    · exact Outward.irrefl _
  · intro hsaturated
    rw [integral_stepped hl, if_neg]
    rintro ⟨hlow, hhigh⟩
    rcases hsaturated with ⟨-, h⟩ | ⟨-, h⟩
    · exact (le_iff.mp h).2.2.not_gt (lt_iff.mp hhigh).2.2
    · exact (le_iff.mp h).2.2.not_gt (lt_iff.mp hlow).2.2
  · -- The inner part is within the limit and the sum is not, so the integral is what carries it there.
    intro hsaturated hmoves
    obtain ⟨⟨hlow, hhigh⟩, -⟩ := houtward.mp hmoves
    rcases hsaturated with ⟨he, h⟩ | ⟨he, h⟩
    · refine Or.inl ⟨he, ?_⟩
      by_contra hnot
      refine not_lt_add ?_ (lt_of_lt_of_le hhigh h)
      cases hn : p.integral.isNaN with
      | true => exact Or.inl rfl
      | false => exact Or.inr (le_of_not_lt rfl hn hnot)
    · refine Or.inr ⟨he, ?_⟩
      by_contra hnot
      refine not_add_lt ?_ (lt_of_le_of_lt h hlow)
      cases hn : p.integral.isNaN with
      | true => exact Or.inl rfl
      | false => exact Or.inr (le_of_not_lt hn rfl hnot)
  · intro hzero hfinite he hmoves
    have hgain : p.config.ki.IsZero := isZero_iff.mpr ⟨(le_iff.mp hki).2.1, hzero⟩
    obtain ⟨hn, h0⟩ := isZero_iff.mp ((hgain.mul he).mul hfinite)
    obtain ⟨-, h | h⟩ := houtward.mp hmoves
    · refine not_lt_add (Or.inr ?_) h.2
      exact (le_iff_value hn rfl).mpr (by rw [value_zero]; exact h0.le)
    · refine not_add_lt (Or.inr ?_) h.2
      exact (nonneg_iff hn).mpr h0.ge

end

/-- Whatever errors have come before, the next update is not aborted, and this is what it does to the
integral. -/
theorem integrates_after (config : AnglePidConfig) (hki : 0.0 ≤ config.ki) (period : Scalar)
    (hperiod : 0.0 < period) (l : Scalar) (hl : 0.0 < l) (errors : List Scalar) (e : Scalar) :
    ∃ p q output, (new config period (some l)).after errors = .ok p ∧
      p.update e = .ok (q, output) ∧ Integrates l e p q := by
  have hnew : (new config period (some l)).limit = some l := congrArg some (abs_eq_self hl)
  have h0 : 0.0 ≤ l := Scalar.le_of_lt hl
  obtain ⟨hconfig, hsame, hlimit⟩ := foldl_stepped (new config period (some l)) errors
  refine ⟨_, _, _, after_of_limit hnew h0 errors, update_of_limit (hlimit.trans hnew) h0 e,
    integrates_stepped (hlimit.trans hnew) ?_ ?_ e⟩
  · rw [hconfig]
    exact hki
  · rw [hsame]
    exact Scalar.le_of_lt hperiod

/-- Much integral gain, and no derivative. -/
def eager : AnglePidConfig where
  kp := 1.0
  ki := 1000.0
  kd := 0.0

theorem integrates_after_eager : (0.0 : Scalar) ≤ eager.ki ∧ (0.0 : Scalar) < 0.001 ∧
    (0.0 : Scalar) < 2.0 ∧ ∃ p q output, (new eager 0.001 (some 2.0)).after [1.0, -0.5] = .ok p ∧
      p.update 1.5 = .ok (q, output) ∧ Integrates 2.0 1.5 p q := by
  have hki : (0.0 : Scalar) ≤ eager.ki := by decide
  have hperiod : (0.0 : Scalar) < 0.001 := by decide
  have hlimit : (0.0 : Scalar) < 2.0 := by decide
  exact ⟨hki, hperiod, hlimit, integrates_after eager hki 0.001 hperiod 2.0 hlimit [1.0, -0.5] 1.5⟩

/-- The bits of the outputs for some errors. -/
def outputs (p : AnglePid) : List Scalar → Option (List UInt32)
  | [] => some []
  | e :: errors =>
    match p.update e with
    | .error _ => none
    | .ok (q, output) => (q.outputs errors).map (output.toBits :: ·)

/-- The second error finds the output at its limit of 2, and the integral goes from 1 to 2 all the
same. After a third, the opposite error does not turn the output: it still is 1. -/
theorem winds_up : isNonneg eager.kp = true ∧ isNonneg eager.ki = true ∧ isNonneg eager.kd = true ∧
    (∃ p q output, (new eager 0.001 (some 2.0)).after [1.0] = .ok p ∧
      p.update 1.0 = .ok (q, output) ∧ Saturates 2.0 1.0 (p.inner 1.0 + p.integral) ∧
      Outward 1.0 p.integral q.integral) ∧
    (new eager 0.001 (some 2.0)).outputs [1.0, 1.0, 1.0, -1.0] =
      some [0x40000000, 0x40000000, 0x40000000, 0x3f800000] := by
  have hlimit : (new eager 0.001 (some 2.0)).limit = some 2.0 := by decide +kernel
  have hlater := (foldl_stepped (new eager 0.001 (some 2.0)) [1.0]).2.2.trans hlimit
  have h0 : (0.0 : Scalar) ≤ 2.0 := by decide
  refine ⟨by decide, by decide, by decide, ⟨_, _, _, after_of_limit hlimit h0 [1.0],
    update_of_limit hlater h0 1.0, ?_, ?_⟩, ?_⟩ <;> decide +kernel

end AnglePid

end Quadrotor

import Mathlib
import Quadrotor.Flight.Config
import Quadrotor.Proofs.Scalar.Nearest

/-!
# Reading a check back

A configuration is accepted if every requirement of its check holds. The lemmas here take an
accepted check apart into those requirements, and a successful computation into its steps. Of what
an accepted configuration stands for, the tick period is used throughout: it is positive and finite.
-/

namespace Quadrotor

/-- A computation succeeds if its first step does and the rest does with what that step gave. -/
theorem bind_eq_ok {ε α β : Type} {x : Except ε α} {f : α → Except ε β} {b : β} :
    (x >>= f) = .ok b ↔ ∃ a, x = .ok a ∧ f a = .ok b := by
  cases x with
  | error e =>
    constructor
    · intro h
      cases h
    · rintro ⟨a, h, hf⟩
      cases h
  | ok a =>
    constructor
    · exact fun h => ⟨a, rfl, h⟩
    · rintro ⟨_, h, hf⟩
      cases h
      exact hf

/-- A computation succeeds if its first step does and the rest does whatever that step gives. -/
theorem exists_bind_ok {ε α β : Type} {x : Except ε α} {f : α → Except ε β}
    (hx : ∃ a, x = .ok a) (hf : ∀ a, ∃ b, f a = .ok b) : ∃ b, (x >>= f) = .ok b := by
  obtain ⟨a, ha⟩ := hx
  obtain ⟨b, hb⟩ := hf a
  exact ⟨b, bind_eq_ok.mpr ⟨a, ha, hb⟩⟩

@[simp] theorem require_eq_ok {ok : Bool} {e : ConfigError} :
    require ok e = .ok () ↔ ok = true := by
  cases ok <;> simp [require]

@[simp] theorem check_bind_eq_ok {x : Check} {f : Unit → Check} :
    (x >>= f) = .ok () ↔ x = .ok () ∧ f () = .ok () := by
  rw [bind_eq_ok]
  exact ⟨fun ⟨(), hx, hf⟩ => ⟨hx, hf⟩, fun ⟨hx, hf⟩ => ⟨(), hx, hf⟩⟩

@[simp] theorem check_forM_eq_ok {α : Type} {xs : List α} {f : α → Check} :
    xs.forM f = .ok () ↔ ∀ x ∈ xs, f x = .ok () := by
  induction xs with
  | nil => exact iff_of_true rfl fun x hx => absurd hx List.not_mem_nil
  | cons x xs ih =>
    change (f x >>= fun _ => xs.forM f) = .ok () ↔ _
    rw [check_bind_eq_ok, ih, List.forall_mem_cons]

namespace Scalar

@[simp] theorem isPositive_iff {x : Scalar} :
    isPositive x = true ↔ x.isFinite = true ∧ 0.0 < x := by
  rw [isPositive, Bool.and_eq_true, decide_eq_true_iff]

@[simp] theorem isNonneg_iff {x : Scalar} : isNonneg x = true ↔ x.isFinite = true ∧ 0.0 ≤ x := by
  rw [isNonneg, Bool.and_eq_true, decide_eq_true_iff]

@[simp] theorem within_iff {lo hi x : Scalar} : within lo hi x = true ↔ lo ≤ x ∧ x < hi := by
  rw [within, Bool.and_eq_true, decide_eq_true_iff, decide_eq_true_iff]

@[simp] theorem inUnit_iff {x : Scalar} : inUnit x = true ↔ 0.0 ≤ x ∧ x ≤ 1.0 := by
  rw [inUnit, Bool.and_eq_true, decide_eq_true_iff, decide_eq_true_iff]

end Scalar

/-! ## The tick period -/

namespace FlightConfig

open Scalar

/-- A millionth, as near as a scalar comes to it. -/
theorem value_micro : value 1e-6 = 8796093 * 2 ^ (-43 : ℤ) := by
  have hform : form 1e-6 = .finite .positive 8796093 (-43) (by decide) := rfl
  rw [value, hform, formValue_finite_pos]
  norm_num

/-- An accepted loop period makes a tick period between a millionth of a second and one second. -/
theorem period_mem {c : FlightConfig} (hmin : minLoopPeriod ≤ c.loopPeriod)
    (hmax : c.loopPeriod ≤ maxLoopPeriod) : 1e-6 ≤ c.period ∧ c.period ≤ 1.0 := by
  have hlow : 100 ≤ c.loopPeriod.toNat := UInt32.le_iff_toNat_le.mp hmin
  have hhigh : c.loopPeriod.toNat ≤ 20000 := UInt32.le_iff_toNat_le.mp hmax
  obtain ⟨hfinite, hvalue⟩ := value_ofWord (n := c.loopPeriod) (by omega)
  have hrounds : Rounds (c.loopPeriod.toNat * value 1e-6) c.period.form := by
    rw [← hvalue]
    exact rounds_mul hfinite rfl
  have hlow' : (100 : ℚ) ≤ c.loopPeriod.toNat := by exact_mod_cast hlow
  have hhigh' : (c.loopPeriod.toNat : ℚ) ≤ 20000 := by exact_mod_cast hhigh
  have hmicro : (0 : ℚ) < value 1e-6 := by
    rw [value_micro]
    norm_num
  constructor
  · exact hrounds.faithful.le_of_value_le rfl (by nlinarith)
  · refine hrounds.faithful.le_of_le_value rfl ?_
    rw [value_one, value_micro]
    norm_num
    linarith

/-- A tick period can be counted with. -/
theorem period_bounds {c : FlightConfig} (hmin : minLoopPeriod ≤ c.loopPeriod)
    (hmax : c.loopPeriod ≤ maxLoopPeriod) : c.period.isFinite = true ∧ 0.0 < c.period := by
  obtain ⟨hbelow, habove⟩ := period_mem hmin hmax
  have hpos : (0.0 : Scalar) < 1e-6 := by decide
  exact ⟨isFinite_of_mem rfl rfl hbelow habove, lt_of_lt_of_le hpos hbelow⟩

end FlightConfig

end Quadrotor

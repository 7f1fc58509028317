import Mathlib
import Quadrotor.Proofs.Checks
import Quadrotor.Proofs.Scalar.Mean
import Quadrotor.Proofs.Scalar.Quotient
import Quadrotor.Simulation.Config

/-!
# Draining a cell

A step takes from the charge what the motors draw in it, as a share of the capacity, and holds the
difference above zero only. The charge stays in its range if that share is never below zero; that it
is no number does no harm, since the charge is zero then. The share is below zero just where current
and capacity have opposite signs, and the sign bit of a capacity of zero counts. The settings do not
look at the battery, so what is accepted may charge it, or start it with a charge that is no number.
-/

namespace Quadrotor.Cell

open Float.Model.UnpackedFloat
open Scalar

variable {p : CellParams} {c : Cell} {s : SimulationSettings} {seed : UInt64}
  {config : SimulationConfig}

/-- What is done to a cell. -/
inductive Use where
  | draw (duties : PerMotor Scalar) (dt : Scalar)
  | setCharge (charge : Scalar)

def use (c : Cell) : Use → Cell
  | .draw duties dt => c.step duties dt
  | .setCharge charge => c.withCharge charge

/-- Duties and charges are within `[0, 1]`, and time passes. -/
def Use.Regular : Use → Prop
  | .draw duties dt => (∀ duty ∈ duties.toList, Share duty) ∧ 0.0 < dt
  | .setCharge charge => Share charge

/-- However the cell is used, its charge is within `[0, 1]`, and to draw from it does not raise it. -/
structure Drains (c : Cell) : Prop where
  charge : ∀ uses : List Use, (∀ u ∈ uses, u.Regular) → Share (uses.foldl use c).charge
  draw : ∀ uses : List Use, (∀ u ∈ uses, u.Regular) → ∀ duties dt, (Use.draw duties dt).Regular →
    ((uses.foldl use c).step duties dt).charge ≤ (uses.foldl use c).charge

/-- Current and capacity have opposite signs. -/
def Backwards (p : CellParams) : Prop :=
  p.capacity.isFinite = true ∧ ((p.maxCurrent < 0.0 ∧ p.capacity.isNegative = false) ∨
    (0.0 < p.maxCurrent ∧ p.capacity.isNegative = true))

/-! ## The share of a step -/

/-- What a step takes from the charge at a mean duty. -/
def drain (p : CellParams) (mean dt : Scalar) : Scalar :=
  drawn (p.maxCurrent * mean) dt / p.capacity

/-- The same cell with both signs changed. -/
def reversed (p : CellParams) : CellParams :=
  { p with capacity := -p.capacity, maxCurrent := -p.maxCurrent }

theorem drain_reversed (p : CellParams) (mean dt : Scalar) :
    drain (reversed p) mean dt = drain p mean dt := by
  unfold drain reversed drawn
  dsimp only
  rw [Scalar.neg_mul, Scalar.neg_mul, Scalar.neg_mul, Scalar.neg_div, Scalar.neg_div_neg]

theorem drain_not_neg_of_sign {mean dt : Scalar} (hf : p.capacity.isFinite = true)
    (hs : p.capacity.isNegative = false) (hcurrent : ¬p.maxCurrent < 0.0) (hmean : 0.0 ≤ mean)
    (hdt : 0.0 < dt) : ¬drain p mean dt < 0.0 := by
  have hcharge : ¬p.maxCurrent * mean * 1000.0 * dt < 0.0 :=
    not_neg_mul (not_neg_mul (not_neg_mul hcurrent hmean) (by decide)) (le_of_lt hdt)
  exact not_neg_div (not_neg_div hcharge (by decide) (by decide)) hf hs

theorem drain_not_neg {mean dt : Scalar} (hp : ¬Backwards p) (hmean : 0.0 ≤ mean) (hdt : 0.0 < dt) :
    ¬drain p mean dt < 0.0 := by
  by_cases hf : p.capacity.isFinite = true
  · cases hs : p.capacity.isNegative with
    | false =>
      have hcurrent : ¬p.maxCurrent < 0.0 := fun h => hp ⟨hf, Or.inl ⟨h, hs⟩⟩
      exact drain_not_neg_of_sign hf hs hcurrent hmean hdt
    | true =>
      have hcurrent : ¬(reversed p).maxCurrent < 0.0 := fun h =>
        hp ⟨hf, Or.inr ⟨neg_lt_zero_iff.mp h, hs⟩⟩
      rw [← drain_reversed]
      refine drain_not_neg_of_sign ?_ (isNegative_neg (isNaN_of_isFinite hf) hs) hcurrent hmean hdt
      exact (isFinite_neg p.capacity).trans hf
  · exact not_neg_div_of_not_isFinite _ hf

/-- At full duty and for ever, a current draws without end. -/
theorem form_drawn_of_pos {current : Scalar} (h : 0.0 < current) :
    form (drawn (current * 1.0) infinity) = .infinity .positive := by
  have hpos : 0.0 < current * 1.0 * 1000.0 :=
    pos_mul (pos_mul h (by decide) (by decide)) (by decide) (by decide)
  exact form_infinity_div (form_mul_infinity hpos) (by decide)

theorem drain_infinite_of_sign (hf : p.capacity.isFinite = true)
    (hs : p.capacity.isNegative = false) (hcurrent : p.maxCurrent < 0.0) :
    (drain p 1.0 infinity).form = .infinity .negative := by
  have hopposite : 0.0 < -p.maxCurrent := by
    rwa [← neg_lt_zero_iff, Scalar.neg_neg]
  have hdrawn : (drawn (p.maxCurrent * 1.0) infinity).form = .infinity .negative := by
    have hform := form_drawn_of_pos hopposite
    unfold drawn at hform ⊢
    rw [Scalar.neg_mul, Scalar.neg_mul, Scalar.neg_mul, Scalar.neg_div, form_neg] at hform
    rw [← neg_neg_form (form _), hform]
    rfl
  rw [drain, form_infinity_div hdrawn hf, (isNegative_eq_false_iff (isNaN_of_isFinite hf)).mp hs]
  rfl

theorem drain_infinite (hp : Backwards p) : (drain p 1.0 infinity).form = .infinity .negative := by
  obtain ⟨hf, ⟨hcurrent, hs⟩ | ⟨hcurrent, hs⟩⟩ := hp
  · exact drain_infinite_of_sign hf hs hcurrent
  · rw [← drain_reversed]
    refine drain_infinite_of_sign ((isFinite_neg p.capacity).trans hf)
      (isNegative_neg (isNaN_of_isFinite hf) hs) (neg_lt_zero_iff.mpr hcurrent)

/-! ## One use -/

theorem step_charge (c : Cell) (duties : PerMotor Scalar) (dt : Scalar) : (c.step duties dt).charge =
    maxNum (c.charge - drain c.params (confine 0.0 1.0 (Scalar.sum duties.toList / 4.0)) dt) 0.0 := rfl

theorem nonneg_foldl_add {xs : List Scalar} {x : Scalar} (hx : 0.0 ≤ x) (h : ∀ y ∈ xs, Share y) :
    0.0 ≤ xs.foldl (· + ·) x := by
  induction xs generalizing x with
  | nil => exact hx
  | cons y xs ih =>
    obtain ⟨hy, hxs⟩ := List.forall_mem_cons.mp h
    exact ih (nonneg_add hx hy.nonneg) hxs

theorem mean_nonneg {duties : PerMotor Scalar} (h : ∀ duty ∈ duties.toList, Share duty) :
    0.0 ≤ confine 0.0 1.0 (Scalar.sum duties.toList / 4.0) := by
  have hsum : 0.0 ≤ Scalar.sum duties.toList := nonneg_foldl_add (by decide) h
  have hmean : 0.0 ≤ Scalar.sum duties.toList / 4.0 := nonneg_div_isPositive hsum (by decide)
  exact (share_confine (le_iff.mp hmean).2.1).nonneg

/-- The charge is in its range, and current and capacity keep it there. -/
structure Sound (c : Cell) : Prop where
  forward : ¬Backwards c.params
  charge : Share c.charge

theorem Sound.step_le {duties : PerMotor Scalar} {dt : Scalar} (h : Sound c)
    (hr : (Use.draw duties dt).Regular) : (c.step duties dt).charge ≤ c.charge := by
  have hdrain := drain_not_neg h.forward (mean_nonneg hr.1) hr.2
  rw [step_charge]
  refine maxNum_le h.charge.nonneg ?_
  rcases not_lt_zero_iff.mp hdrain with hn | hnonneg
  · rw [Scalar.sub_eq_add_neg]
    exact Or.inl (isNaN_add_right _ ((isNaN_neg _).trans hn))
  · exact isNaN_or_sub_le h.charge.nonneg hnonneg

theorem Sound.use {u : Use} (h : Sound c) (hu : u.Regular) : Sound (c.use u) := by
  cases u with
  | draw duties dt => exact ⟨h.forward, nonneg_maxNum _, le_trans (h.step_le hu) h.charge.le_one⟩
  | setCharge charge => exact ⟨h.forward, share_confine (isNaN_of_isFinite hu.isFinite)⟩

theorem Sound.run {uses : List Use} (h : Sound c) (hr : ∀ u ∈ uses, u.Regular) :
    Sound (uses.foldl Cell.use c) := by
  induction uses generalizing c with
  | nil => exact h
  | cons u uses ih =>
    obtain ⟨hu, huses⟩ := List.forall_mem_cons.mp hr
    exact ih (h.use hu) huses

/-! ## All accepted settings -/

theorem drains_of_sound (h : Sound c) : Drains c where
  charge := fun _ hr => (h.run hr).charge
  draw := fun _ hr _ _ hdraw => (h.run hr).step_le hdraw

theorem regular_full {dt : Scalar} (hdt : 0.0 < dt) : (Use.draw (.fill 1.0) dt).Regular := by
  refine ⟨fun duty hduty => ?_, hdt⟩
  have hone : duty = 1.0 := by simpa [PerMotor.toList, PerMotor.fill] using hduty
  exact hone ▸ Share.one

/-- With current and capacity of opposite signs one long step at full duty charges without end. -/
theorem not_drains_of_backwards (hp : Backwards c.params) : ¬Drains c := by
  intro h
  have hcharge : Share c.charge := h.charge [] (by simp)
  have hlong : (Use.draw (.fill 1.0) infinity).Regular := regular_full (by decide)
  have hfull : ∀ u ∈ [Use.draw (.fill 1.0) infinity], u.Regular := by simpa using hlong
  have hmean : confine 0.0 1.0 (Scalar.sum (PerMotor.fill (1.0 : Scalar)).toList / 4.0) = 1.0 := by
    decide +kernel
  have hsum : (c.charge - drain c.params 1.0 infinity).form = .infinity .positive := by
    rw [Scalar.sub_eq_add_neg]
    refine form_infinity_add hcharge.isFinite ?_
    rw [form_neg, drain_infinite hp]
    rfl
  have hvalue : (c.step (.fill 1.0) infinity).charge.value = 2 ^ 128 := by
    rw [step_charge, hmean, value_maxNum (isNaN_eq_false.mpr (by rw [hsum]; simp)),
      value_infinity hsum]
    norm_num
  have hle : (c.step (.fill 1.0) infinity).charge.value ≤ 1 := (h.charge _ hfull).value_le_one
  rw [hvalue] at hle
  norm_num at hle

theorem battery_of_build (h : s.build seed = .ok config) : config.battery = s.battery := by
  obtain ⟨_, -, hassemble⟩ := bind_eq_ok.mp h
  cases hassemble
  rfl

/-- The accepted settings whose battery only drains. -/
theorem drains_iff (h : s.build seed = .ok config) : Drains (Cell.new config.battery) ↔
    s.battery.initialCharge.isNaN = false ∧ ¬Backwards s.battery := by
  rw [battery_of_build h]
  constructor
  · intro hdrains
    have hcharge : Share (confine 0.0 1.0 s.battery.initialCharge) := hdrains.charge [] (by simp)
    have hn := isNaN_of_isFinite hcharge.isFinite
    rw [confine_eq, isNaN_limit IsRange.ordered] at hn
    exact ⟨hn, fun hp => not_drains_of_backwards (c := Cell.new s.battery) hp hdrains⟩
  · rintro ⟨hn, hp⟩
    exact drains_of_sound ⟨hp, share_confine hn⟩

/-- Settings with both signs changed, and a charge above the range to start with. -/
def reversedSettings : SimulationSettings where
  battery := { capacity := -450.0, maxCurrent := -8.0, initialCharge := 1.5 }

/-- Such a battery drains. -/
theorem drains_of_reversedSettings : ∃ config, reversedSettings.build 0 = .ok config ∧
    Drains (Cell.new config.battery) ∧ (Use.draw (.fill 1.0) 60.0).Regular ∧
    ((Cell.new config.battery).step (.fill 1.0) 60.0).charge ≤ 1.0 := by
  have hbuild : reversedSettings.build 0 = .ok (reversedSettings.assemble 0) := by rfl
  have hcharge : reversedSettings.battery.initialCharge.isNaN = false := by decide
  have hforward : ¬Backwards reversedSettings.battery := by
    rintro ⟨-, ⟨-, hsign⟩ | ⟨hcurrent, -⟩⟩
    · exact absurd hsign (by decide)
    · exact absurd hcurrent (by decide)
  have hdrains := (drains_iff hbuild).mpr ⟨hcharge, hforward⟩
  have hminute : (Use.draw (.fill 1.0) 60.0).Regular := regular_full (by decide)
  exact ⟨_, hbuild, hdrains, hminute, hdrains.draw [] (by simp) _ _ hminute⟩

/-- A full cell of negative capacity is more than full after a second at full duty. -/
theorem charged_by_load : ∃ config,
    SimulationSettings.build { battery := { capacity := -300.0 } } 0 = .ok config ∧
    (Use.draw (.fill 1.0) 1.0).Regular ∧
    1.0 < ((Cell.new config.battery).step (.fill 1.0) 1.0).charge := by
  have hbuild : SimulationSettings.build { battery := { capacity := -300.0 } } 0
      = .ok (SimulationSettings.assemble { battery := { capacity := -300.0 } } 0) := by rfl
  have hcharge : 1.0 < ((Cell.new { capacity := -300.0 }).step (.fill 1.0) 1.0).charge := by
    decide +kernel
  exact ⟨_, hbuild, regular_full (by decide), hcharge⟩

end Quadrotor.Cell

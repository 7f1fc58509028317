import Mathlib
import Quadrotor.Proofs.Flight.Run
import Quadrotor.Proofs.Scalar.Direction

/-!
# The attitude heals itself

The direction of gravity is fed back through a rotation and a mean, both of which can overflow, and
through a division by the length of what came out of them. Healing at the end of an update catches
all of this at once: a length that is a finite number is that of a vector that is finite as well,
far enough below the largest scalar for the division to be harmless, and every other vector is
replaced. So it does not matter what a sample did to the direction, nor what the direction was.
-/

namespace Quadrotor

open Scalar

/-! ## Lengths -/

namespace Vec3

/-- A vector of finite length has components whose squares are finite. -/
theorem within_of_norm {v : Vec3} (h : (norm v).isFinite = true) (axis : Axis) :
    Within 64 (v.get axis) := by
  have hdot : (v.x * v.x + v.y * v.y + v.z * v.z).isFinite = true := isFinite_of_sqrt h
  have hxy := isFinite_left_of_add hdot
  rw [Scalar.add_comm] at hdot
  cases axis with
  | roll => exact within_of_square (isFinite_left_of_add hxy)
  | pitch =>
    rw [Scalar.add_comm] at hxy
    exact within_of_square (isFinite_left_of_add hxy)
  | yaw => exact within_of_square (isFinite_left_of_add hdot)

theorem isNaN_tilt {v : Vec3} (h : ∀ axis, (v.get axis).isFinite = true) (axis : TiltAxis) :
    ((tilt v).get axis).isNaN = false := by
  have hx : v.x.isFinite = true := h .roll
  have hy : v.y.isFinite = true := h .pitch
  have hz : v.z.isFinite = true := h .yaw
  cases axis with
  | roll => exact isNaN_atan2 (isNaN_of_isFinite hy) (isNaN_of_isFinite hz)
  | pitch =>
    have hroot := isNaN_sqrt (nonneg_add (nonneg_square hy) (nonneg_square hz))
    exact isNaN_atan2 (by rw [isNaN_neg]; exact isNaN_of_isFinite hx) hroot

end Vec3

namespace Attitude

/-! ## One update -/

/-- Healing leaves nothing that is not finite, whatever it is given. -/
theorem isFinite_heal (v : Vec3) (axis : Axis) : ((heal v).get axis).isFinite = true := by
  unfold heal
  dsimp only
  split_ifs with h
  · obtain ⟨hlong, hlength⟩ := h
    have hlow : 1 / 2 ^ 10 ≤ (Vec3.norm v).value := by
      have hform : form 1e-3 = .finite .positive 8589935 (-33) (by decide) := rfl
      have hlt := (lt_iff.mp hlong).2.2
      rw [value_of_form hform] at hlt
      norm_num at hlt ⊢
      linarith
    rw [Vec3.reduce, Triple.get_map]
    exact ((Vec3.within_of_norm hlength axis).div hlength hlow (by decide)).isFinite
  · cases axis <;> rfl

/-- An update ends with healing, and reports the angles of what it leaves. -/
theorem update_heals {a b : Attitude} {rates : Triple Scalar} {acc : Option Vec3} {dt : Scalar}
    {leveling : Bool} {e : Estimate} (h : a.update rates acc dt leveling = .ok (b, e)) :
    (∃ v, b.gravity = heal v) ∧ e.attitude = if leveling then some b.angles else none := by
  obtain ⟨s, _, hb⟩ := bind_eq_ok.mp h
  obtain ⟨hattitude, hestimate⟩ := Prod.mk.inj (Except.ok.inj hb)
  rw [← hattitude, ← hestimate]
  exact ⟨⟨_, rfl⟩, rfl⟩

/-- A sample of the motion, and how long after the one before it came. -/
structure Motion where
  rates : Triple Scalar
  acc : Option Vec3
  dt : Scalar
  leveling : Bool

/-- What an update leaves, and what it reports, are of use for leveling. -/
structure Usable (s : Motion) (a : Attitude) (e : Estimate) : Prop where
  /-- The direction of gravity is finite. -/
  gravity : ∀ axis, (a.gravity.get axis).isFinite = true
  /-- Its angles are numbers. -/
  angles : ∀ axis, (a.angles.get axis).isNaN = false
  /-- These are the angles that are reported. -/
  attitude : e.attitude = if s.leveling then some a.angles else none

theorem usable_of_update {a b : Attitude} {s : Motion} {e : Estimate}
    (h : a.update s.rates s.acc s.dt s.leveling = .ok (b, e)) : Usable s b e := by
  obtain ⟨⟨v, hv⟩, hattitude⟩ := update_heals h
  have hgravity : ∀ axis, (b.gravity.get axis).isFinite = true := by
    rw [hv]
    exact isFinite_heal v
  exact ⟨hgravity, Vec3.isNaN_tilt hgravity, hattitude⟩

/-! ## Any number of updates -/

/-- The attitude and the estimate after each of the samples. -/
def updates (a : Attitude) : List Motion → Checked (List (Attitude × Estimate))
  | [] => .ok []
  | s :: samples => do
    let r ← a.update s.rates s.acc s.dt s.leveling
    let later ← updates r.1 samples
    return r :: later

/-- With an accepted configuration the estimate is usable after every sample, whatever the samples
are and whatever direction the first of them finds. -/
theorem updates_usable {a : Attitude} (h : a.config.check = .ok ()) (samples : List Motion) :
    ∃ history, a.updates samples = .ok history ∧
      List.Forall₂ (fun s r => Usable s r.1 r.2) samples history := by
  -- Only the configuration has to be carried along, since nothing is asked of the direction.
  induction samples generalizing a with
  | nil => exact ⟨[], rfl, .nil⟩
  | cons s samples ih =>
    have hstep : 0.0 ≤ a.config.maxStep := Scalar.le_of_lt (AttitudeConfig.maxStep_pos h)
    obtain ⟨⟨b, e⟩, hupdate⟩ := Attitude.update_ok hstep s.rates s.acc s.dt s.leveling
    have hnext : b.config.check = .ok () := by
      rw [FlightCore.attitude_update_config hupdate]
      exact h
    obtain ⟨later, hlater, husable⟩ := ih hnext
    refine ⟨(b, e) :: later, ?_, .cons (usable_of_update hupdate) husable⟩
    exact bind_eq_ok.mpr ⟨(b, e), hupdate, bind_eq_ok.mpr ⟨later, hlater, rfl⟩⟩

/-- Samples that are no numbers, infinite, or too large to turn by or to take a mean with. -/
def badMotion : List Motion :=
  [⟨.fill nan, some (.fill nan), nan, true⟩, ⟨.fill infinity, some (.fill infinity), infinity, true⟩,
    ⟨.fill largest, some (.fill largest), largest, true⟩, ⟨.fill 0.0, none, 0.001, true⟩]

/-- An estimate whose direction is not a vector at all. -/
def lost : Attitude := { config := {}, gravity := .fill nan }

theorem updates_usable_of_lost : lost.config.check = .ok () ∧
    ∃ history, lost.updates badMotion = .ok history ∧
      List.Forall₂ (fun s r => Usable s r.1 r.2) badMotion history := by
  have hcheck : lost.config.check = .ok () := rfl
  exact ⟨hcheck, updates_usable hcheck badMotion⟩

end Attitude

end Quadrotor

import Mathlib
import Quadrotor.Control.RateController
import Quadrotor.Control.Setpoints
import Quadrotor.Proofs.Checks
import Quadrotor.Proofs.Scalar.Arithmetic

/-!
# The limits of the controllers

A controller limits its integral or its output to a range around zero, and is aborted if that range
is not one. Its limit is fixed when it is built, so it is enough that the limit is a number and not
negative then; no update, change of gains or reset touches it.
-/

namespace Quadrotor

open Scalar

theorem isNonneg_le {x : Scalar} (h : Scalar.isNonneg x = true) : 0.0 ≤ x :=
  (isNonneg_iff.mp h).2

/-! ## Rate controllers -/

namespace RatePid

/-- The limit of the integral is a number and not negative. -/
def Ready (p : RatePid) : Prop := 0.0 ≤ p.config.integralLimit

theorem update_ok {p : RatePid} (h : p.Ready) (setpoint measurement : Scalar)
    (context : PidContext) :
    ∃ q output, p.update setpoint measurement context = .ok (q, output) ∧ q.Ready := by
  have hclamp := clamp_eq_ok (neg_le_self h) (p.accumulate (setpoint - measurement)
    (relax p.average setpoint).2 context.onGround)
  exact ⟨_, _, bind_eq_ok.mpr ⟨_, hclamp, rfl⟩, h⟩

end RatePid

theorem RatePidConfig.integralLimit_of_check {c : RatePidConfig} (h : c.check = .ok ()) :
    0.0 ≤ c.integralLimit := by
  simp only [check, check_bind_eq_ok, require_eq_ok, Bool.and_eq_true] at h
  exact isNonneg_le h.1.1.1

theorem RateControlConfig.get_of_check {c : RateControlConfig} (h : c.check = .ok ())
    (axis : Axis) : (c.get axis).check = .ok () := by
  change (c.x.check >>= fun _ => c.y.check >>= fun _ => c.z.check >>= fun _ => .ok ()) = .ok () at h
  simp only [check_bind_eq_ok] at h
  cases axis
  exacts [h.1, h.2.1, h.2.2.1]

namespace RateController

/-- The controllers of all axes are ready. -/
def Ready (r : RateController) : Prop := ∀ axis, (r.pids.get axis).Ready

theorem ready_new {config : RateControlConfig} (h : config.check = .ok ()) (gains : Triple Gains)
    (attenuation period : Scalar) : (new config gains attenuation period).Ready := by
  intro axis
  rw [new, Triple.get_zipWith]
  exact RatePidConfig.integralLimit_of_check (RateControlConfig.get_of_check h axis)

theorem Ready.withGains {r : RateController} (h : r.Ready) (gains : Triple Gains) :
    (r.withGains gains).Ready := by
  intro axis
  rw [RateController.withGains, Triple.get_zipWith]
  exact h axis

theorem Ready.reset {r : RateController} (h : r.Ready) : r.reset.Ready := by
  intro axis
  rw [RateController.reset, Triple.get_map]
  exact h axis

theorem updateAxis_ok {r : RateController} (h : r.Ready) (axis : Axis) (mode : FlightMode)
    (setpoint measured : Scalar) :
    ∃ s output, r.updateAxis axis mode setpoint measured = .ok (s, output) ∧ s.Ready := by
  obtain ⟨q, output, hok, hq⟩ :=
    RatePid.update_ok (h axis) setpoint measured (r.contextIn mode)
  refine ⟨_, _, bind_eq_ok.mpr ⟨_, hok, rfl⟩, fun other => ?_⟩
  change ((r.pids.set axis q).get other).Ready
  rw [Triple.get_set]
  split_ifs with he
  · exact hq
  · exact h other

theorem update_ok {r : RateController} (h : r.Ready) (mode : FlightMode)
    (setpoints measured : Triple Scalar) :
    ∃ s commands, r.update mode setpoints measured = .ok (s, commands) ∧ s.Ready := by
  obtain ⟨r1, x, h1, hr1⟩ := updateAxis_ok h .roll mode setpoints.x measured.x
  obtain ⟨r2, y, h2, hr2⟩ := updateAxis_ok hr1 .pitch mode setpoints.y measured.y
  obtain ⟨r3, z, h3, hr3⟩ := updateAxis_ok hr2 .yaw mode setpoints.z measured.z
  exact ⟨r3, ⟨x, y, z⟩,
    bind_eq_ok.mpr ⟨_, h1, bind_eq_ok.mpr ⟨_, h2, bind_eq_ok.mpr ⟨_, h3, rfl⟩⟩⟩, hr3⟩

end RateController

/-! ## Angle controllers -/

namespace AnglePid

/-- The limit of the output, if there is one, is a number and not negative. -/
def Ready (p : AnglePid) : Prop := ∀ l, p.limit = some l → 0.0 ≤ l

theorem Ready.reset {p : AnglePid} (h : p.Ready) : p.reset.Ready := h

theorem update_ok {p : AnglePid} (h : p.Ready) (error : Scalar) :
    ∃ q output, p.update error = .ok (q, output) ∧ q.Ready := by
  have hlimited : ∀ x, ∃ y, p.limited x = .ok y := by
    intro x
    unfold limited
    cases hl : p.limit with
    | none => exact ⟨x, rfl⟩
    | some l => exact ⟨_, clamp_eq_ok (neg_le_self (h l hl)) x⟩
  obtain ⟨output, hok⟩ := hlimited _
  exact ⟨_, _, bind_eq_ok.mpr ⟨output, hok, rfl⟩, h⟩

/-- A limit that is a number gives a ready controller, whatever its sign. -/
theorem ready_new (config : AnglePidConfig) (period : Scalar) {l : Scalar} (hl : l.isNaN = false) :
    (new config period (some l)).Ready := by
  intro m hm
  change some l.abs = some m at hm
  rw [← Option.some_inj.mp hm]
  refine (le_iff_value rfl (by rw [isNaN_abs]; exact hl)).mpr ?_
  rw [value_zero, value_abs]
  exact abs_nonneg _

end AnglePid

namespace Setpoints

/-- The angle controllers of both axes are ready. -/
def Ready (s : Setpoints) : Prop := s.pids.roll.Ready ∧ s.pids.pitch.Ready

theorem Ready.reset {s : Setpoints} (h : s.Ready) : s.reset.Ready := h

theorem ready_new {level : LevelConfig} (h : level.check = .ok ()) (rates : StickRates)
    (period : Scalar) : (new rates level period).Ready := by
  simp only [LevelConfig.check, check_bind_eq_ok, require_eq_ok, isPositive_iff] at h
  have hnum : (level.maxRate * degree).isNaN = false := (faithful_mul h.2.1.1 rfl).isNaN
  exact ⟨AnglePid.ready_new _ _ hnum, AnglePid.ready_new _ _ hnum⟩

theorem axisSetpoint_ok {pid : AnglePid} (h : pid.Ready) (c : LevelConfig) (mode : AxisMode)
    (stick trim attitude stickRate share : Scalar) :
    ∃ q x, axisSetpoint c pid mode stick trim attitude stickRate share = .ok (q, x) ∧ q.Ready := by
  cases mode with
  | rate => exact ⟨pid.reset, stickRate, rfl, h.reset⟩
  | level =>
    obtain ⟨q, x, hok, hq⟩ := AnglePid.update_ok h
      (stick * c.maxAngle * Scalar.degree + trim - attitude)
    exact ⟨q, x, hok, hq⟩
  | blend =>
    obtain ⟨q, x, hok, hq⟩ := AnglePid.update_ok h
      (stick * c.maxAngle * Scalar.degree + trim - attitude)
    exact ⟨q, _, bind_eq_ok.mpr ⟨_, hok, rfl⟩, hq⟩

theorem update_ok {s : Setpoints} (h : s.Ready) (input : SetpointInput) :
    ∃ t rates, s.update input = .ok (t, rates) ∧ t.Ready := by
  obtain ⟨sticks, hsticks⟩ :
      ∃ sticks, sticks = input.sticks.map (limitOrZero (-1.0) 1.0) := ⟨_, rfl⟩
  cases ha : input.attitude with
  | none =>
    refine ⟨s.reset, stickRates s.rates sticks input.highRates, ?_, h.reset⟩
    simp only [update, ha, ← hsticks]
  | some attitude =>
    obtain ⟨roll, x, hroll, hr⟩ := axisSetpoint_ok h.1 s.level input.mode.axisModes.roll sticks.x
      input.trims.roll attitude.roll (stickRates s.rates sticks input.highRates).x
      (rateShare s.level sticks attitude)
    obtain ⟨pitch, y, hpitch, hp⟩ := axisSetpoint_ok h.2 s.level input.mode.axisModes.pitch sticks.y
      input.trims.pitch attitude.pitch (stickRates s.rates sticks input.highRates).y
      (rateShare s.level sticks attitude)
    refine ⟨{ s with pids := ⟨roll, pitch⟩ },
      ⟨x, y, (stickRates s.rates sticks input.highRates).z⟩, ?_, hr, hp⟩
    simp only [update, ha, ← hsticks]
    exact bind_eq_ok.mpr ⟨_, hroll, bind_eq_ok.mpr ⟨_, hpitch, rfl⟩⟩

end Setpoints

end Quadrotor

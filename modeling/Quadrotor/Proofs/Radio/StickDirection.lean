import Mathlib
import Quadrotor.Proofs.Scalar.Sign
import Quadrotor.Radio.Rates

/-!
# The direction of the stick response

A rate that a stick asks for never has the direction opposite to the stick, and is zero within the
deadband, as long as the curve of the axis is bounded and its slope at the centre is not negative.
Neither of the two is among what the check of a curve asks for: a curve with given slopes passes with
any slope at the centre that is not above its rate, even with one that is no number.
-/

namespace Quadrotor

open Scalar

namespace StickCurve

/-- The factors that the curve multiplies the deflection with are finite. -/
def Bounded : StickCurve → Prop
  | expo _ _ => True
  | betaflight rcRate _ _ => Float32.isFinite (200.0 * rcRate) = true
  | actual rate _ centre => Float32.isFinite (rate - centre) = true

/-- The curve does not fall at the centre. -/
def Rising : StickCurve → Prop
  | expo _ _ | betaflight _ _ _ => True
  | actual _ _ centre => 0.0 ≤ centre

section

variable {x e rate centre rcRate superRate maxRate : Scalar}

theorem share_of_inUnit (h : inUnit e = true) : Share e :=
  ⟨(inUnit_iff.mp h).1, (inUnit_iff.mp h).2⟩

/-- A line blended with something that eases. -/
theorem along_blended {y : Scalar} (hx : Within 0 x) (hy : Eases x y) (he : Share e) :
    Along x (y * e + x * (1.0 - e)) ∧ Within 1 (y * e + x * (1.0 - e)) := by
  have hbent := hy.mul_share he
  have hline := (Eases.refl hx).mul_share he.rest
  exact ⟨hbent.toAlong.add hbent.isFinite hline.toAlong,
    hbent.toWithin.add hline.toWithin (by decide)⟩

theorem along_expo (hx : Within 0 x) (hrate : isPositive maxRate = true) (he : Share e) :
    Along x ((expo maxRate e).apply x) := by
  obtain ⟨hf, hpos⟩ := isPositive_iff.mp hrate
  have hcube := (Eases.refl hx).share_mul (share_square hx)
  obtain ⟨halong, hwithin⟩ := along_blended hx hcube he
  exact halong.mul_left hwithin.isFinite hf (lt_iff.mp hpos).2.2.le

/-- The boost of a deflection is between one and one hundred. -/
theorem isPositive_boost (hx : Within 0 x) (hsuper : Scalar.within 0.0 1.0 superRate = true) :
    isPositive (1.0 / Scalar.confine 0.01 1.0 (1.0 - x.abs * superRate)) = true := by
  obtain ⟨h0, h1⟩ := within_iff.mp hsuper
  have hshare : Share superRate := ⟨h0, Scalar.le_of_lt h1⟩
  have hnumber := isNaN_finite_sub (x := 1.0) rfl
    (isNaN_of_isFinite ((share_abs hx).mul hshare).isFinite)
  obtain ⟨hlow, hhigh⟩ := confine_mem 0.01 1.0 hnumber
  have hf := isFinite_of_mem rfl rfl hlow hhigh
  have hlow' : 1 / 2 ^ 7 ≤ value (Scalar.confine 0.01 1.0 (1.0 - x.abs * superRate)) := by
    have hform : form 0.0078125 = .finite .positive (2 ^ 23) (-30) (by decide) := rfl
    have hsmall : (0.0078125 : Scalar) ≤ 0.01 := by decide
    have hle := (le_iff.mp (Scalar.le_trans hsmall hlow)).2.2
    rw [value_of_form hform] at hle
    exact le_trans (by norm_num) hle
  have hpos : 0 < value (Scalar.confine 0.01 1.0 (1.0 - x.abs * superRate)) :=
    lt_of_lt_of_le (by norm_num) hlow'
  have hone : 1.0 ≤ 1.0 / Scalar.confine 0.01 1.0 (1.0 - x.abs * superRate) := by
    refine (rounds_div (x := 1.0) rfl hf hpos.ne').faithful.le_of_value_le rfl ?_
    rw [value_one, le_div_iff₀ hpos, one_mul]
    exact value_one ▸ (le_iff.mp hhigh).2.2
  have hzero : (0.0 : Scalar) < 1.0 := by decide
  exact isPositive_iff.mpr
    ⟨(Share.one.within.div hf hlow' (by decide)).isFinite, Scalar.lt_of_lt_of_le hzero hone⟩

theorem along_shaped (hx : Within 0 x) (he : Share e) :
    Along x (x * x.abs * x.abs * x.abs * e + x * (1.0 - e)) ∧
      Within 1 (x * x.abs * x.abs * x.abs * e + x * (1.0 - e)) :=
  have habs := share_abs hx
  along_blended hx ((((Eases.refl hx).mul_share habs).mul_share habs).mul_share habs) he

theorem along_betaflight (hx : Within 0 x) (hrate : isPositive rcRate = true)
    (hsuper : Scalar.within 0.0 1.0 superRate = true) (he : Share e)
    (hbounded : Float32.isFinite (200.0 * rcRate) = true) :
    Along x ((betaflight rcRate superRate e).apply x) := by
  obtain ⟨hf, hpos⟩ := isPositive_iff.mp hrate
  have hfactor : 0 ≤ value (200.0 * rcRate) :=
    Scalar.value_nonneg (nonneg_mul_of_isFinite (by decide) (Scalar.le_of_lt hpos) rfl hf)
  obtain ⟨halong, hwithin⟩ := along_shaped hx he
  exact (halong.mul_left hwithin.isFinite hbounded hfactor).mul_pos (isPositive_boost hx hsuper)

/-- The part of a curve with given slopes that bends. -/
theorem along_bend (hx : Within 0 x) (he : Share e) :
    Along x (x.abs * (pow5 x * e + x * (1.0 - e))) ∧
      Float32.isFinite (x.abs * (pow5 x * e + x * (1.0 - e))) = true := by
  have hsquare := share_square hx
  have hpow : Eases x (pow5 x) := (Eases.refl hx).mul_share (hsquare.mul hsquare)
  have habs := share_abs hx
  obtain ⟨halong, hwithin⟩ := along_blended hx hpow he
  exact ⟨halong.mul_left hwithin.isFinite habs.isFinite habs.value_nonneg,
    (habs.within.mul hwithin (by decide)).isFinite⟩

theorem isFinite_mul_deflection (hx : Within 0 x) (hc : centre.isFinite = true) :
    Float32.isFinite (centre * x) = true := by
  refine (rounds_mul hc hx.isFinite).faithful.isFinite hc ?_
  rw [abs_mul]
  exact mul_le_of_le_one_right (abs_nonneg _) hx.abs_le

theorem along_actual (hx : Within 0 x) (hrate : rate.isFinite = true) (he : Share e)
    (hbounded : Float32.isFinite (rate - centre) = true) (hle : ¬rate < centre)
    (hrising : 0.0 ≤ centre) : Along x ((actual rate e centre).apply x) := by
  have hc := isFinite_of_finite_sub hrate hbounded
  have hline := (Along.refl (isNaN_of_isFinite hx.isFinite)).mul_left hx.isFinite hc
    (Scalar.value_nonneg hrising)
  obtain ⟨hbend, hfbend⟩ := along_bend hx he
  have hrest : 0 ≤ value (rate - centre) := Scalar.value_nonneg (sub_nonneg hc
    (le_of_not_lt (isNaN_of_isFinite hrate) (isNaN_of_isFinite hc) hle))
  exact hline.add (isFinite_mul_deflection hx hc) (hbend.mul_left hfbend hbounded hrest)

/-- A bounded curve with given slopes is a number everywhere and zero at the centre, whatever the
slope there. -/
theorem centred_actual (hx : Within 0 x) (hrate : rate.isFinite = true) (he : Share e)
    (hbounded : Float32.isFinite (rate - centre) = true) :
    ((actual rate e centre).apply x).isNaN = false ∧
      (x.value = 0 → value ((actual rate e centre).apply x) = 0) := by
  have hc := isFinite_of_finite_sub hrate hbounded
  have hfline := isFinite_mul_deflection hx hc
  obtain ⟨hbend, hfbend⟩ := along_bend hx he
  have hproduct := rounds_mul hbounded hfbend
  constructor
  · have hsum := isNaN_finite_add_iff (y := (rate - centre) *
      (x.abs * (pow5 x * e + x * (1.0 - e)))) hfline
    rw [← Bool.not_eq_true]
    exact fun h => Bool.false_ne_true (hproduct.isNaN.symm.trans (hsum.mp h))
  · intro hx0
    have hzero : ∀ {y z : Scalar}, y.isFinite = true → z.isFinite = true → z.value = 0 →
        Along 0.0 (y * z) := by
      intro y z hy hz h0
      refine along_of_rounds (rounds_mul hy hz) ?_ ?_ <;> simp [h0]
    have hline := hzero hc hx.isFinite hx0
    have hbent := hzero hbounded hfbend (hbend.value_eq_zero hx0)
    exact (hline.add hfline hbent).value_eq_zero value_zero

/-! ## Accepted curves -/

variable {curve : StickCurve} {name : String}

theorem along_apply (hcheck : curve.check name = .ok ()) (hbounded : curve.Bounded)
    (hrising : curve.Rising) (hx : Within 0 x) : Along x (curve.apply x) := by
  cases curve with
  | expo maxRate e =>
    simp only [check, check_bind_eq_ok, require_eq_ok] at hcheck
    exact along_expo hx hcheck.1 (share_of_inUnit hcheck.2)
  | betaflight rcRate superRate e =>
    simp only [check, check_bind_eq_ok, require_eq_ok, Bool.and_eq_true] at hcheck
    exact along_betaflight hx hcheck.1.1 hcheck.1.2 (share_of_inUnit hcheck.2) hbounded
  | actual rate e centre =>
    simp only [check, check_bind_eq_ok, require_eq_ok, Bool.and_eq_true, isPositive_iff,
      Bool.not_eq_true', decide_eq_false_iff_not] at hcheck
    exact along_actual hx hcheck.1.1.1 (share_of_inUnit hcheck.2) hbounded hcheck.1.2 hrising

theorem centred_apply (hcheck : curve.check name = .ok ()) (hbounded : curve.Bounded)
    (hx : Within 0 x) : (curve.apply x).isNaN = false ∧
      (x.value = 0 → value (curve.apply x) = 0) := by
  cases curve with
  | expo | betaflight =>
    have halong := along_apply hcheck hbounded trivial hx
    exact ⟨halong.isNaN, halong.value_eq_zero⟩
  | actual rate e centre =>
    simp only [check, check_bind_eq_ok, require_eq_ok, Bool.and_eq_true, isPositive_iff] at hcheck
    exact centred_actual hx hcheck.1.1.1 (share_of_inUnit hcheck.2) hbounded

/-- A curve that is not bounded is no number at the centre. -/
theorem isNaN_apply_of_not_bounded (hcheck : curve.check name = .ok ()) (h : ¬curve.Bounded)
    (hx : Within 0 x) (hx0 : x.value = 0) : (curve.apply x).isNaN = true := by
  cases curve with
  | expo maxRate e => exact absurd trivial h
  | betaflight rcRate superRate e =>
    simp only [check, check_bind_eq_ok, require_eq_ok] at hcheck
    obtain ⟨halong, hwithin⟩ := along_shaped hx (share_of_inUnit hcheck.2)
    have hproduct := (isNaN_mul_finite_iff (x := 200.0 * rcRate) hwithin.isFinite).mpr
      (Or.inr ⟨h, halong.value_eq_zero hx0⟩)
    exact isNaN_mul_left hproduct _
  | actual rate e centre =>
    simp only [check, check_bind_eq_ok, require_eq_ok] at hcheck
    obtain ⟨hbend, hfbend⟩ := along_bend hx (share_of_inUnit hcheck.2)
    have hproduct := (isNaN_mul_finite_iff (x := rate - centre) hfbend).mpr
      (Or.inr ⟨h, hbend.value_eq_zero hx0⟩)
    exact isNaN_add_right _ hproduct

end

end StickCurve

/-! ## Setpoints -/

namespace StickRates

theorem curve_check {r : StickRates} (h : r.check = .ok ()) (axis : Axis) :
    ∃ name, (r.curve axis).check name = .ok () := by
  simp only [check, check_bind_eq_ok] at h
  cases axis
  exacts [⟨_, h.1⟩, ⟨_, h.2.1⟩, ⟨_, h.2.2.1⟩]

/-- The deflection that the curve of an axis is applied to. -/
def deflection (r : StickRates) (stick : Scalar) : Scalar :=
  Scalar.deadband r.deadband (Scalar.confine (-1.0) 1.0 stick)

section

variable {r : StickRates} {stick : Scalar}

theorem eases_deflection (h : r.check = .ok ()) (hlow : -1.0 ≤ stick) (hhigh : stick ≤ 1.0) :
    Eases stick (r.deflection stick) ∧
      (stick.abs ≤ r.deadband → value (r.deflection stick) = 0) := by
  simp only [check, check_bind_eq_ok, require_eq_ok, within_iff] at h
  rw [deflection, confine_eq, limit_eq_self hlow hhigh]
  exact eases_deadband h.2.2.2.2.1 h.2.2.2.2.2 (Share.one.within.of_mem hlow hhigh)

/-- The multipliers make neither a number of what is none nor the other way round. -/
theorem along_setpoint (h : r.check = .ok ()) (axis : Axis) (highRates : Bool)
    (hn : ((r.curve axis).apply (r.deflection stick)).isNaN = false) :
    Along ((r.curve axis).apply (r.deflection stick)) (r.setpoint axis highRates stick) := by
  have hmultiplier : isPositive (if highRates then 1.0 else r.lowRatesMultiplier) = true := by
    simp only [check, check_bind_eq_ok, require_eq_ok, Bool.and_eq_true, decide_eq_true_iff] at h
    obtain ⟨-, -, -, ⟨hpos, hle⟩, -⟩ := h
    cases highRates with
    | true =>
      rw [if_pos rfl]
      decide
    | false => exact isPositive_iff.mpr ⟨isFinite_of_mem rfl rfl (Scalar.le_of_lt hpos) hle, hpos⟩
  have hdegree : isPositive degree = true := by decide
  exact ((Along.refl hn).mul_pos hmultiplier).mul_pos hdegree

/-- The setpoints of an axis with an accepted curve are numbers, and zero within the deadband, if and
only if the curve is bounded. If it also rises at the centre, no stick is answered by a rate in the
opposite direction. -/
theorem setpoint_of_check (r : StickRates) (hcheck : r.check = .ok ()) (axis : Axis) :
    ((∀ highRates stick, -1.0 ≤ stick → stick ≤ 1.0 →
        (r.setpoint axis highRates stick).isNaN = false ∧
          (stick.abs ≤ r.deadband → 0.0 ≤ r.setpoint axis highRates stick ∧
            r.setpoint axis highRates stick ≤ 0.0)) ↔ (r.curve axis).Bounded) ∧
      ((r.curve axis).Bounded → (r.curve axis).Rising → ∀ highRates stick,
        -1.0 ≤ stick → stick ≤ 1.0 → (0.0 ≤ stick → 0.0 ≤ r.setpoint axis highRates stick) ∧
          (stick ≤ 0.0 → r.setpoint axis highRates stick ≤ 0.0)) := by
  obtain ⟨name, hcurve⟩ := curve_check hcheck axis
  refine ⟨⟨fun hall => ?_, fun hbounded highRates stick hlow hhigh => ?_⟩,
    fun hbounded hrising highRates stick hlow hhigh => ?_⟩
  · -- At the centre, a curve that is not bounded would be no number.
    by_contra hunbounded
    have hlow : (-1.0 : Scalar) ≤ 0.0 := by decide
    have hhigh : (0.0 : Scalar) ≤ 1.0 := by decide
    obtain ⟨heases, -⟩ := eases_deflection hcheck hlow hhigh
    have hnone := StickCurve.isNaN_apply_of_not_bounded hcurve hunbounded heases.toWithin
      (heases.value_eq_zero value_zero)
    have hsetpoint := isNaN_mul_left (isNaN_mul_left hnone 1.0) degree
    exact Bool.false_ne_true ((hall true 0.0 hlow hhigh).1.symm.trans hsetpoint)
  · obtain ⟨heases, hdead⟩ := eases_deflection hcheck hlow hhigh
    obtain ⟨hn, hzero⟩ := StickCurve.centred_apply hcurve hbounded heases.toWithin
    have halong := along_setpoint hcheck axis highRates hn
    refine ⟨halong.isNaN, fun hinside => ?_⟩
    have hvalue := halong.value_eq_zero (hzero (hdead hinside))
    rw [le_iff_value isNaN_zero halong.isNaN, le_iff_value halong.isNaN isNaN_zero, hvalue,
      value_zero]
    exact ⟨le_rfl, le_rfl⟩
  · obtain ⟨heases, -⟩ := eases_deflection hcheck hlow hhigh
    have happly := StickCurve.along_apply hcurve hbounded hrising heases.toWithin
    have halong := (heases.toAlong.trans happly).trans
      (along_setpoint hcheck axis highRates happly.isNaN)
    refine ⟨fun hstick => ?_, fun hstick => ?_⟩
    · rw [nonneg_iff halong.isNaN]
      exact halong.nonneg (Scalar.value_nonneg hstick)
    · rw [le_iff_value halong.isNaN isNaN_zero, value_zero]
      exact halong.nonpos (value_zero ▸ (le_iff.mp hstick).2.2)

/-- Given slopes on roll, a steep curve on pitch and the initial one on yaw. -/
def mixed : StickRates where
  roll := .actual 720.0 0.5 100.0
  pitch := .betaflight 1.2 0.7 0.3

/-- All three families, for all deflections. -/
theorem setpoint_of_mixed : mixed.check = .ok () ∧ ∀ axis highRates stick,
    -1.0 ≤ stick → stick ≤ 1.0 → (mixed.setpoint axis highRates stick).isNaN = false ∧
      (0.0 ≤ stick → 0.0 ≤ mixed.setpoint axis highRates stick) ∧
      (stick ≤ 0.0 → mixed.setpoint axis highRates stick ≤ 0.0) := by
  have hcheck : mixed.check = .ok () := rfl
  refine ⟨hcheck, fun axis highRates stick hlow hhigh => ?_⟩
  obtain ⟨hiff, hdirection⟩ := setpoint_of_check mixed hcheck axis
  have hbounded : (mixed.curve axis).Bounded := by
    cases axis
    exacts [show Float32.isFinite (720.0 - 100.0) = true by decide,
      show Float32.isFinite (200.0 * 1.2) = true by decide, trivial]
  have hrising : (mixed.curve axis).Rising := by
    cases axis
    exacts [show (0.0 : Scalar) ≤ 100.0 by decide, trivial, trivial]
  exact ⟨(hiff.mpr hbounded highRates stick hlow hhigh).1,
    hdirection hbounded hrising highRates stick hlow hhigh⟩

/-- A slope at the centre that is negative, or no number, is accepted. A small stick to one side is
answered by a rate to the other, and a centred one by no number. -/
theorem setpoint_reversed :
    StickRates.check { roll := .actual 720.0 0.0 (-100.0) } = .ok () ∧
    StickRates.setpoint { roll := .actual 720.0 0.0 (-100.0) } .roll true 0.1 < 0.0 ∧
    StickRates.check { roll := .actual 720.0 0.0 nan } = .ok () ∧
    (StickRates.setpoint { roll := .actual 720.0 0.0 nan } .roll true 0.0).isNaN = true := by
  refine ⟨rfl, ?_, rfl, ?_⟩
  · decide +kernel
  · decide +kernel

end

end StickRates

end Quadrotor

import Mathlib
import Quadrotor.Control.Mixer
import Quadrotor.Proofs.Checks
import Quadrotor.Proofs.Scalar.Arithmetic

/-!
# Bounds of the mixer

Limiting a value to a range keeps a NaN, so the duties are in range only because no NaN ever arises.
Sums may overflow to an infinity on the way, but every term that is added to a duty later on is
finite: what the motors are lowered or raised by is limited, and so is the carry, also the one kept
from the tick before.
-/

namespace Quadrotor

/-! ## One value for each motor -/

/-- Every motor's value has a property. -/
def PerMotor.Each {α : Type} (p : α → Prop) (m : PerMotor α) : Prop := ∀ a ∈ m.toList, p a

namespace PerMotor

variable {α β : Type} {p : α → Prop} {q : β → Prop}

theorem each_iff {m : PerMotor α} :
    m.Each p ↔ p m.backLeft ∧ p m.frontLeft ∧ p m.backRight ∧ p m.frontRight := by
  simp [Each, toList]

theorem Each.map {m : PerMotor α} (h : m.Each p) {f : α → β} (hf : ∀ a, p a → q (f a)) :
    (m.map f).Each q := by
  rw [each_iff] at h ⊢
  exact ⟨hf _ h.1, hf _ h.2.1, hf _ h.2.2.1, hf _ h.2.2.2⟩

theorem Each.zip {m : PerMotor α} {n : PerMotor β} (hm : m.Each p) (hn : n.Each q) :
    (zipWith Prod.mk m n).Each fun ab => p ab.1 ∧ q ab.2 := by
  rw [each_iff] at hm hn ⊢
  exact ⟨⟨hm.1, hn.1⟩, ⟨hm.2.1, hn.2.1⟩, ⟨hm.2.2.1, hn.2.2.1⟩, ⟨hm.2.2.2, hn.2.2.2⟩⟩

theorem each_fill {a : α} (h : p a) : (fill a).Each p :=
  each_iff.mpr ⟨h, h, h, h⟩

end PerMotor

namespace Mixer

open Scalar PerMotor

/-- A function that answers for every motor answers for all of them. -/
theorem eachMotor_ok {α β : Type} {f : α → Checked β} {m : PerMotor α} {q : β → Prop}
    (h : m.Each fun a => ∃ b, f a = .ok b ∧ q b) : ∃ n, eachMotor f m = .ok n ∧ n.Each q := by
  obtain ⟨⟨a, ha, hqa⟩, ⟨b, hb, hqb⟩, ⟨c, hc, hqc⟩, ⟨d, hd, hqd⟩⟩ := each_iff.mp h
  refine ⟨⟨a, b, c, d⟩, ?_, each_iff.mpr ⟨hqa, hqb, hqc, hqd⟩⟩
  rw [eachMotor, ha, hb, hc, hd]
  rfl

/-! ## What the check promises -/

/-- The stage is off, or its limit lies in the unit interval. -/
def LimitInUnit (limit : Option Scalar) : Prop := ∀ l, limit = some l → 0.0 ≤ l ∧ l ≤ 1.0

/-- The most duty that can be carried into the next tick. -/
def carryBound (c : MixerConfig) : Scalar := c.carryMax.getD 0.0

theorem check_eq_ok {c : MixerConfig} : c.check = .ok () ↔
    (0.0 ≤ c.motorMin ∧ c.motorMin < 1.0) ∧
      LimitInUnit c.lowerMax ∧ LimitInUnit c.raiseMax ∧ LimitInUnit c.carryMax := by
  simp only [MixerConfig.check, check_bind_eq_ok, require_eq_ok, within_iff, List.all_cons,
    List.all_nil, Bool.and_true, Bool.and_eq_true]
  refine and_congr_right fun _ => and_congr ?_ (and_congr ?_ ?_) <;>
    split <;> simp_all [LimitInUnit]

/-- The config is accepted, the signs are signs, and the carry is within its limit. -/
structure Bounded (m : Mixer) : Prop where
  accepted : m.config.check = .ok ()
  signs : m.table.Each fun row => ∀ axis, (row.get axis).isFinite = true ∧ |value (row.get axis)| ≤ 1
  carry : m.carry.Each fun c => 0.0 ≤ c ∧ c ≤ carryBound m.config

theorem isFinite_of_unit {x : Scalar} (h : 0.0 ≤ x ∧ x ≤ 1.0) : x.isFinite = true :=
  isFinite_of_mem rfl rfl h.1 h.2

theorem carryBound_mem {c : MixerConfig} (h : LimitInUnit c.carryMax) :
    0.0 ≤ carryBound c ∧ carryBound c ≤ 1.0 := by
  unfold carryBound
  cases hc : c.carryMax with
  | none => exact ⟨by decide, by decide⟩
  | some l => exact h l hc

theorem signOf_bounds (x : Scalar) : (signOf x).isFinite = true ∧ |value (signOf x)| ≤ 1 := by
  have hone : value 1.0 = 1 := value_one
  unfold signOf
  split_ifs
  · exact ⟨rfl, by rw [hone, abs_one]⟩
  · refine ⟨rfl, ?_⟩
    rw [value_neg, hone, abs_neg, abs_one]
  · refine ⟨rfl, ?_⟩
    rw [value_zero, abs_zero]
    exact zero_le_one

theorem bounded_new {config : MixerConfig} (h : config.check = .ok ()) (airframe : Airframe) :
    (new config airframe).Bounded where
  accepted := h
  signs := by
    have hall : airframe.Each fun _ => True := fun _ _ => trivial
    refine hall.map fun motor _ axis => ?_
    rw [Triple.get_map]
    exact signOf_bounds _
  carry := each_fill ⟨by decide, (carryBound_mem (check_eq_ok.mp h).2.2.2).1⟩

/-! ## The stages -/

/-- A command with the sign of a motor is finite. -/
theorem isFinite_signed {s c : Scalar} (hs : s.isFinite = true ∧ |s.value| ≤ 1)
    (hc : c.isFinite = true) : (s * c).isFinite = true := by
  refine (faithful_mul hs.1 hc).isFinite hc ?_
  rw [abs_mul]
  exact mul_le_of_le_one_left (abs_nonneg _) hs.2

theorem isNaN_demand {throttle : Scalar} {commands signs : Triple Scalar}
    (ht : throttle.isFinite = true) (hc : ∀ axis, (commands.get axis).isFinite = true)
    (hs : ∀ axis, (signs.get axis).isFinite = true ∧ |value (signs.get axis)| ≤ 1) :
    (demand throttle commands signs).isNaN = false := by
  have hx := isFinite_signed (hs .roll) (hc .roll)
  have hy := isFinite_signed (hs .pitch) (hc .pitch)
  have hz := isFinite_signed (hs .yaw) (hc .yaw)
  exact isNaN_add (isNaN_add (isNaN_add (isNaN_of_isFinite ht) hx) hy) hz

/-- The smaller of a nonnegative amount, infinite or not, and a limit of the unit interval. -/
theorem minNum_mem {x l : Scalar} (hx : 0.0 ≤ x) (hl : 0.0 ≤ l ∧ l ≤ 1.0) :
    (minNum x l).isFinite = true := by
  obtain ⟨_, hxn, hxv⟩ := le_iff.mp hx
  obtain ⟨_, hln, hlv⟩ := le_iff.mp hl.1
  have hn : (minNum x l).isNaN = false := isNaN_minNum (Or.inl hxn)
  have hv := value_minNum hxn hln
  have hlow : 0.0 ≤ minNum x l := by
    rw [le_iff_value rfl hn, hv]
    exact le_min hxv hlv
  have hhigh : minNum x l ≤ l := by
    rw [le_iff_value hn hln, hv]
    exact min_le_right _ _
  exact isFinite_of_mem rfl (isFinite_of_unit hl) hlow hhigh

theorem each_lower {limit : Option Scalar} {d : PerMotor Scalar} (hlimit : LimitInUnit limit)
    (hd : d.Each fun x => x.isNaN = false) (m : Scalar) :
    (lower limit m d).Each fun x => x.isNaN = false := by
  unfold lower
  cases hl : limit with
  | none => exact hd
  | some l =>
    simp only
    split_ifs with hm
    · have hamount := minNum_mem (sub_nonneg rfl (le_of_lt hm)) (hlimit l hl)
      exact hd.map fun x hx => isNaN_sub hx hamount
    · exact hd

theorem each_raise {limit : Option Scalar} {d : PerMotor Scalar} (hlimit : LimitInUnit limit)
    (hd : d.Each fun x => x.isNaN = false) (latched : Bool) (m : Scalar) :
    (raise limit latched m d).Each fun x => x.isNaN = false := by
  unfold raise
  cases hl : limit with
  | none => exact hd
  | some l =>
    simp only
    split_ifs with hm
    · obtain ⟨hmn, _, hmv⟩ := lt_iff.mp hm.2
      have hneg : 0.0 ≤ -m := by
        refine (le_iff_value rfl (by rw [isNaN_neg]; exact hmn)).mpr ?_
        rw [value_neg, value_zero]
        rw [value_zero] at hmv
        linarith
      exact hd.map fun x hx => isNaN_add hx (minNum_mem hneg (hlimit l hl))
    · exact hd

theorem carryAll_ok {c : MixerConfig} {d carry : PerMotor Scalar} (hlimit : LimitInUnit c.carryMax)
    (hd : d.Each fun x => x.isNaN = false)
    (hcarry : carry.Each fun x => 0.0 ≤ x ∧ x ≤ carryBound c) :
    ∃ duties left, carryAll c.carryMax d carry = .ok (duties, left) ∧
      (duties.Each fun x => x.isNaN = false) ∧ left.Each fun x => 0.0 ≤ x ∧ x ≤ carryBound c := by
  unfold carryAll
  cases hl : c.carryMax with
  | none => exact ⟨d, carry, rfl, hd, hcarry⟩
  | some l =>
    have hbound : carryBound c = l := by rw [carryBound, hl]; rfl
    have hunit := hlimit l hl
    rw [hbound] at hcarry ⊢
    -- A duty may be infinite, but what was carried before is limited, so the sum is a number.
    have hone : ∀ p : Scalar × Scalar, p.1.isNaN = false ∧ (0.0 ≤ p.2 ∧ p.2 ≤ l) →
        ∃ r, carryOver l p.1 p.2 = .ok r ∧ r.1.isNaN = false ∧ 0.0 ≤ r.2 ∧ r.2 ≤ l := by
      rintro ⟨duty, rest⟩ ⟨hduty, hrest⟩
      have hsum : (duty + rest).isNaN = false :=
        isNaN_add hduty (isFinite_of_mem rfl (isFinite_of_unit hunit) hrest.1 hrest.2)
      refine ⟨(duty + rest, limit 0.0 l (duty + rest - 1.0)), ?_, hsum,
        limit_mem hunit.1 (isNaN_sub hsum rfl)⟩
      rw [carryOver, clamp_eq_ok hunit.1]
      rfl
    have hall : (zipWith Prod.mk d carry).Each fun p =>
        ∃ r, carryOver l p.1 p.2 = .ok r ∧ r.1.isNaN = false ∧ 0.0 ≤ r.2 ∧ r.2 ≤ l :=
      fun p hp => hone p (hd.zip hcarry p hp)
    obtain ⟨both, hok, heach⟩ := eachMotor_ok hall
    refine ⟨both.map Prod.fst, both.map Prod.snd, ?_, heach.map fun r hr => hr.1,
      heach.map fun r hr => hr.2⟩
    simp only [hok]
    rfl

/-- The duties of one tick: off without power, and otherwise in the range of the motors. -/
def InRange (c : MixerConfig) (state : ArmingState) (motors : PerMotor Scalar) : Prop :=
  if state = .disarmed then motors = .fill 0.0
  else motors.Each fun d => d.isNaN = false ∧ c.motorMin ≤ d ∧ d ≤ 1.0

/-- The commands are finite once they are cleaned, with yaw inverted or not. -/
theorem isFinite_cleaned (inverted : Bool) (commands : Triple Scalar) (axis : Axis) :
    Float32.isFinite ((if inverted then
      { commands.map orZero with z := -(commands.map orZero).z } else commands.map orZero).get axis)
      = true := by
  split_ifs
  · cases axis
    · exact orZero_isFinite _
    · exact orZero_isFinite _
    · exact (isFinite_neg _).trans (orZero_isFinite _)
  · rw [Triple.get_map]
    exact orZero_isFinite _

/-- One tick of a bounded mixer with its motors enabled. -/
theorem mix_ok_of_enabled {m : Mixer} (hm : m.Bounded) (commands : Triple Scalar) (throttle : Scalar)
    {state : ArmingState} (hs : state.motorsEnabled = true) :
    ∃ n motors, m.mix commands throttle state = .ok (n, motors) ∧ n.Bounded ∧
      n.config = m.config ∧
      motors.Each fun d => d.isNaN = false ∧ m.config.motorMin ≤ d ∧ d ≤ 1.0 := by
  obtain ⟨hmin, hlower, hraise, hcarry⟩ := check_eq_ok.mp hm.accepted
  obtain ⟨cmds, hcmds⟩ : ∃ cmds, cmds = (if m.yawInverted then
      { commands.map orZero with z := -(commands.map orZero).z } else commands.map orZero) :=
    ⟨_, rfl⟩
  have hfinite : ∀ axis, (cmds.get axis).isFinite = true := by
    rw [hcmds]
    exact isFinite_cleaned m.yawInverted commands
  obtain ⟨demands, hdemands⟩ : ∃ d, d = m.table.map (demand (orZero throttle) cmds) := ⟨_, rfl⟩
  have hdem : demands.Each fun x => x.isNaN = false := by
    rw [hdemands]
    exact hm.signs.map fun row hrow => isNaN_demand (orZero_isFinite throttle) hfinite hrow
  have hraised := each_raise hraise (each_lower hlower hdem (greatest demands))
    (m.raiseLatched || decide (m.config.raiseThrottle < orZero throttle)) (least demands)
  obtain ⟨duties, left, hok, hduties, hleft⟩ := carryAll_ok hcarry hraised hm.carry
  -- Limiting keeps a NaN, so it takes numbers to get duties in range.
  have hclamp : duties.Each fun d => ∃ b, Scalar.clamp m.config.motorMin 1.0 d = .ok b ∧
      (b.isNaN = false ∧ m.config.motorMin ≤ b ∧ b ≤ 1.0) := by
    intro d hd
    have hmem := limit_mem (le_of_lt hmin.2) (hduties d hd)
    exact ⟨_, clamp_eq_ok (le_of_lt hmin.2) d, (le_iff.mp hmem.1).2.1, hmem⟩
  obtain ⟨motors, hmotors, hrange⟩ := eachMotor_ok hclamp
  refine ⟨{ m with
    raiseLatched := m.raiseLatched || decide (m.config.raiseThrottle < orZero throttle)
    carry := left }, motors, ?_, ⟨hm.accepted, hm.signs, hleft⟩, rfl, hrange⟩
  simp only [mix, hs, if_true, ← hcmds, ← hdemands, hok]
  exact bind_eq_ok.mpr ⟨(duties, left), rfl, bind_eq_ok.mpr ⟨motors, hmotors, rfl⟩⟩

/-- One tick of a bounded mixer succeeds, leaves it bounded, and gives duties in range. -/
theorem mix_ok {m : Mixer} (hm : m.Bounded) (commands : Triple Scalar) (throttle : Scalar)
    (state : ArmingState) :
    ∃ n motors, m.mix commands throttle state = .ok (n, motors) ∧ n.Bounded ∧
      n.config = m.config ∧ InRange m.config state motors := by
  cases hs : state.motorsEnabled with
  | false =>
    have hoff : state = .disarmed := by cases state <;> first | rfl | cases hs
    have hcarry := (carryBound_mem (check_eq_ok.mp hm.accepted).2.2.2).1
    refine ⟨{ m with raiseLatched := false, carry := .fill 0.0 }, .fill 0.0, ?_,
      ⟨hm.accepted, hm.signs, each_fill ⟨by decide, hcarry⟩⟩, rfl, ?_⟩
    · rw [mix, hs]
      rfl
    · rw [InRange, if_pos hoff]
  | true =>
    have hon : state ≠ .disarmed := by rintro rfl; cases hs
    obtain ⟨n, motors, hok, hn, hconfig, hrange⟩ := mix_ok_of_enabled hm commands throttle hs
    refine ⟨n, motors, hok, hn, hconfig, ?_⟩
    rw [InRange, if_neg hon]
    exact hrange

/-! ## Runs -/

/-- What the mixer is asked for in a tick. -/
structure Call where
  yawInverted : Bool
  commands : Triple Scalar
  throttle : Scalar
  state : ArmingState

/-- What came of a call. -/
structure Result where
  call : Call
  /-- The mixer after the call. -/
  mixer : Mixer
  motors : PerMotor Scalar

/-- The results of a sequence of calls. -/
def run (m : Mixer) : List Call → Checked (List Result)
  | [] => .ok []
  | call :: calls => do
    let (n, motors) ← { m with yawInverted := call.yawInverted }.mix call.commands call.throttle
      call.state
    let results ← run n calls
    return ⟨call, n, motors⟩ :: results

/-- Every call of a run from a bounded mixer keeps to the bounds. -/
theorem run_ok {m : Mixer} (hm : m.Bounded) (calls : List Call) :
    ∃ results, run m calls = .ok results ∧ ∀ r ∈ results,
      InRange m.config r.call.state r.motors ∧
        r.mixer.carry.Each fun c => 0.0 ≤ c ∧ c ≤ carryBound m.config := by
  induction calls generalizing m with
  | nil => exact ⟨[], rfl, fun r hr => absurd hr List.not_mem_nil⟩
  | cons call calls ih =>
    have hm' : ({ m with yawInverted := call.yawInverted } : Mixer).Bounded :=
      ⟨hm.accepted, hm.signs, hm.carry⟩
    obtain ⟨n, motors, hok, hn, hconfig, hrange⟩ :=
      mix_ok hm' call.commands call.throttle call.state
    obtain ⟨results, hresults, hall⟩ := ih hn
    rw [hconfig] at hall
    refine ⟨⟨call, n, motors⟩ :: results, ?_, ?_⟩
    · exact bind_eq_ok.mpr ⟨(n, motors), hok, bind_eq_ok.mpr ⟨results, hresults, rfl⟩⟩
    · intro r hr
      rcases List.mem_cons.mp hr with rfl | hr
      · refine ⟨hrange, ?_⟩
        have hcarry := hn.carry
        rw [hconfig] at hcarry
        exact hcarry
      · exact hall r hr

end Mixer

end Quadrotor

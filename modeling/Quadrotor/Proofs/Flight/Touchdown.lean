import Mathlib
import Quadrotor.Proofs.Flight.Landing

/-!
# The end of a landing

A landing that no pilot ends goes on until its throttle is gone. Each tick takes a decrement from
the throttle, and the difference is rounded: a decrement of less than half a unit in the last place
of the throttle is lost. At full throttle that is a decrement of `2 ^ -25`. A configuration with a
larger one lands within a number of ticks that is known beforehand, and with any other one that can
be armed there is a landing that never ends.
-/

namespace Quadrotor

open Scalar

namespace ArmingConfig

/-- What a tick of a landing takes from the throttle, before the difference is rounded. -/
def decrement (c : ArmingConfig) (period decay : Scalar) : Scalar :=
  (c.landingRate + maxNum decay 0.0) * period

theorem landingThrottle_eq (c : ArmingConfig) (period throttle decay : Scalar) :
    c.landingThrottle period throttle decay =
      maxNum (throttle - c.decrement period decay) 0.0 := rfl

/-- The number of ticks after which full throttle is gone, if each of them takes the decrement less
half a unit in the last place. -/
def longestLanding (c : ArmingConfig) (period : Scalar) : Nat :=
  ⌈1 / (value (c.decrement period 0.0) - 2 ^ (-25 : ℤ))⌉₊

variable {c : ArmingConfig} {period : Scalar}

theorem decrement_nonneg (hrate : 0.0 < c.landingRate) (hperiod : 0.0 < period)
    (hfinite : period.isFinite = true) (decay : Scalar) : 0.0 ≤ c.decrement period decay :=
  nonneg_mul (nonneg_add (le_of_lt hrate) (nonneg_maxNum decay)) hperiod hfinite

/-- Additional decay adds to the decrement, if it does anything. -/
theorem decrement_le (hrate : 0.0 < c.landingRate) (hfrate : c.landingRate.isFinite = true)
    (hperiod : 0.0 < period) (hfinite : period.isFinite = true) (decay : Scalar) :
    c.decrement period 0.0 ≤ c.decrement period decay := by
  have hnone : maxNum 0.0 0.0 = (0.0 : Scalar) := rfl
  have hzero : (0.0 : Scalar) ≤ 0.0 := by decide
  unfold decrement
  rw [hnone]
  exact mul_le_mul_of_le (nonneg_add (le_of_lt hrate) hzero)
    (add_le_add_of_le (le_of_lt hrate) hfrate hzero (nonneg_maxNum decay)) hperiod hfinite

/-- Nothing is left of a throttle that does not exceed the decrement. -/
theorem landingThrottle_of_le {throttle decay : Scalar} (hf : throttle.isFinite = true)
    (hd : 0.0 ≤ c.decrement period decay)
    (h : throttle.value ≤ value (c.decrement period decay)) :
    value (c.landingThrottle period throttle decay) = 0 := by
  rw [landingThrottle_eq]
  by_cases hfd : (c.decrement period decay).isFinite = true
  · have hrounds := rounds_sub hf hfd
    have hle := (le_iff.mp (hrounds.faithful.le_of_le_value (g := 0.0) rfl (by
      rw [value_zero]
      linarith))).2.2
    rw [value_maxNum hrounds.isNaN, max_eq_right (by simpa using hle)]
  · have hform := form_sub_infinity hf (form_of_nonneg hd hfd)
    have hn : (throttle - c.decrement period decay).isNaN = false :=
      isNaN_eq_false.mpr (by rw [hform]; simp)
    rw [value_maxNum hn, value, hform, formValue_infinity_neg, max_eq_right (by norm_num)]

/-- A throttle that is left has lost the decrement, up to the rounding error. -/
theorem landingThrottle_le_sub {throttle decay : Scalar} (hf : throttle.isFinite = true)
    (h1 : throttle.value ≤ 1) (hd : 0.0 ≤ c.decrement period decay)
    (hleft : value (c.landingThrottle period throttle decay) ≠ 0) :
    value (c.landingThrottle period throttle decay) ≤
      throttle.value - value (c.decrement period decay) + 2 ^ (-25 : ℤ) := by
  have hlt : value (c.decrement period decay) < throttle.value := by
    by_contra hle
    exact hleft (landingThrottle_of_le hf hd (not_lt.mp hle))
  have hd0 := value_nonneg hd
  have hfd := isFinite_of_value_lt hd (by linarith [show (1 : ℚ) < 2 ^ 128 by norm_num])
  have hrounds := rounds_sub hf hfd
  have herror := hrounds.error_le (e := 0) (by decide) (by decide) (by
    rw [zpow_zero, abs_le]
    constructor <;> linarith)
  rw [zero_sub] at herror
  rw [landingThrottle_eq, value_maxNum hrounds.isNaN] at hleft ⊢
  rcases max_choice (throttle - c.decrement period decay).value 0 with heq | heq
  · rw [heq]
    linarith [(abs_le.mp herror).1]
  · exact absurd heq hleft

/-- From full throttle, a decrement of half a unit is lost. -/
theorem landingThrottle_of_small {throttle decay : Scalar} (hf : throttle.isFinite = true)
    (hv : throttle.value = 1) (hd : 0.0 ≤ c.decrement period decay)
    (hsmall : value (c.decrement period decay) ≤ 2 ^ (-25 : ℤ)) :
    value (c.landingThrottle period throttle decay) = 1 := by
  have hd0 := value_nonneg hd
  have hfd := isFinite_of_value_lt hd (hsmall.trans_lt (by norm_num))
  have hrounds := rounds_sub hf hfd
  rw [hv] at hrounds
  have hlow := hrounds.pow_le (e := 0) (by decide) (by decide) (by
    rw [zpow_zero, zero_sub]
    linarith)
  obtain ⟨-, hhigh⟩ := hrounds.abs_le_of_le_pow (e := 0) (by decide) (by decide) (by
    rw [zpow_zero, abs_of_nonneg (by linarith [show (2 : ℚ) ^ (-25 : ℤ) < 1 by norm_num])]
    linarith)
  rw [zpow_zero] at hlow hhigh
  rw [landingThrottle_eq, value_maxNum hrounds.isNaN,
    le_antisymm ((le_abs_self _).trans hhigh) hlow]
  exact max_eq_left zero_le_one

/-- The descent can be seen at full throttle if the decrement exceeds half a unit there. -/
theorem visible_iff (hd : 0.0 ≤ c.decrement period 0.0) :
    c.landingThrottle period 1.0 0.0 < 1.0 ↔ 2 ^ (-25 : ℤ) < value (c.decrement period 0.0) := by
  have hfull : Float32.isFinite 1.0 = true := rfl
  have hn : (c.landingThrottle period 1.0 0.0).isNaN = false := (le_iff.mp (nonneg_maxNum _)).2.1
  rw [lt_iff_value hn rfl, value_one]
  constructor
  · intro h
    by_contra hle
    rw [landingThrottle_of_small hfull value_one hd (not_lt.mp hle)] at h
    exact absurd h (lt_irrefl 1)
  · intro h
    by_cases hleft : value (c.landingThrottle period 1.0 0.0) = 0
    · rw [hleft]
      exact one_pos
    · have hle := landingThrottle_le_sub hfull (by rw [value_one]) hd hleft
      rw [value_one] at hle
      linarith

end ArmingConfig

namespace Arming

/-! ## No more than full throttle -/

/-- With idle-up, a limited stick gives no more than full throttle. -/
theorem idle_le_one {idle stick : Scalar} (hidle : 0.0 ≤ idle ∧ idle < 1.0)
    (hstick : 0.0 ≤ stick ∧ stick ≤ 1.0) :
    value ((Line.through 0.0 1.0 idle 1.0).value stick) ≤ 1 := by
  have hfi : idle.isFinite = true := isFinite_of_mem rfl rfl hidle.1 (le_of_lt hidle.2)
  have hfs : stick.isFinite = true := isFinite_of_mem rfl rfl hstick.1 hstick.2
  obtain ⟨hfslope, hslope, hfoffset, hoffset⟩ := through_idle hidle
  have hidle0 : 0 ≤ idle.value := value_nonneg hidle.1
  have hidle1 : idle.value ≤ 1 := value_one ▸ (lt_iff.mp hidle.2).2.2.le
  have hstick0 : 0 ≤ stick.value := value_nonneg hstick.1
  have hstick1 : stick.value ≤ 1 := value_one ▸ (le_iff.mp hstick.2).2.2
  -- The slope is the rest of the range, rounded once.
  have hrise := rounds_sub (x := 1.0) rfl hfi
  rw [value_one] at hrise
  have hrise0 : 0 ≤ value (1.0 - idle) := by
    exact value_nonneg (sub_nonneg hfi (le_of_lt hidle.2))
  have herror := hrise.error_le (e := 0) (by decide) (by decide) (by
    rw [zpow_zero, abs_le]
    constructor <;> linarith)
  rw [zero_sub] at herror
  have hproduct := rounds_mul hfs hfslope
  rw [hslope] at hproduct
  have hproduct0 := hproduct.faithful.le_of_value_le (g := 0.0) rfl (by
    rw [value_zero]
    positivity)
  have hproduct1 := hproduct.faithful.le_of_le_value (g := 1.0 - idle) hrise.isNaN
    (mul_le_of_le_one_left hrise0 hstick1)
  have hfrise := hrise.faithful.isFinite (g := 1.0) rfl (by
    rw [value_one, abs_one, abs_le]
    constructor <;> linarith)
  have hfproduct := isFinite_of_mem rfl hfrise hproduct0 hproduct1
  have hsum := rounds_add hfproduct hfoffset
  have h0 := (le_iff.mp hproduct0).2.2
  have h1 := (le_iff.mp hproduct1).2.2
  rw [value_zero] at h0
  rw [hoffset] at hsum
  refine (le_abs_self _).trans ((hsum.abs_le_pow (e := 0) (by decide) (by decide) ?_).2.trans_eq
    (zpow_zero 2))
  rw [abs_of_nonneg (by linarith)]
  have hhalf : (2 : ℚ) ^ (-25 : ℤ) ≤ 2 ^ ((0 : ℤ) - 24) := by norm_num
  linarith [(abs_le.mp herror).1]

theorem le_one_after_throttle {a : Arming}
    (hidle : 0.0 ≤ a.config.idleThrottle ∧ a.config.idleThrottle < 1.0)
    (hrate : 0.0 ≤ a.config.landingRate) (hperiod : 0.0 < a.period)
    (hfinite : a.period.isFinite = true) (h0 : 0.0 ≤ a.throttle) (h1 : a.throttle.value ≤ 1)
    (input : ArmingInput) : (a.after input).throttle.value ≤ 1 := by
  rcases after_throttle_cases a input with heq | heq | heq | heq | heq <;> rw [heq]
  · rw [value_zero]
    exact zero_le_one
  · exact value_one ▸ (le_iff.mp (stick_mem input.throttle).2).2.2
  · exact idle_le_one hidle (stick_mem input.throttle)
  · exact (le_iff.mp (landingThrottle_le hrate hperiod hfinite h0 _)).2.2.trans h1
  · exact h1

/-! ## Landings that end -/

/-- A machine that is afloat, with no more than full throttle. -/
structure Aloft (config : ArmingConfig) (period : Scalar) (a : Arming) : Prop
    extends Afloat config period a where
  full : a.throttle.value ≤ 1

section

variable {config : ArmingConfig} {period : Scalar}

theorem aloft_new (config : ArmingConfig) (period : Scalar) :
    Aloft config period (new config period) := by
  have hzero : (0.0 : Scalar) ≤ 0.0 := by decide
  exact ⟨⟨rfl, rfl, rfl, hzero⟩, by simp [new]⟩

theorem Aloft.stickCheck {a : Arming} (h : Aloft config period a) (active : Bool) :
    Aloft config period { a with stickCheck := active } := ⟨h.toAfloat.stickCheck active, h.full⟩

variable (hconfig : config.check = .ok ()) (hfinite : period.isFinite = true)
  (hperiod : 0.0 < period)

include hconfig hfinite hperiod

theorem Aloft.tick {a : Arming} (h : Aloft config period a) (input : ArmingInput) :
    Aloft config period (a.after input) := by
  obtain ⟨-, hrate, hidle⟩ := ArmingConfig.bounds_of_check hconfig
  refine ⟨h.toAfloat.tick hidle input, ?_⟩
  obtain ⟨⟨rfl, rfl, -, h0⟩, h1⟩ := h
  exact le_one_after_throttle hidle hrate hperiod hfinite h0 h1 input

/-- A landing that goes on has throttle left, and less than before by the decrement, up to the
rounding error. -/
theorem Aloft.sinks {a : Arming} (h : Aloft config period a) (hs : a.state = .failsafeLanding)
    {input : ArmingInput} (hl : (a.report input).output.state = .failsafeLanding) :
    0 < (a.report input).output.throttle.value ∧ (a.report input).output.throttle.value ≤
      a.throttle.value - (value (config.decrement period 0.0) - 2 ^ (-25 : ℤ)) := by
  obtain ⟨⟨htimeout, -⟩, -, ⟨hfrate, hrate⟩, -⟩ := ArmingConfig.check_eq_ok.mp hconfig
  have hdescends := h.descends htimeout (le_of_lt hrate) hperiod hfinite hs input
  have hthrottle : (a.report input).output.throttle =
      config.landingThrottle period a.throttle input.landingDecay := hdescends.throttle_eq hl
  have hleft : value (config.landingThrottle period a.throttle input.landingDecay) ≠ 0 := by
    intro hzero
    have hdisarmed : (a.report input).output.state = .disarmed := by
      by_cases hpilot : (a.report input).PilotDisarms
      · exact (hdescends.user.mpr hpilot).1
      · exact (hdescends.complete.mpr ⟨hpilot, hzero⟩).1
    rw [hl] at hdisarmed
    cases hdisarmed
  have hnonneg := landingThrottle_nonneg config period a.throttle input.landingDecay
  have hd := ArmingConfig.decrement_nonneg hrate hperiod hfinite input.landingDecay
  have hgrows := (le_iff.mp
    (ArmingConfig.decrement_le hrate hfrate hperiod hfinite input.landingDecay)).2.2
  have hfull : a.throttle ≤ 1.0 :=
    (le_iff_value (le_iff.mp h.throttle).2.1 rfl).mpr (value_one ▸ h.full)
  have hfthrottle := isFinite_of_mem rfl rfl h.throttle hfull
  have hsub := ArmingConfig.landingThrottle_le_sub hfthrottle h.full hd hleft
  have hpos := value_nonneg hnonneg
  rw [hthrottle]
  refine ⟨lt_of_le_of_ne hpos hleft.symm, hsub.trans ?_⟩
  rw [← sub_add]
  gcongr

/-- Over a stretch of a landing the throttle has lost the decrement as often as there were ticks. -/
theorem throttle_of_landing (calls : List Call) {t k : Nat} {r : Report}
    (hr : (reports (new config period) calls)[t + k]? = some r)
    (hland : ∀ (u : Nat) (q : Report), t ≤ u → u ≤ t + k →
      (reports (new config period) calls)[u]? = some q → q.output.state = .failsafeLanding) :
    r.output.throttle.value ≤ 1 - k * (value (config.decrement period 0.0) - 2 ^ (-25 : ℤ)) ∧
      (0 < k → 0 < r.output.throttle.value) := by
  have htick : ∀ a input, Aloft config period a → Aloft config period (a.after input) :=
    fun _ input h => h.tick hconfig hfinite hperiod input
  have hcheck : ∀ a active, Aloft config period a →
      Aloft config period { a with stickCheck := active } := fun _ active h => h.stickCheck active
  -- By induction on the ticks of the stretch; `Aloft` is what each of them leaves to the next.
  induction k generalizing r with
  | zero =>
    obtain ⟨b, hb, hrb, -⟩ :=
      exists_machine htick hcheck (aloft_new config period) calls hr
    have hfull := (htick b r.input hb).full
    rw [Nat.cast_zero, zero_mul, sub_zero, hrb]
    exact ⟨hfull, fun h => absurd h (lt_irrefl 0)⟩
  | succ k ih =>
    have hlt := (List.getElem?_eq_some_iff.mp hr).1
    obtain ⟨p, hp⟩ : ∃ p, (reports (new config period) calls)[t + k]? = some p :=
      ⟨_, List.getElem?_eq_getElem (Nat.lt_of_succ_lt hlt)⟩
    obtain ⟨hle, -⟩ := ih hp fun u q htu huk => hland u q htu (Nat.le_succ_of_le huk)
    obtain ⟨b, hb, hrb, hs, hthrottle⟩ :=
      exists_machine_next htick hcheck (aloft_new config period) calls hp hr
    have hpl := hland (t + k) p (Nat.le_add_right t k) (Nat.le_succ _) hp
    have hrl := hland (t + (k + 1)) r (Nat.le_add_right t _) le_rfl hr
    rw [hrb] at hrl
    obtain ⟨hpos, hsinks⟩ := hb.sinks hconfig hfinite hperiod (hs.trans hpl) hrl
    rw [hthrottle, ← hrb] at hsinks
    rw [← hrb] at hpos
    refine ⟨?_, fun _ => hpos⟩
    push_cast
    linarith

/-- A stretch of ticks that is as long as `longestLanding` is no landing throughout. -/
theorem exists_not_landing (hvisible : config.landingThrottle period 1.0 0.0 < 1.0)
    (calls : List Call) {t : Nat} {r : Report}
    (hr : (reports (new config period) calls)[t + config.longestLanding period]? = some r) :
    ∃ u q, t ≤ u ∧ u ≤ t + config.longestLanding period ∧
      (reports (new config period) calls)[u]? = some q ∧ q.output.state ≠ .failsafeLanding := by
  obtain ⟨-, -, ⟨-, hrate⟩, -⟩ := ArmingConfig.check_eq_ok.mp hconfig
  have hd := (ArmingConfig.visible_iff
    (ArmingConfig.decrement_nonneg hrate hperiod hfinite 0.0)).mp hvisible
  have hloss : 0 < value (config.decrement period 0.0) - 2 ^ (-25 : ℤ) := by linarith
  have hlong : 1 ≤ (config.longestLanding period : ℚ) *
      (value (config.decrement period 0.0) - 2 ^ (-25 : ℤ)) :=
    (div_le_iff₀ hloss).mp (Nat.le_ceil _)
  -- Otherwise the last throttle of the stretch is positive, and all of it is used up.
  by_contra hnone
  have hland : ∀ (u : Nat) (q : Report), t ≤ u → u ≤ t + config.longestLanding period →
      (reports (new config period) calls)[u]? = some q → q.output.state = .failsafeLanding := by
    intro u q htu hut hq
    by_contra hne
    exact hnone ⟨u, q, htu, hut, hq, hne⟩
  obtain ⟨hle, hpos⟩ := throttle_of_landing hconfig hfinite hperiod calls hr hland
  have hleft := hpos (Nat.ceil_pos.mpr (by positivity))
  linarith

end

/-! ## Landings that never end -/

/-- A landing goes on under the same input as long as the throttle keeps a property that rules out
zero. -/
theorem reports_of_hold {config : ArmingConfig} {period : Scalar} (hconfig : config.check = .ok ())
    (hfinite : period.isFinite = true) (hperiod : 0.0 < period) (input : ArmingInput)
    {P : Scalar → Prop} (hkeeps : ∀ throttle, P throttle →
      value (config.landingThrottle period throttle input.landingDecay) ≠ 0 ∧
        P (config.landingThrottle period throttle input.landingDecay))
    (hpilot : ¬(input.linkFresh = true ∧ input.armSwitch = false)) {a : Arming}
    (h : Afloat config period a) (hs : a.state = .failsafeLanding) (ht : P a.throttle) (n : Nat) :
    (reports a (List.replicate n (.tick input))).length = n ∧
      ∀ r ∈ reports a (List.replicate n (.tick input)),
        r.output.state = .failsafeLanding ∧ P r.output.throttle := by
  obtain ⟨htimeout, hrate, hidle⟩ := ArmingConfig.bounds_of_check hconfig
  induction n generalizing a with
  | zero => exact ⟨rfl, fun r hr => absurd hr List.not_mem_nil⟩
  | succ n ih =>
    have hdescends := h.descends htimeout hrate hperiod hfinite hs input
    obtain ⟨hleft, hkept⟩ := hkeeps a.throttle ht
    have hland : (a.report input).output.state = .failsafeLanding := by
      rcases hdescends.ends with hl | huser | hdone
      · exact hl
      · exact absurd (hdescends.user.mp huser) hpilot
      · exact absurd (hdescends.complete.mp hdone).2 hleft
    have hthrottle : (a.report input).output.throttle =
        config.landingThrottle period a.throttle input.landingDecay := hdescends.throttle_eq hland
    have hnow : P (a.report input).output.throttle := by
      rw [hthrottle]
      exact hkept
    obtain ⟨hlength, hrest⟩ := ih (h.tick hidle input) hland hnow
    rw [List.replicate_succ, reports]
    refine ⟨by rw [List.length_cons, hlength], fun r hr => ?_⟩
    rcases List.mem_cons.mp hr with rfl | hr
    · exact ⟨hland, hnow⟩
    · exact hrest r hr

/-- The same with the tick that enters the landing. -/
theorem reports_of_enter {config : ArmingConfig} {period : Scalar} (hconfig : config.check = .ok ())
    (hfinite : period.isFinite = true) (hperiod : 0.0 < period) (input : ArmingInput)
    {P : Scalar → Prop} (hkeeps : ∀ throttle, P throttle →
      value (config.landingThrottle period throttle input.landingDecay) ≠ 0 ∧
        P (config.landingThrottle period throttle input.landingDecay))
    (hpilot : ¬(input.linkFresh = true ∧ input.armSwitch = false)) {a : Arming}
    (h : Afloat config period a) (hs : (a.after input).state = .failsafeLanding)
    (ht : P (a.after input).throttle) (n : Nat) :
    (reports a (List.replicate n (.tick input))).length = n ∧
      ∀ r ∈ reports a (List.replicate n (.tick input)),
        r.output.state = .failsafeLanding ∧ P r.output.throttle := by
  obtain ⟨-, -, hidle⟩ := ArmingConfig.bounds_of_check hconfig
  cases n with
  | zero => exact ⟨rfl, fun r hr => absurd hr List.not_mem_nil⟩
  | succ n =>
    obtain ⟨hlength, hrest⟩ := reports_of_hold hconfig hfinite hperiod input hkeeps hpilot
      (h.tick hidle input) hs ht n
    rw [List.replicate_succ, reports]
    refine ⟨by rw [List.length_cons, hlength], fun r hr => ?_⟩
    rcases List.mem_cons.mp hr with rfl | hr
    · exact ⟨hs, ht⟩
    · exact hrest r hr

/-- Nothing but the throttle stick and the arm switch decide on what a tick does next. -/
structure Ready (config : ArmingConfig) (a : Arming) : Prop where
  config_eq : a.config = config
  link_eq : a.link.timeout = config.linkTimeout
  sensor_eq : a.sensor.timeout = config.sensorTimeout
  linkUp : a.linkWasLost = false
  unlatched : a.switchLatched = false
  unchecked : a.stickCheck = false

/-- The first tick of a machine finds its link. -/
theorem ready_first {config : ArmingConfig} (hlink : config.linkTimeout ≠ 0) (period : Scalar) :
    Ready config ((new config period).after {}) ∧
      ((new config period).after {}).state = .disarmed := by
  have hstart : (new config period).state = .disarmed := rfl
  have hswitch : ((new config period).observe {}).effectiveSwitch {} = false := rfl
  have hup : ((new config period).link.update true).lost = false := fresh_not_lost hlink
  refine ⟨⟨by rw [after_config]; rfl, by rw [after_link]; rfl, by rw [after_sensor]; rfl, ?_, ?_,
    by rw [after_stickCheck]; rfl⟩, ?_⟩
  · rw [after_linkWasLost, after_link]
    exact hup
  · rw [(after_of_disarmed hstart {}).1, observe_switchLatched, after_link]
    simp [new]
  · rw [(after_of_disarmed hstart {}).2, hswitch]
    rfl

section

variable {config : ArmingConfig} (hlink : config.linkTimeout ≠ 0)
  (hsensor : config.sensorTimeout ≠ 0)

include hlink hsensor

theorem Ready.observe {a : Arming} (h : Ready config a) (input : ArmingInput)
    (hframe : input.linkFresh = true) (hsample : input.sensorFresh = true) :
    (a.observe input).link.lost = false ∧ (a.observe input).sensor.lost = false ∧
      (a.observe input).switchLatched = false := by
  have hup : (a.observe input).link.lost = false := by
    change (a.link.update input.linkFresh).lost = false
    rw [hframe]
    exact fresh_not_lost (by rw [h.link_eq]; exact hlink)
  refine ⟨hup, ?_, ?_⟩
  · change (a.sensor.update input.sensorFresh).lost = false
    rw [hsample]
    exact fresh_not_lost (by rw [h.sensor_eq]; exact hsensor)
  · rw [observe_switchLatched, h.unlatched, h.linkUp]
    rfl

theorem Ready.tick {a : Arming} (h : Ready config a) (hs : a.state ≠ .failsafeLanding)
    (input : ArmingInput) (hframe : input.linkFresh = true) (hsample : input.sensorFresh = true) :
    Ready config (a.after input) := by
  obtain ⟨hup, -, hlatch⟩ := h.observe hlink hsensor input hframe hsample
  refine ⟨by rw [after_config, h.config_eq], by rw [after_link]; exact h.link_eq,
    by rw [after_sensor]; exact h.sensor_eq, ?_, ?_, by rw [after_stickCheck, h.unchecked]⟩
  · rw [after_linkWasLost, after_link]
    exact hup
  · cases hc : a.state with
    | disarmed => rw [(after_of_disarmed hc input).1, hlatch]
    | armed => rw [(after_of_armed hc input).1, hlatch]
    | failsafeLanding => exact absurd hc hs

/-- The arm switch arms it, with the throttle stick down. -/
theorem Ready.arms {a : Arming} (h : Ready config a) (hs : a.state = .disarmed)
    (hsafe : 0.0 < config.safeThrottle) : (a.after { armSwitch := true }).state = .armed := by
  obtain ⟨hup, hsensed, hlatch⟩ :=
    h.observe hlink hsensor { armSwitch := true } rfl rfl
  have hlost : (a.after { armSwitch := true }).link.lost = false := by
    rw [after_link]
    exact hup
  rw [(after_of_disarmed hs _).2, observe_effectiveSwitch, hlost, if_pos]
  rw [Bool.and_eq_true, blockers_isEmpty_iff]
  refine ⟨rfl, hsensed, ?_, hup, rfl, h.unchecked, hlatch⟩
  change (0.0 : Scalar) < a.config.safeThrottle
  rw [h.config_eq]
  exact hsafe

/-- In flight the throttle is that of the stick. -/
theorem Ready.flies {a : Arming} (h : Ready config a) (hs : a.state = .armed) (stick : Scalar) :
    (a.after { armSwitch := true, throttle := stick }).state = .armed ∧
      (a.after { armSwitch := true, throttle := stick }).throttle = limitOrZero 0.0 1.0 stick := by
  obtain ⟨hup, hsensed, -⟩ :=
    h.observe hlink hsensor { armSwitch := true, throttle := stick } rfl rfl
  have hlost : (a.after { armSwitch := true, throttle := stick }).link.lost = false := by
    rw [after_link]
    exact hup
  have hreason := (failsafeReason_iff (a.observe { armSwitch := true, throttle := stick })
    { armSwitch := true, throttle := stick }).2.2.2.mpr ⟨hup, hsensed, rfl⟩
  have hstate : (a.after { armSwitch := true, throttle := stick }).state = .armed := by
    rw [(after_of_armed hs _).2, observe_effectiveSwitch, hlost, hreason]
    rfl
  refine ⟨hstate, ?_⟩
  rw [after_throttle, usedThrottle, moved_state, hstate]
  rfl

/-- A low battery starts a landing, from the throttle that was in use. -/
theorem Ready.lands {a : Arming} (h : Ready config a) (hs : a.state = .armed) {input : ArmingInput}
    (hframe : input.linkFresh = true) (hsample : input.sensorFresh = true)
    (hlow : (input.lvc && input.lvcEnabled) = true) :
    (a.after input).state = .failsafeLanding ∧ (a.after input).throttle = a.throttle := by
  obtain ⟨hup, hsensed, -⟩ := h.observe hlink hsensor input hframe hsample
  have hreason := (failsafeReason_iff (a.observe input) input).2.2.1.mpr ⟨hup, hsensed, hlow⟩
  have hstate : (a.after input).state = .failsafeLanding := by
    rw [(after_of_armed hs _).2, hreason]
    rfl
  exact ⟨hstate, throttle_of_entering (by rw [hs]; decide) hstate⟩

end

/-- The pilot arms, and raises the throttle stick. -/
def takeoff (stick : Scalar) : List Call :=
  [.tick {}, .tick { armSwitch := true }, .tick { armSwitch := true, throttle := stick }]

/-- What an accepted configuration flies with, if it can be armed at all. -/
theorem exists_takeoff {config : ArmingConfig} (hconfig : config.check = .ok ())
    (hsafe : 0.0 < config.safeThrottle) (period stick : Scalar) :
    ∃ a, Ready config a ∧ Afloat config period a ∧ a.state = .armed ∧
      a.throttle = limitOrZero 0.0 1.0 stick ∧ ∀ calls,
        (reports (new config period) (takeoff stick ++ calls)).drop 3 = reports a calls := by
  obtain ⟨⟨hlink, hsensor⟩, -, -, hidle⟩ := ArmingConfig.check_eq_ok.mp hconfig
  have hzero : (0.0 : Scalar) ≤ 0.0 := by decide
  have hnew : Afloat config period (new config period) := ⟨rfl, rfl, rfl, hzero⟩
  obtain ⟨hready, hdisarmed⟩ := ready_first hlink period
  have harmed := hready.arms hlink hsensor hdisarmed hsafe
  have hready' := hready.tick hlink hsensor (by rw [hdisarmed]; decide)
    { armSwitch := true } rfl rfl
  have hflies := hready'.flies hlink hsensor harmed stick
  exact ⟨_, hready'.tick hlink hsensor (by rw [harmed]; decide)
      { armSwitch := true, throttle := stick } rfl rfl,
    ((hnew.tick hidle _).tick hidle _).tick hidle _, hflies.1, hflies.2, fun calls => rfl⟩

/-- Without a safe throttle the machine is never armed: the stick is never below zero. -/
theorem reports_of_unsafe {config : ArmingConfig} (hsafe : ¬0.0 < config.safeThrottle)
    (period : Scalar) (calls : List Call) :
    ∀ r ∈ reports (new config period) calls, r.output.state = .disarmed := by
  have hdown : ∀ (a : Arming) (input : ArmingInput), a.config = config ∧ a.state = .disarmed →
      (a.after input).config = config ∧ (a.after input).state = .disarmed := by
    rintro a input ⟨rfl, hs⟩
    refine ⟨after_config a input, ?_⟩
    rw [(after_of_disarmed hs input).2, if_neg]
    rw [Bool.and_eq_true, blockers_isEmpty_iff]
    rintro ⟨-, -, hlow, -⟩
    obtain ⟨_, hn, hv⟩ := lt_iff.mp hlow
    exact hsafe (lt_iff.mpr ⟨rfl, hn, (le_iff.mp (stick_mem input.throttle).1).2.2.trans_lt hv⟩)
  intro r hr
  obtain ⟨t, ht⟩ := List.mem_iff_getElem?.mp hr
  obtain ⟨b, hb, hrb, -⟩ :=
    exists_machine hdown (fun _ _ h => h) (a := new config period) ⟨rfl, rfl⟩ calls ht
  rw [hrb]
  exact (hdown b r.input hb).2

section

variable {config : ArmingConfig} {period : Scalar} (hconfig : config.check = .ok ())
  (hfinite : period.isFinite = true) (hperiod : 0.0 < period)
  (hhidden : ¬config.landingThrottle period 1.0 0.0 < 1.0)

include hconfig hfinite hperiod hhidden

/-- A landing at full throttle stays there if its descent cannot be seen. -/
theorem full_of_hidden {throttle : Scalar} (hf : throttle.isFinite = true)
    (hv : throttle.value = 1) :
    value (config.landingThrottle period throttle 0.0) ≠ 0 ∧
      (config.landingThrottle period throttle 0.0).isFinite = true ∧
      value (config.landingThrottle period throttle 0.0) = 1 := by
  obtain ⟨-, -, ⟨-, hrate⟩, -⟩ := ArmingConfig.check_eq_ok.mp hconfig
  have hd := ArmingConfig.decrement_nonneg hrate hperiod hfinite 0.0
  have hsmall := not_lt.mp (mt (ArmingConfig.visible_iff hd).mpr hhidden)
  have hone := ArmingConfig.landingThrottle_of_small hf hv hd hsmall
  have hn := (le_iff.mp (landingThrottle_nonneg config period throttle 0.0)).2.1
  refine ⟨by rw [hone]; exact one_ne_zero, isFinite_iff.mpr ⟨hn, ?_⟩, hone⟩
  rw [hone]
  norm_num

/-- A low battery after a takeoff with full throttle starts such a landing. -/
theorem reports_of_hidden (hsafe : 0.0 < config.safeThrottle) {input : ArmingInput}
    (hframe : input.linkFresh = true) (hsample : input.sensorFresh = true)
    (hswitch : input.armSwitch = true) (hlow : (input.lvc && input.lvcEnabled) = true)
    (hdecay : input.landingDecay = 0.0) (n : Nat) :
    ∃ run, (reports (new config period)
        (takeoff 1.0 ++ List.replicate n (.tick input))).drop 3 = run ∧
      run.length = n ∧
        ∀ r ∈ run, r.output.state = .failsafeLanding ∧ value r.output.throttle = 1 := by
  obtain ⟨⟨hlink, hsensor⟩, -⟩ := ArmingConfig.check_eq_ok.mp hconfig
  obtain ⟨a, hready, hafloat, harmed, hthrottle, hreports⟩ :=
    exists_takeoff hconfig hsafe period 1.0
  obtain ⟨hland, hkept⟩ := hready.lands hlink hsensor harmed hframe hsample hlow
  have hone : limitOrZero 0.0 1.0 1.0 = (1.0 : Scalar) := rfl
  have hfull : (a.after input).throttle.isFinite = true ∧ (a.after input).throttle.value = 1 := by
    rw [hkept, hthrottle, hone]
    exact ⟨rfl, value_one⟩
  have hpilot : ¬(input.linkFresh = true ∧ input.armSwitch = false) := by simp [hswitch]
  obtain ⟨hlength, hrun⟩ := reports_of_enter hconfig hfinite hperiod input
    (P := fun throttle => throttle.isFinite = true ∧ throttle.value = 1)
    (fun throttle h => hdecay ▸ full_of_hidden hconfig hfinite hperiod hhidden h.1 h.2)
    hpilot hafloat hland hfull n
  exact ⟨_, hreports _, hlength, fun r hr => ⟨(hrun r hr).1, (hrun r hr).2.2⟩⟩

end

/-- When the landings of a configuration end. -/
structure Touchdown (config : ArmingConfig) (period : Scalar) : Prop where
  /-- A descent from full throttle can be seen if the decrement exceeds half a unit there. -/
  visible : config.landingThrottle period 1.0 0.0 < 1.0 ↔
    2 ^ (-25 : ℤ) < value (config.decrement period 0.0)
  /-- If so, no landing of any run exceeds a number of ticks that is known beforehand. -/
  ends : config.landingThrottle period 1.0 0.0 < 1.0 → ∀ (calls : List Call) (t : Nat) (r : Report),
    (reports (new config period) calls)[t + config.longestLanding period]? = some r →
      ∃ u q, t ≤ u ∧ u ≤ t + config.longestLanding period ∧
        (reports (new config period) calls)[u]? = some q ∧ q.output.state ≠ .failsafeLanding
  /-- If not, a landing from full throttle goes on for as long as the battery is low, unless the
  pilot ends it. -/
  hovers : ¬config.landingThrottle period 1.0 0.0 < 1.0 → 0.0 < config.safeThrottle → ∀ n : Nat,
    ∃ run, (reports (new config period) (takeoff 1.0 ++
        List.replicate n (.tick { armSwitch := true, lvc := true }))).drop 3 = run ∧
      run.length = n ∧ ∀ r ∈ run, r.output.state = .failsafeLanding ∧ value r.output.throttle = 1
  /-- A machine without a safe throttle is never armed, so it never lands either. -/
  grounded : ¬0.0 < config.safeThrottle → ∀ (calls : List Call),
    ∀ r ∈ reports (new config period) calls, r.output.state = .disarmed

/-- The landings of an accepted configuration end, whatever happens, if their descent can be seen at
full throttle; if it cannot, there are landings that do not. -/
theorem touchdown_of_check (config : ArmingConfig) (hconfig : config.check = .ok ())
    (flight : FlightConfig) (hmin : FlightConfig.minLoopPeriod ≤ flight.loopPeriod)
    (hmax : flight.loopPeriod ≤ FlightConfig.maxLoopPeriod) : Touchdown config flight.period := by
  obtain ⟨hfinite, hperiod⟩ := FlightConfig.period_bounds hmin hmax
  obtain ⟨-, -, ⟨-, hrate⟩, -⟩ := ArmingConfig.check_eq_ok.mp hconfig
  exact {
    visible := ArmingConfig.visible_iff
      (ArmingConfig.decrement_nonneg hrate hperiod hfinite 0.0)
    ends := fun hvisible calls _ _ hr =>
      exists_not_landing hconfig hfinite hperiod hvisible calls hr
    hovers := fun hhidden hsafe n =>
      reports_of_hidden hconfig hfinite hperiod hhidden hsafe rfl rfl rfl rfl rfl n
    grounded := fun hsafe calls => reports_of_unsafe hsafe flight.period calls }

/-- The default configuration lands within 4001 ticks. -/
theorem touchdown_of_default : ArmingConfig.check {} = .ok () ∧
    FlightConfig.minLoopPeriod ≤ FlightConfig.loopPeriod {} ∧
    FlightConfig.loopPeriod {} ≤ FlightConfig.maxLoopPeriod ∧
    ∀ (calls : List Call) (t : Nat) (r : Report),
      (reports (new {} (FlightConfig.period {})) calls)[t + 4001]? = some r →
        ∃ u q, t ≤ u ∧ u ≤ t + 4001 ∧
          (reports (new {} (FlightConfig.period {})) calls)[u]? = some q ∧
          q.output.state ≠ .failsafeLanding := by
  have hconfig : ArmingConfig.check {} = .ok () := rfl
  have hmin : FlightConfig.minLoopPeriod ≤ FlightConfig.loopPeriod {} := by decide
  have hmax : FlightConfig.loopPeriod {} ≤ FlightConfig.maxLoopPeriod := by decide
  have htouchdown := touchdown_of_check {} hconfig {} hmin hmax
  have hvisible : ArmingConfig.landingThrottle {} (FlightConfig.period {}) 1.0 0.0 < 1.0 := by
    decide +kernel
  have hlong : ArmingConfig.longestLanding {} (FlightConfig.period {}) = 4001 := by
    decide +kernel
  refine ⟨hconfig, hmin, hmax, fun calls t r hr => ?_⟩
  rw [← hlong] at hr ⊢
  exact htouchdown.ends hvisible calls t r hr

/-- A landing rate that is positive, but so small that its product with the tick period is zero. -/
def vanishing : ArmingConfig := { linkTimeout := 1, landingRate := 5.6e-43 }

/-- The configuration is accepted, and its landing of the smallest throttle there is never ends once
the link is lost. -/
theorem vanishing_never_lands : vanishing.check = .ok () ∧
    FlightConfig.minLoopPeriod ≤ FlightConfig.loopPeriod {} ∧
    FlightConfig.loopPeriod {} ≤ FlightConfig.maxLoopPeriod ∧
    ∀ n : Nat, ∃ run, (reports (new vanishing (FlightConfig.period {})) (takeoff 1e-45 ++
        List.replicate n (.tick { armSwitch := true, linkFresh := false }))).drop 3 = run ∧
      run.length = n ∧ ∀ r ∈ run, r.output.state = .failsafeLanding := by
  have hconfig : vanishing.check = .ok () := rfl
  have hmin : FlightConfig.minLoopPeriod ≤ FlightConfig.loopPeriod {} := by decide
  have hmax : FlightConfig.loopPeriod {} ≤ FlightConfig.maxLoopPeriod := by decide
  obtain ⟨hfinite, hperiod⟩ := FlightConfig.period_bounds hmin hmax
  refine ⟨hconfig, hmin, hmax, fun n => ?_⟩
  obtain ⟨-, -, -, hidle⟩ := ArmingConfig.check_eq_ok.mp hconfig
  have hzero : (0.0 : Scalar) ≤ 0.0 := by decide
  have hnew : Afloat vanishing (FlightConfig.period {}) (new vanishing (FlightConfig.period {})) :=
    ⟨rfl, rfl, rfl, hzero⟩
  have hafloat := ((hnew.tick hidle {}).tick hidle { armSwitch := true }).tick hidle
    { armSwitch := true, throttle := 1e-45 }
  have hkeeps : ∀ throttle : Scalar, throttle = 1e-45 →
      value (vanishing.landingThrottle (FlightConfig.period {}) throttle 0.0) ≠ 0 ∧
        vanishing.landingThrottle (FlightConfig.period {}) throttle 0.0 = 1e-45 := by
    rintro _ rfl
    decide +kernel
  obtain ⟨hlength, hrun⟩ := reports_of_enter hconfig hfinite hperiod
    { armSwitch := true, linkFresh := false } hkeeps (by decide) hafloat
    (by decide +kernel) (by decide +kernel) n
  exact ⟨_, rfl, hlength, fun r hr => (hrun r hr).1⟩

end Arming

end Quadrotor

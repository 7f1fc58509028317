import Mathlib
import Quadrotor.Proofs.Filter.Gains

/-!
# Filtered samples are finite

The filters feed their outputs back, so a value that is not finite stays in them. Where the means
that they compute keep a property of scalars, every output has it if every input does, for all
sample periods. Low-pass filters keep finite values finite. A Kalman filter does so in every range
in which the difference of two values is finite; beyond it a difference overflows, and the axis is
lost.
-/

namespace Quadrotor

open Scalar
open Float.Model.UnpackedFloat

/-! ## Stages -/

/-- A low-pass filter that is tuned, and whose output has the property `P`. -/
structure Lowpass.Keeps (P : Scalar → Prop) (f : Lowpass Scalar) : Prop where
  tau : 0.0 ≤ f.tau
  gain : Share f.gain
  output : P f.y

/-- A stage that is tuned, and whose output has the property `P`. -/
def Stage.Keeps (P : Scalar → Prop) : Stage → Prop
  | .kalman cutoff f => Approaches P ∧ isPositive cutoff = true ∧ f.Steady ∧ P f.mean
  | .lowpass f => f.Keeps P

section

variable {P : Scalar → Prop} {cutoff dt : Scalar}

theorem Lowpass.keeps_ofCutoff (hzero : P 0.0) (hcutoff : isPositive cutoff = true)
    (hdt : isPositive dt = true) : (Lowpass.ofCutoff cutoff dt).Keeps P :=
  ⟨nonneg_tauFor hcutoff dt, share_ofCutoff hcutoff hdt, hzero⟩

theorem Lowpass.Keeps.retune {f : Lowpass Scalar} (h : f.Keeps P) (hdt : isPositive dt = true) :
    (f.retune dt).Keeps P := ⟨h.tau, share_gainFor h.tau hdt, h.output⟩

theorem Lowpass.Keeps.update {f : Lowpass Scalar} (hP : Blends P) (h : f.Keeps P) {x : Scalar}
    (hx : P x) : (f.update x).Keeps P := ⟨h.tau, h.gain, hP f.gain x f.y h.gain hx h.output⟩

namespace Stage

theorem keeps_build {config : StageConfig} (hzero : P 0.0)
    (hkalman : config.kind = .kalman → Approaches P) (hcutoff : isPositive config.cutoff = true)
    (hdt : isPositive dt = true) : (Stage.build config dt).Keeps P := by
  unfold Stage.build
  cases hkind : config.kind with
  | kalman =>
    exact ⟨hkalman hkind, hcutoff, Kalman.steady_ofGain (Lowpass.share_ofCutoff hcutoff hdt), hzero⟩
  | lowpass => exact Lowpass.keeps_ofCutoff hzero hcutoff hdt

theorem Keeps.retune {s : Stage} (h : s.Keeps P) (hdt : isPositive dt = true) :
    (s.retune dt).Keeps P := by
  cases s with
  | kalman cutoff f =>
    obtain ⟨hP, hcutoff, hsteady, hmean⟩ := h
    exact ⟨hP, hcutoff, hsteady.retune (Lowpass.share_ofCutoff hcutoff hdt), hmean⟩
  | lowpass f => exact Lowpass.Keeps.retune h hdt

theorem Keeps.update {s : Stage} (hP : Blends P) (h : s.Keeps P) {x : Scalar} (hx : P x) :
    (s.update x).Keeps P := by
  cases s with
  | kalman cutoff f =>
    obtain ⟨hP', hcutoff, hsteady, hmean⟩ := h
    exact ⟨hP', hcutoff, hsteady.update x, hsteady.mean_update hP' hmean hx⟩
  | lowpass f => exact Lowpass.Keeps.update hP h hx

theorem Keeps.output {s : Stage} (h : s.Keeps P) : P s.output := by
  cases s with
  | kalman cutoff f => exact h.2.2.2
  | lowpass f => exact Lowpass.Keeps.output h

/-- A chain of stages keeps what each of them keeps. -/
theorem keeps_updateAll (hP : Blends P) {stages : List Stage} (h : ∀ s ∈ stages, s.Keeps P)
    {x : Scalar} (hx : P x) :
    (∀ s ∈ (updateAll stages x).1, s.Keeps P) ∧ P (updateAll stages x).2 := by
  -- Each stage is fed with the output of the one before, which has the property by then.
  induction stages generalizing x with
  | nil => exact ⟨h, hx⟩
  | cons s stages ih =>
    obtain ⟨hs, hrest⟩ := List.forall_mem_cons.mp h
    have hnow := hs.update hP hx
    obtain ⟨hkeeps, hout⟩ := ih hrest hnow.output
    exact ⟨List.forall_mem_cons.mpr ⟨hnow, hkeeps⟩, hout⟩

end Stage

/-- A retuned axis keeps what its stages keep. -/
theorem GyroAxis.keeps_update {a : GyroAxis} (hP : Blends P) (h : ∀ s ∈ a.stages, s.Keeps P)
    (hdt : isPositive dt = true) {raw : Scalar} (hraw : P raw) :
    (∀ s ∈ (Conditioner.updateGyroAxis a dt raw).1.stages, s.Keeps P) ∧
      P (Conditioner.updateGyroAxis a dt raw).2 := by
  unfold Conditioner.updateGyroAxis
  refine Stage.keeps_updateAll hP ?_ hraw
  split_ifs
  · exact h
  · intro s hs
    obtain ⟨s', hs', rfl⟩ := List.mem_map.mp hs
    exact (h s' hs').retune hdt

end

/-! ## The conditioner -/

/-- The sensors whose samples are filtered. -/
inductive Instrument where
  | gyro
  | acc
  deriving DecidableEq, Repr, Inhabited

/-- The stages that a gyroscope axis is built from. -/
def FilterConfig.gyroStages (c : FilterConfig) : List StageConfig :=
  c.gyroPass1.toList ++ c.gyroPass2.toList

theorem FilterConfig.check_eq_ok {c : FilterConfig} : c.check = .ok () ↔
    (∀ s ∈ c.gyroStages, isPositive s.cutoff = true) ∧ isPositive c.accCutoff = true ∧
      isPositive c.derivative.cutoff = true := by
  unfold FilterConfig.check FilterConfig.cutoffs FilterConfig.gyroStages
  simp only [check_forM_eq_ok, require_eq_ok, List.forall_mem_append, List.forall_mem_map,
    List.forall_mem_cons, List.not_mem_nil, false_implies, implies_true, and_true]

/-- A sample that came some time after the one before. -/
structure Sample where
  instrument : Instrument
  dt : Scalar
  raw : Triple Scalar

namespace Conditioner

/-- The conditioner after one more sample, and the filtered sample. -/
def filter (c : Conditioner) (s : Sample) : Conditioner × Triple Scalar :=
  match s.instrument with
  | .gyro => c.filterGyro s.dt s.raw
  | .acc => c.filterAcc s.dt s.raw

/-- The filtered samples of a sequence, each with its instrument. -/
def outputs (c : Conditioner) : List Sample → List (Instrument × Triple Scalar)
  | [] => []
  | s :: samples => (s.instrument, (c.filter s).2) :: outputs (c.filter s).1 samples

/-- The filters of each instrument keep a property of their own. -/
structure Keeps (P : Instrument → Scalar → Prop) (c : Conditioner) : Prop where
  period : isPositive c.period = true
  gyro : ∀ axis, ∀ s ∈ (c.gyro.get axis).stages, s.Keeps (P .gyro)
  acc : ∀ axis, (c.acc.get axis).Keeps (P .acc)

/-- Whatever time a sample comes with, the filters are tuned for one that makes sense. -/
theorem isPositive_usablePeriod {c : Conditioner} (h : isPositive c.period = true) (dt : Scalar) :
    isPositive (c.usablePeriod dt) = true := by
  obtain ⟨hf, hpos⟩ := isPositive_iff.mp h
  have hgap : c.period ≤ c.period * maxGap := by
    refine (rounds_mul hf (y := maxGap) rfl).faithful.le_of_value_le (isNaN_of_isFinite hf) ?_
    have hone : (1.0 : Scalar) ≤ maxGap := by decide
    exact le_mul_of_one_le_right (lt_iff.mp hpos).2.2.le (value_one ▸ (le_iff.mp hone).2.2)
  have hpos' := Scalar.lt_of_lt_of_le hpos hgap
  unfold usablePeriod minNum
  split_ifs with hdt hn hlt
  · rw [isNaN_of_isFinite (isPositive_iff.mp hdt).1] at hn
    cases hn
  · have hfgap := isFinite_of_mem rfl (isPositive_iff.mp hdt).1 (Scalar.le_of_lt hpos')
      (Scalar.le_of_lt hlt)
    exact isPositive_iff.mpr ⟨hfgap, hpos'⟩
  · exact hdt
  · exact h

section

variable {P : Instrument → Scalar → Prop} {c : Conditioner} (hP : ∀ i, Blends (P i))

include hP

theorem Keeps.filterAxis (h : c.Keeps P) (axis : Axis) (dt : Scalar) {raw : Scalar}
    (hraw : P .gyro raw) :
    (c.filterAxis axis dt raw).1.Keeps P ∧ P .gyro (c.filterAxis axis dt raw).2 := by
  obtain ⟨hstages, hout⟩ :=
    GyroAxis.keeps_update (hP .gyro) (h.gyro axis) (isPositive_usablePeriod h.period dt) hraw
  refine ⟨⟨h.period, fun other => ?_, h.acc⟩, hout⟩
  change ∀ s ∈ ((c.gyro.set axis (updateGyroAxis (c.gyro.get axis) (c.usablePeriod dt) raw).1).get
    other).stages, s.Keeps (P .gyro)
  rw [Triple.get_set]
  by_cases hother : axis = other
  · rw [if_pos hother]
    exact hstages
  · rw [if_neg hother]
    exact h.gyro other

theorem Keeps.filterGyro (h : c.Keeps P) (dt : Scalar) {raw : Triple Scalar}
    (hraw : ∀ axis, P .gyro (raw.get axis)) :
    (c.filterGyro dt raw).1.Keeps P ∧ ∀ axis, P .gyro ((c.filterGyro dt raw).2.get axis) := by
  obtain ⟨h1, hx⟩ := h.filterAxis hP .roll dt (hraw .roll)
  obtain ⟨h2, hy⟩ := h1.filterAxis hP .pitch dt (hraw .pitch)
  obtain ⟨h3, hz⟩ := h2.filterAxis hP .yaw dt (hraw .yaw)
  refine ⟨h3, fun axis => ?_⟩
  cases axis with
  | roll => exact hx
  | pitch => exact hy
  | yaw => exact hz

theorem Keeps.filterAcc (h : c.Keeps P) (dt : Scalar) {raw : Triple Scalar}
    (hraw : ∀ axis, P .acc (raw.get axis)) :
    (c.filterAcc dt raw).1.Keeps P ∧ ∀ axis, P .acc ((c.filterAcc dt raw).2.get axis) := by
  have hacc : ∀ axis, ((c.filterAcc dt raw).1.acc.get axis).Keeps (P .acc) := by
    intro axis
    unfold Conditioner.filterAcc
    simp only [Triple.get_zipWith]
    refine Lowpass.Keeps.update (hP .acc) ?_ (hraw axis)
    split_ifs
    · exact h.acc axis
    · rw [Triple.get_map]
      exact (h.acc axis).retune (isPositive_usablePeriod h.period dt)
  refine ⟨⟨h.period, h.gyro, hacc⟩, fun axis => ?_⟩
  change P .acc (((c.filterAcc dt raw).1.acc.map (·.y)).get axis)
  rw [Triple.get_map]
  exact (hacc axis).output

theorem Keeps.filter (h : c.Keeps P) {s : Sample}
    (hraw : ∀ axis, P s.instrument (s.raw.get axis)) :
    (c.filter s).1.Keeps P ∧ ∀ axis, P s.instrument ((c.filter s).2.get axis) := by
  obtain ⟨instrument, dt, raw⟩ := s
  cases instrument with
  | gyro => exact h.filterGyro hP dt hraw
  | acc => exact h.filterAcc hP dt hraw

/-- What the filters keep, every filtered sample of a run has, if every raw one does. -/
theorem Keeps.outputs (h : c.Keeps P) {samples : List Sample}
    (hraw : ∀ s ∈ samples, ∀ axis, P s.instrument (s.raw.get axis)) :
    ∀ r ∈ c.outputs samples, ∀ axis, P r.1 (r.2.get axis) := by
  -- Each sample finds the filters as the one before has left them.
  induction samples generalizing c with
  | nil => exact fun r hr => absurd hr List.not_mem_nil
  | cons s samples ih =>
    obtain ⟨hs, hrest⟩ := List.forall_mem_cons.mp hraw
    obtain ⟨hnext, hout⟩ := h.filter hP hs
    exact List.forall_mem_cons.mpr ⟨hout, ih hnext hrest⟩

end

/-- Filters at rest keep what zero has. -/
theorem keeps_new {P : Instrument → Scalar → Prop} {config : FilterConfig} {period : Scalar}
    (hconfig : config.check = .ok ()) (hperiod : isPositive period = true)
    (hzero : ∀ i, P i 0.0)
    (hkalman : ∀ s ∈ config.gyroStages, s.kind = .kalman → Approaches (P .gyro)) :
    (new config period).Keeps P := by
  obtain ⟨hgyro, hacc, -⟩ := FilterConfig.check_eq_ok.mp hconfig
  refine ⟨hperiod, fun axis s hs => ?_, fun axis => ?_⟩
  · rw [Conditioner.new, Triple.get_fill] at hs
    obtain ⟨stage, hstage, rfl⟩ := List.mem_map.mp hs
    exact Stage.keeps_build (hzero .gyro) (hkalman stage hstage) (hgyro stage hstage) hperiod
  · rw [Conditioner.new, Triple.get_fill]
    exact Lowpass.keeps_ofCutoff (hzero .acc) hacc hperiod

/-- Which samples are filtered to finite ones. -/
structure FiniteOutputs (config : FilterConfig) (c : Conditioner) : Prop where
  /-- Filtered samples are finite and in the range of the raw ones, if that is a power of two whose
  double is finite. -/
  within : ∀ (samples : List Sample) (instrument : Instrument) (e : ℕ), e ≤ 126 →
    (∀ s ∈ samples, s.instrument = instrument → ∀ axis, Within e (s.raw.get axis)) →
    ∀ r ∈ c.outputs samples, r.1 = instrument → ∀ axis, Within e (r.2.get axis)
  /-- Without a Kalman filter, which the accelerometer never has, they are finite in any case. -/
  finite : ∀ (samples : List Sample) (instrument : Instrument),
    (instrument = .gyro → ∀ s ∈ config.gyroStages, s.kind = .lowpass) →
    (∀ s ∈ samples, s.instrument = instrument → ∀ axis, (s.raw.get axis).isFinite = true) →
    ∀ r ∈ c.outputs samples, r.1 = instrument → ∀ axis, (r.2.get axis).isFinite = true

/-- A property of one instrument's samples is kept, whatever the other's samples are. -/
theorem outputs_of_instrument {Q : Scalar → Prop} {config : FilterConfig} {period : Scalar}
    (hconfig : config.check = .ok ()) (hperiod : isPositive period = true) (hzero : Q 0.0)
    (hblends : Blends Q) {instrument : Instrument}
    (hkalman : instrument = .gyro → ∀ s ∈ config.gyroStages, s.kind = .kalman → Approaches Q)
    {samples : List Sample}
    (hraw : ∀ s ∈ samples, s.instrument = instrument → ∀ axis, Q (s.raw.get axis)) :
    ∀ r ∈ (new config period).outputs samples, r.1 = instrument → ∀ axis, Q (r.2.get axis) := by
  have hkeeps : (new config period).Keeps fun i x => i = instrument → Q x :=
    keeps_new hconfig hperiod (fun _ _ => hzero) fun s hs hkind g x z hg hx hz hi =>
      hkalman hi.symm s hs hkind g x z hg (hx hi) (hz hi)
  have hmeans : ∀ i, Blends fun x => i = instrument → Q x :=
    fun i g x y hg hx hy hi => hblends g x y hg (hx hi) (hy hi)
  intro r hr hi axis
  exact hkeeps.outputs hmeans (fun s hs axis hi => hraw s hs hi axis) r hr axis hi

/-- Filtered samples are finite where no difference of raw ones can overflow, for every accepted set
of filters and all sample times. -/
theorem outputs_of_finite (preset : FilterPreset) (hfilters : preset.resolve.check = .ok ())
    (flight : FlightConfig) (hmin : FlightConfig.minLoopPeriod ≤ flight.loopPeriod)
    (hmax : flight.loopPeriod ≤ FlightConfig.maxLoopPeriod) :
    FiniteOutputs preset.resolve (new preset.resolve flight.period) := by
  have hperiod := isPositive_iff.mpr (FlightConfig.period_bounds hmin hmax)
  constructor
  · intro samples instrument e he
    have hzero : Within e 0.0 := ⟨rfl, by rw [value_zero, abs_zero]; positivity⟩
    exact outputs_of_instrument hfilters hperiod hzero (blends_within (by omega))
      fun _ _ _ _ => approaches_within he
  · intro samples instrument hlowpass
    refine outputs_of_instrument (Q := fun x => x.isFinite = true) hfilters hperiod rfl
      blends_isFinite fun hi s hs hkind => ?_
    rw [hlowpass hi s hs] at hkind
    cases hkind

/-- A Kalman filter ahead of a low-pass filter. -/
def twoStages : FilterPreset :=
  .custom ⟨some ⟨.kalman, 90.0⟩, some ⟨.lowpass, 120.0⟩, 10.0, .firstOrder 70.0⟩

/-- The largest power of two whose double is finite, `2 ^ 126`. -/
def swing : Scalar := Float32.ofBits 0x7e800000

theorem within_swing : Within 126 swing := by
  have hform : form swing = .finite .positive (2 ^ 23) 103 (by decide) := rfl
  refine ⟨rfl, ?_⟩
  rw [value, hform, formValue_finite_pos]
  norm_num

/-- A sample of the gyroscope whose time is not known. -/
def gyroSample (raw : Triple Scalar) : Sample := ⟨.gyro, 0.0, raw⟩

/-- Swings from one end of the range to the other stay in it, however long each of them lasts. -/
theorem outputs_of_swings : twoStages.resolve.check = .ok () ∧
    FlightConfig.minLoopPeriod ≤ FlightConfig.loopPeriod {} ∧
    FlightConfig.loopPeriod {} ≤ FlightConfig.maxLoopPeriod ∧
    ∀ m n : Nat, ∀ r ∈ (new twoStages.resolve (FlightConfig.period {})).outputs
      (List.replicate m (gyroSample (.fill swing)) ++
        List.replicate n (gyroSample (.fill (-swing)))),
      r.1 = .gyro → ∀ axis, Within 126 (r.2.get axis) := by
  have hfilters : twoStages.resolve.check = .ok () := rfl
  have hmin : FlightConfig.minLoopPeriod ≤ FlightConfig.loopPeriod {} := by decide
  have hmax : FlightConfig.loopPeriod {} ≤ FlightConfig.maxLoopPeriod := by decide
  have houtputs := outputs_of_finite twoStages hfilters {} hmin hmax
  refine ⟨hfilters, hmin, hmax, fun m n => houtputs.within _ .gyro 126 le_rfl ?_⟩
  intro s hs _ axis
  rcases List.mem_append.mp hs with hs | hs
  · rw [List.eq_of_mem_replicate hs, gyroSample, Triple.get_fill]
    exact within_swing
  · rw [List.eq_of_mem_replicate hs, gyroSample, Triple.get_fill]
    exact ⟨rfl, by rw [value_neg, abs_neg]; exact within_swing.abs_le⟩

end Conditioner

/-! ## Samples whose difference overflows -/

/-- A Kalman filter at work has a finite estimate only if the one before was finite. -/
theorem Kalman.isFinite_of_update {f : Kalman Scalar} (hpass : f.passThrough = false) {z : Scalar}
    (h : (f.update z).mean.isFinite = true) : f.mean.isFinite = true := by
  unfold Kalman.update at h
  rw [if_neg (by rw [hpass]; decide)] at h
  exact isFinite_left_of_add h

namespace Conditioner

/-- The only stage of the roll axis is a Kalman filter at work, and its estimate is not finite. -/
def rollIsLost (c : Conditioner) : Bool :=
  c.period == c.gyro.x.tunedFor &&
    match c.gyro.x.stages with
    | [.kalman _ f] => !f.passThrough && !f.mean.isFinite
    | _ => false

theorem rollIsLost_iff {c : Conditioner} : c.rollIsLost = true ↔
    (c.period == c.gyro.x.tunedFor) = true ∧ ∃ cutoff f, c.gyro.x.stages = [.kalman cutoff f] ∧
      f.passThrough = false ∧ f.mean.isFinite = false := by
  rw [rollIsLost, Bool.and_eq_true]
  refine and_congr_right fun _ => ?_
  split
  next cutoff f heq => simp [heq]
  next hother =>
    refine iff_of_false (by decide) ?_
    rintro ⟨cutoff, f, heq, -⟩
    exact hother cutoff f heq

/-- A lost axis stays lost, whatever comes. -/
theorem rollIsLost_filterGyro {c : Conditioner} (h : c.rollIsLost = true) (dt : Scalar)
    (hdt : isPositive dt = false) (raw : Triple Scalar) :
    (c.filterGyro dt raw).1.rollIsLost = true ∧ (c.filterGyro dt raw).2.x.isFinite = false := by
  obtain ⟨htuned, cutoff, f, hstages, hpass, hmean⟩ := rollIsLost_iff.mp h
  have husable : c.usablePeriod dt = c.period := if_neg (by rw [hdt]; decide)
  have hlost : (f.update raw.x).mean.isFinite = false :=
    Bool.eq_false_of_not_eq_true fun hf => by
      rw [Kalman.isFinite_of_update hpass hf] at hmean
      cases hmean
  have haxis : updateGyroAxis c.gyro.x (c.usablePeriod dt) raw.x =
      (⟨[.kalman cutoff (f.update raw.x)], c.gyro.x.tunedFor⟩, (f.update raw.x).mean) := by
    rw [husable, updateGyroAxis, if_pos htuned, hstages]
    rfl
  have hroll : (c.filterGyro dt raw).1.gyro.x =
      ⟨[.kalman cutoff (f.update raw.x)], c.gyro.x.tunedFor⟩ := congrArg Prod.fst haxis
  have hout : (c.filterGyro dt raw).2.x = (f.update raw.x).mean := congrArg Prod.snd haxis
  have hpass' : (f.update raw.x).passThrough = false := by
    unfold Kalman.update
    split_ifs <;> exact hpass
  refine ⟨rollIsLost_iff.mpr ⟨?_, cutoff, _, ?_, hpass', hlost⟩, by rw [hout]; exact hlost⟩
  · rw [hroll]
    exact htuned
  · rw [hroll]

/-- Nothing finite comes from a lost axis again. -/
theorem outputs_of_lost {c : Conditioner} (h : c.rollIsLost = true) (raws : List (Triple Scalar)) :
    ∀ r ∈ c.outputs (raws.map gyroSample), r.2.x.isFinite = false := by
  induction raws generalizing c with
  | nil => exact fun r hr => absurd hr List.not_mem_nil
  | cons raw raws ih =>
    obtain ⟨hnext, hout⟩ := rollIsLost_filterGyro h 0.0 (by decide) raw
    exact List.forall_mem_cons.mpr ⟨hout, ih hnext⟩

/-- Two spikes, and then any samples whatever. -/
def spikes (raws : List (Triple Scalar)) : List Sample :=
  gyroSample ⟨3e38, 0.0, 0.0⟩ :: gyroSample ⟨-3e38, 0.0, 0.0⟩ :: raws.map gyroSample

/-- Two finite samples are enough: from the second on, the roll axis gives nothing finite. -/
theorem outputs_of_spikes : (FilterPreset.resolve .alienwhoopZero).check = .ok () ∧
    FlightConfig.minLoopPeriod ≤ FlightConfig.loopPeriod {} ∧
    FlightConfig.loopPeriod {} ≤ FlightConfig.maxLoopPeriod ∧
    (3e38 : Scalar).isFinite = true ∧ (-3e38 : Scalar).isFinite = true ∧
    ∀ raws, ∀ r ∈ ((new (FilterPreset.resolve .alienwhoopZero) (FlightConfig.period {})).outputs
      (spikes raws)).drop 1, r.2.x.isFinite = false := by
  have hmin : FlightConfig.minLoopPeriod ≤ FlightConfig.loopPeriod {} := by decide
  have hmax : FlightConfig.loopPeriod {} ≤ FlightConfig.maxLoopPeriod := by decide
  obtain ⟨c, hc⟩ : ∃ c, c = new (FilterPreset.resolve .alienwhoopZero) (FlightConfig.period {}) :=
    ⟨_, rfl⟩
  obtain ⟨d, hd⟩ : ∃ d, d = (c.filter (gyroSample ⟨3e38, 0.0, 0.0⟩)).1.filter
    (gyroSample ⟨-3e38, 0.0, 0.0⟩) := ⟨_, rfl⟩
  have hlost : d.1.rollIsLost = true := by
    rw [hd, hc]
    decide +kernel
  have hout : d.2.x.isFinite = false := by
    rw [hd, hc]
    decide +kernel
  refine ⟨rfl, hmin, hmax, by decide +kernel, by decide +kernel, fun raws => ?_⟩
  rw [← hc, spikes, outputs, outputs, List.drop_succ_cons, List.drop_zero, ← hd]
  exact List.forall_mem_cons.mpr ⟨hout, outputs_of_lost hlost raws⟩

end Conditioner

end Quadrotor

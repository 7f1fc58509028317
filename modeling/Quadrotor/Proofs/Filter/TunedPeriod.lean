import Mathlib
import Quadrotor.Proofs.Filter.FiniteOutput
import Quadrotor.Proofs.Scalar.Alike

/-!
# The record of the tuned period

The filters are retuned only when a value comes with another period than the one that they are
recorded to be tuned for. The record is never stale: filters that keep none, and are all retuned
before every value, give the same outputs. This takes no condition on the configuration. Even a
nominal period of zero or one that is no number makes no difference, because two periods of which
one could stand in the record of the other are the same scalar as soon as they compare equal.
-/

namespace Quadrotor

open Scalar

/-! ## Periods that compare equal -/

namespace Scalar

variable {x k : Scalar}

/-- Multiplying with at least one does not round a scalar to zero. -/
theorem isZero_of_mul (hk : 1.0 ≤ k) (hfk : k.isFinite = true) (h : (x * k).IsZero) : x.IsZero := by
  obtain ⟨hn, h0⟩ := isZero_iff.mp h
  have hone : 1 ≤ k.value := value_one ▸ (le_iff.mp hk).2.2
  have hx : x.isNaN = false := by
    by_contra hnan
    rw [isNaN_mul_left (Bool.eq_true_of_not_eq_false hnan) k] at hn
    cases hn
  by_cases hf : x.isFinite = true
  · have hround := (rounds_mul hf hfk).faithful
    rcases lt_trichotomy x.value 0 with hneg | hzero | hpos
    · have hle := hround.le_of_le_value hx (mul_le_of_one_le_right hneg.le hone)
      have hle' := (le_iff.mp hle).2.2
      linarith
    · exact isZero_iff.mpr ⟨hx, hzero⟩
    · have hle := hround.le_of_value_le hx (le_mul_of_one_le_right hpos.le hone)
      have hle' := (le_iff.mp hle).2.2
      linarith
  · obtain ⟨s, hs⟩ := form_infinity hx hf
    have hpos : isPositive k = true := isPositive_iff.mpr ⟨hfk, lt_of_lt_of_le (by decide) hk⟩
    obtain ⟨t, ht⟩ := h
    rw [form_infinity_mul_pos hs hpos] at ht
    cases ht

end Scalar

namespace Conditioner

variable {c : Conditioner}

theorem mul_maxGap_of_isZero {x : Scalar} (h : x.IsZero) : x * maxGap = x := by
  obtain ⟨s, hs⟩ := h
  refine form_injective ?_
  rw [form_mul, hs]
  cases s <;> rfl

theorem usablePeriod_of_isZero (h : c.period.IsZero) (dt : Scalar) :
    c.usablePeriod dt = c.period := by
  unfold usablePeriod minNum
  rw [mul_maxGap_of_isZero h]
  split_ifs with hdt hnan hlt
  · rfl
  · rfl
  · obtain ⟨hn, h0⟩ := isZero_iff.mp h
    obtain ⟨hf, hpos⟩ := isPositive_iff.mp hdt
    rw [lt_iff_value hn (isNaN_of_isFinite hf), h0] at hlt
    exact absurd (lt_iff.mp hpos).2.2 hlt
  · rfl

theorem not_isZero_usablePeriod (h : ¬c.period.IsZero) (dt : Scalar) :
    ¬(c.usablePeriod dt).IsZero := by
  have hgap : ¬(c.period * maxGap).IsZero := fun hz => h (isZero_of_mul (by decide) rfl hz)
  unfold usablePeriod minNum
  split_ifs with hdt hnan hlt
  · exact hgap
  · exact hgap
  · intro hz
    have hpos := (lt_iff.mp (isPositive_iff.mp hdt).2).2.2
    rw [(isZero_iff.mp hz).2] at hpos
    exact lt_irrefl _ hpos
  · exact h

/-- The two zeros compare equal and differ, but only one of them can be a period. -/
theorem usablePeriod_eq_of_beq {d e : Scalar}
    (h : (c.usablePeriod d == c.usablePeriod e) = true) : c.usablePeriod d = c.usablePeriod e := by
  rcases (beq_iff.mp h).2.2 with heq | ⟨hd, -⟩
  · exact heq
  · by_cases hzero : c.period.IsZero
    · rw [usablePeriod_of_isZero hzero, usablePeriod_of_isZero hzero]
    · exact absurd hd (not_isZero_usablePeriod hzero d)

end Conditioner

/-! ## Calls -/

namespace Conditioner

inductive Call where
  | axis (axis : Axis) (dt raw : Scalar)
  | gyro (dt : Scalar) (raw : Triple Scalar)
  | acc (dt : Scalar) (raw : Triple Scalar)
  | reset

inductive Answer where
  | axis (axis : Axis) (y : Scalar)
  | gyro (y : Triple Scalar)
  | acc (y : Triple Scalar)
  | done

/-- The filters after a call, and what it returns. -/
def perform (c : Conditioner) : Call → Conditioner × Answer
  | .axis axis dt raw => (c.filterAxis axis dt raw).map id (.axis axis)
  | .gyro dt raw => (c.filterGyro dt raw).map id .gyro
  | .acc dt raw => (c.filterAcc dt raw).map id .acc
  | .reset => (c.reset, .done)

/-- What some calls return, for filters of any kind. -/
def answers {S : Type} (perform : S → Call → S × Answer) (s : S) : List Call → List Answer
  | [] => []
  | call :: calls => (perform s call).2 :: answers perform (perform s call).1 calls

end Conditioner

/-! ## Filters without a record -/

/-- The filters of each axis of both instruments. They do not know what they are tuned for. -/
structure FilterBank where
  config : FilterConfig
  /-- Nominal sample period [s]. -/
  period : Scalar
  gyro : Triple (List Stage)
  acc : Triple (List Stage)

namespace FilterBank

open Conditioner (Call Answer)

def new (config : FilterConfig) (period : Scalar) : FilterBank where
  config := config
  period := period
  gyro := .fill (config.gyroStages.map (Stage.build · period))
  acc := .fill [Stage.build ⟨.lowpass, config.accCutoff⟩ period]

/-- The period that a value is filtered with: the time since the one before, but no more than four
nominal periods, and one nominal period where that time is not finite and positive. -/
def accounted (b : FilterBank) (dt : Scalar) : Scalar :=
  if dt.isFinite = true ∧ 0.0 < dt then if b.period * 4.0 < dt then b.period * 4.0 else dt
  else b.period

/-- The filters of one axis after one more value, retuned beforehand whatever they are tuned for. -/
def feed (dt : Scalar) (stages : List Stage) (raw : Scalar) : List Stage × Scalar :=
  Stage.updateAll (stages.map (Stage.retune · dt)) raw

/-- The filters after a call, and what it returns. -/
def perform (b : FilterBank) : Call → FilterBank × Answer
  | .axis axis dt raw =>
    let fed := feed (b.accounted dt) (b.gyro.get axis) raw
    ({ b with gyro := b.gyro.set axis fed.1 }, .axis axis fed.2)
  | .gyro dt raw =>
    let fed := Triple.zipWith (feed (b.accounted dt)) b.gyro raw
    ({ b with gyro := fed.map Prod.fst }, .gyro (fed.map Prod.snd))
  | .acc dt raw =>
    let fed := Triple.zipWith (feed (b.accounted dt)) b.acc raw
    ({ b with acc := fed.map Prod.fst }, .acc (fed.map Prod.snd))
  | .reset => (new b.config b.period, .done)

end FilterBank

/-! ## The record is never stale -/

theorem Kalman.retune_update {f : Kalman Scalar} {k : Scalar} (h : f.retune k = f) (x : Scalar) :
    (f.update x).retune k = f.update x := by
  obtain ⟨noise, mean, variance, passThrough⟩ := f
  simp only [retune, Kalman.mk.injEq, true_and] at h
  obtain ⟨hnoise, hpass⟩ := h
  unfold Kalman.update
  split_ifs <;> simp only [retune, hnoise, hpass]

theorem Lowpass.retune_update {f : Lowpass Scalar} {dt : Scalar} (h : f.retune dt = f)
    (x : Scalar) : (f.update x).retune dt = f.update x := by
  obtain ⟨tau, gain, y⟩ := f
  simp only [retune, Lowpass.mk.injEq, true_and, and_true] at h
  simp only [retune, update, h]

namespace Stage

variable {dt : Scalar}

/-- Retuning for that period would change nothing. -/
def TunedFor (dt : Scalar) (s : Stage) : Prop := s.retune dt = s

theorem tunedFor_build (config : StageConfig) (dt : Scalar) :
    TunedFor dt (Stage.build config dt) := by
  unfold TunedFor Stage.build
  cases config.kind <;> rfl

theorem tunedFor_retune (s : Stage) (dt : Scalar) : TunedFor dt (s.retune dt) := by
  cases s <;> rfl

theorem TunedFor.update {s : Stage} (h : TunedFor dt s) (x : Scalar) :
    TunedFor dt (s.update x) := by
  cases s with
  | kalman cutoff f =>
    have hf : f.retune (kalmanGain cutoff dt) = f := (Stage.kalman.inj h).2
    exact congrArg (Stage.kalman cutoff) (Kalman.retune_update hf x)
  | lowpass f =>
    have hf : f.retune dt = f := Stage.lowpass.inj h
    exact congrArg Stage.lowpass (Lowpass.retune_update hf x)

theorem tunedFor_updateAll {stages : List Stage} (h : ∀ s ∈ stages, TunedFor dt s) (x : Scalar) :
    ∀ s ∈ (updateAll stages x).1, TunedFor dt s := by
  induction stages generalizing x with
  | nil => exact h
  | cons s stages ih =>
    obtain ⟨hs, hrest⟩ := List.forall_mem_cons.mp h
    exact List.forall_mem_cons.mpr ⟨hs.update x, ih hrest (s.update x).output⟩

theorem map_retune {stages : List Stage} (h : ∀ s ∈ stages, TunedFor dt s) :
    stages.map (Stage.retune · dt) = stages :=
  (List.map_congr_left h).trans (List.map_id' stages)

end Stage

theorem FilterBank.tunedFor_feed (dt : Scalar) (stages : List Stage) (raw : Scalar) :
    ∀ s ∈ (feed dt stages raw).1, s.TunedFor dt := by
  refine Stage.tunedFor_updateAll ?_ raw
  intro s hs
  obtain ⟨s', -, rfl⟩ := List.mem_map.mp hs
  exact s'.tunedFor_retune dt

namespace Conditioner

open FilterBank (feed)

/-- The same filters without their record. -/
def bank (c : Conditioner) : FilterBank where
  config := c.config
  period := c.period
  gyro := c.gyro.map GyroAxis.stages
  acc := c.acc.map fun f => [.lowpass f]

/-- The stages are tuned for the recorded period, which is one that the filters use. -/
structure Recorded (usable : Scalar → Scalar) (dt : Scalar) (stages : List Stage) : Prop where
  usable : ∃ d, usable d = dt
  tuned : ∀ s ∈ stages, s.TunedFor dt

/-- No record is stale. -/
structure UpToDate (c : Conditioner) : Prop where
  gyro : ∀ axis, Recorded c.usablePeriod (c.gyro.get axis).tunedFor (c.gyro.get axis).stages
  acc : ∀ axis, Recorded c.usablePeriod c.accTunedFor [.lowpass (c.acc.get axis)]

section

variable {c : Conditioner}

theorem accounted_bank (c : Conditioner) (dt : Scalar) :
    c.bank.accounted dt = c.usablePeriod dt := by
  unfold FilterBank.accounted usablePeriod minNum
  simp only [isPositive_iff]
  by_cases hdt : dt.isFinite = true ∧ 0.0 < dt
  · rw [if_pos hdt, if_pos hdt, isNaN_of_isFinite hdt.1]
    rfl
  · rw [if_neg hdt, if_neg hdt]
    rfl

theorem recorded_feed (c : Conditioner) (dt : Scalar) (stages : List Stage) (raw : Scalar) :
    Recorded c.usablePeriod (c.usablePeriod dt) (feed (c.usablePeriod dt) stages raw).1 :=
  ⟨⟨dt, rfl⟩, FilterBank.tunedFor_feed _ stages raw⟩

/-- Where the record says that the stages need not be retuned, retuning them changes nothing. -/
theorem Recorded.eq_of_beq {tunedFor dt : Scalar} {stages : List Stage}
    (h : Recorded c.usablePeriod tunedFor stages) (hdt : (c.usablePeriod dt == tunedFor) = true) :
    tunedFor = c.usablePeriod dt ∧ stages.map (Stage.retune · (c.usablePeriod dt)) = stages := by
  obtain ⟨d, rfl⟩ := h.usable
  have heq := usablePeriod_eq_of_beq hdt
  rw [heq]
  exact ⟨rfl, Stage.map_retune h.tuned⟩

theorem Recorded.updateGyroAxis {a : GyroAxis} (h : Recorded c.usablePeriod a.tunedFor a.stages)
    (dt raw : Scalar) : updateGyroAxis a (c.usablePeriod dt) raw =
      (⟨(feed (c.usablePeriod dt) a.stages raw).1, c.usablePeriod dt⟩,
        (feed (c.usablePeriod dt) a.stages raw).2) := by
  unfold Conditioner.updateGyroAxis feed
  by_cases hdt : (c.usablePeriod dt == a.tunedFor) = true
  · obtain ⟨htuned, hstages⟩ := h.eq_of_beq hdt
    rw [if_pos hdt, hstages, ← htuned]
  · rw [if_neg hdt]

theorem UpToDate.filterAxis (h : c.UpToDate) (axis : Axis) (dt raw : Scalar) :
    (c.filterAxis axis dt raw).1.UpToDate ∧
      ((c.filterAxis axis dt raw).1.bank, Answer.axis axis (c.filterAxis axis dt raw).2) =
        c.bank.perform (.axis axis dt raw) := by
  have hstages : c.bank.gyro.get axis = (c.gyro.get axis).stages := Triple.get_map _ _ _
  obtain ⟨fed, hfed⟩ :
      ∃ fed, fed = feed (c.usablePeriod dt) (c.gyro.get axis).stages raw := ⟨_, rfl⟩
  have hfilter : c.filterAxis axis dt raw =
      ({ c with gyro := c.gyro.set axis ⟨fed.1, c.usablePeriod dt⟩ }, fed.2) := by
    rw [Conditioner.filterAxis, (h.gyro axis).updateGyroAxis, hfed]
  rw [hfilter, FilterBank.perform, accounted_bank, hstages, ← hfed]
  refine ⟨⟨fun other => ?_, h.acc⟩, ?_⟩
  · rw [Triple.get_set]
    by_cases hother : axis = other
    · rw [if_pos hother, hfed]
      exact c.recorded_feed dt _ raw
    · rw [if_neg hother]
      exact h.gyro other
  · cases axis <;> rfl

/-- A sample is filtered like its three values one after another. -/
theorem UpToDate.filterGyro (h : c.UpToDate) (dt : Scalar) (raw : Triple Scalar) :
    (c.filterGyro dt raw).1.UpToDate ∧
      ((c.filterGyro dt raw).1.bank, Answer.gyro (c.filterGyro dt raw).2) =
        c.bank.perform (.gyro dt raw) := by
  obtain ⟨hroll, hx⟩ := h.filterAxis .roll dt raw.x
  obtain ⟨hpitch, hy⟩ := hroll.filterAxis .pitch dt raw.y
  obtain ⟨hyaw, hz⟩ := hpitch.filterAxis .yaw dt raw.z
  obtain ⟨hbank, houtx⟩ := Prod.mk.inj hx
  obtain ⟨hbank', houty⟩ := Prod.mk.inj hy
  obtain ⟨hbank'', houtz⟩ := Prod.mk.inj hz
  rw [hbank] at hbank' houty
  rw [hbank'] at hbank'' houtz
  refine ⟨hyaw, Prod.ext hbank'' ?_⟩
  have hx := (Answer.axis.inj houtx).2
  have hy := (Answer.axis.inj houty).2
  have hz := (Answer.axis.inj houtz).2
  exact congrArg Answer.gyro (Triple.ext_get (by rintro (_ | _ | _); exacts [hx, hy, hz]))

theorem UpToDate.filterAcc (h : c.UpToDate) (dt : Scalar) (raw : Triple Scalar) :
    (c.filterAcc dt raw).1.UpToDate ∧
      ((c.filterAcc dt raw).1.bank, Answer.acc (c.filterAcc dt raw).2) =
        c.bank.perform (.acc dt raw) := by
  -- What the record decides is the same for the filters of all three axes.
  have htuned : (if c.usablePeriod dt == c.accTunedFor then c.acc
      else c.acc.map (·.retune (c.usablePeriod dt))) = c.acc.map (·.retune (c.usablePeriod dt)) := by
    by_cases hdt : (c.usablePeriod dt == c.accTunedFor) = true
    · rw [if_pos hdt]
      refine Triple.ext_get fun axis => ?_
      obtain ⟨-, hstages⟩ := (h.acc axis).eq_of_beq hdt
      rw [Triple.get_map]
      exact (Stage.lowpass.inj (List.head_eq_of_cons_eq hstages)).symm
    · rw [if_neg hdt]
  have hfilter : c.filterAcc dt raw =
      ({ c with
          acc := Triple.zipWith Lowpass.update (c.acc.map (·.retune (c.usablePeriod dt))) raw
          accTunedFor := c.usablePeriod dt },
        (Triple.zipWith Lowpass.update (c.acc.map (·.retune (c.usablePeriod dt))) raw).map (·.y)) := by
    rw [Conditioner.filterAcc]
    simp only [htuned]
  rw [hfilter]
  refine ⟨⟨h.gyro, fun axis => ?_⟩, ?_⟩
  · rw [Triple.get_zipWith, Triple.get_map]
    exact c.recorded_feed dt [.lowpass (c.acc.get axis)] (raw.get axis)
  · rw [FilterBank.perform, accounted_bank]
    rfl

theorem upToDate_new (config : FilterConfig) (period : Scalar) : (new config period).UpToDate := by
  have husable : ∃ d, (new config period).usablePeriod d = period := ⟨0.0, if_neg (by decide)⟩
  refine ⟨fun axis => ⟨?_, fun s hs => ?_⟩, fun axis => ⟨husable, ?_⟩⟩
  · cases axis <;> exact husable
  · have hs' : s ∈ config.gyroStages.map (Stage.build · period) := by cases axis <;> exact hs
    obtain ⟨stage, -, rfl⟩ := List.mem_map.mp hs'
    cases axis <;> exact Stage.tunedFor_build stage period
  · intro s hs
    obtain rfl := List.mem_singleton.mp hs
    cases axis <;> exact Stage.tunedFor_build ⟨.lowpass, config.accCutoff⟩ period

/-- A call keeps the records up to date, and without them it does the same. -/
theorem UpToDate.perform (h : c.UpToDate) (call : Call) :
    (c.perform call).1.UpToDate ∧
      ((c.perform call).1.bank, (c.perform call).2) = c.bank.perform call := by
  cases call with
  | axis axis dt raw => exact h.filterAxis axis dt raw
  | gyro dt raw => exact h.filterGyro dt raw
  | acc dt raw => exact h.filterAcc dt raw
  | reset => exact ⟨upToDate_new c.config c.period, rfl⟩

/-- No call ever finds a stale record, so the filters answer as they would without one. -/
theorem UpToDate.answers (h : c.UpToDate) (calls : List Call) :
    answers Conditioner.perform c calls = answers FilterBank.perform c.bank calls := by
  induction calls generalizing c with
  | nil => rfl
  | cons call calls ih =>
    obtain ⟨hnext, hbank⟩ := h.perform call
    rw [Conditioner.answers, Conditioner.answers, ← hbank, ih hnext]

end

/-- The record is never stale: every sequence of calls is answered like filters without a record
answer it, which are retuned before every value. -/
theorem answers_eq_bank (config : FilterConfig) (period : Scalar) (calls : List Call) :
    answers Conditioner.perform (new config period) calls =
      answers FilterBank.perform (FilterBank.new config period) calls :=
  (upToDate_new config period).answers calls

end Conditioner

end Quadrotor

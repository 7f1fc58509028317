import Quadrotor.Axes
import Quadrotor.Error
import Quadrotor.Filter.Kalman

/-!
# Sample conditioning

Raw gyroscope and accelerometer samples pass through filters of their own axis, so that noise on one
axis never reaches another. A gyroscope axis has up to two stages, an accelerometer axis one. The
stages are tuned for the nominal sample period and retuned whenever the time since the previous
sample differs from the one they are tuned for.
-/

namespace Quadrotor

/-- The family of a conditioning stage. -/
inductive StageKind where
  | kalman
  | lowpass
  deriving DecidableEq, Repr, Inhabited

/-- A conditioning stage as configured. -/
structure StageConfig where
  kind : StageKind
  /-- Cutoff frequency [Hz]. -/
  cutoff : Scalar
  deriving BEq, Repr, Inhabited

/-- The low-pass filter ahead of a derivative. -/
inductive DerivativeFilter where
  | firstOrder (cutoff : Scalar)
  | secondOrder (cutoff : Scalar)
  deriving BEq, Repr, Inhabited

namespace DerivativeFilter

/-- Cutoff frequency [Hz]. -/
def cutoff : DerivativeFilter → Scalar
  | firstOrder c | secondOrder c => c

/-- The number of equal filters in a row. -/
def order : DerivativeFilter → Nat
  | firstOrder _ => 1
  | secondOrder _ => 2

/-- The filters, at rest at zero. -/
def build (d : DerivativeFilter) (dt : Scalar) : List (Lowpass Scalar) :=
  List.replicate d.order (Lowpass.ofCutoff d.cutoff dt)

end DerivativeFilter

/-- The filters of the gyroscope, the accelerometer and the derivative terms. -/
structure FilterConfig where
  gyroPass1 : Option StageConfig
  gyroPass2 : Option StageConfig
  /-- Cutoff of the accelerometer filter [Hz]. -/
  accCutoff : Scalar
  derivative : DerivativeFilter
  deriving BEq, Repr, Inhabited

namespace FilterConfig

/-- A single Kalman stage, with cutoffs [Hz] for the gyroscope and the derivative terms. -/
def singleKalman (gyro derivative : Scalar) : FilterConfig where
  gyroPass1 := some ⟨.kalman, gyro⟩
  gyroPass2 := none
  accCutoff := 10.0
  derivative := .secondOrder derivative

/-- The cutoff frequencies that are in use. -/
def cutoffs (c : FilterConfig) : List Scalar :=
  (c.gyroPass1.toList ++ c.gyroPass2.toList).map StageConfig.cutoff ++
    [c.accCutoff, c.derivative.cutoff]

/-- Refuses a cutoff that is not finite and positive, the first one in order. -/
def check (c : FilterConfig) : Check :=
  c.cutoffs.forM fun f => require (Scalar.isPositive f) (.cutoff f)

end FilterConfig

/-- A named set of filters, or one of its own. -/
inductive FilterPreset where
  | alienwhoopZero
  | weak
  | strong
  | veryStrong
  | custom (config : FilterConfig)
  deriving BEq, Repr, Inhabited

/-- The filters of a preset. -/
def FilterPreset.resolve : FilterPreset → FilterConfig
  | alienwhoopZero => .singleKalman 90.0 100.0
  | weak => .singleKalman 90.0 100.0
  | strong => .singleKalman 80.0 90.0
  | veryStrong => .singleKalman 70.0 80.0
  | custom config => config

/-- A conditioning stage at work. -/
inductive Stage where
  | kalman (cutoff : Scalar) (filter : Kalman Scalar)
  | lowpass (filter : Lowpass Scalar)
  deriving Repr, Inhabited

namespace Stage

/-- The gain of the low-pass filter that a Kalman stage settles into. -/
def kalmanGain (cutoff dt : Scalar) : Scalar := (Lowpass.ofCutoff cutoff dt).gain

/-- The stage at rest at zero. -/
def build (c : StageConfig) (dt : Scalar) : Stage :=
  match c.kind with
  | .kalman => kalman c.cutoff (Kalman.ofGain (kalmanGain c.cutoff dt))
  | .lowpass => lowpass (Lowpass.ofCutoff c.cutoff dt)

/-- The same stage for another sample period. -/
def retune (s : Stage) (dt : Scalar) : Stage :=
  match s with
  | kalman cutoff f => kalman cutoff (f.retune (kalmanGain cutoff dt))
  | lowpass f => lowpass (f.retune dt)

/-- The stage after one more input. -/
def update (s : Stage) (x : Scalar) : Stage :=
  match s with
  | kalman cutoff f => kalman cutoff (f.update x)
  | lowpass f => lowpass (f.update x)

/-- The latest output. -/
def output : Stage → Scalar
  | kalman _ f => f.mean
  | lowpass f => f.y

/-- A chain of stages after one more input, each fed with the output of the one before. -/
def updateAll : List Stage → Scalar → List Stage × Scalar
  | [], x => ([], x)
  | s :: ss, x =>
    let s := s.update x
    let (ss, y) := updateAll ss s.output
    (s :: ss, y)

end Stage

/-- The filters of one gyroscope axis, and the sample period they are tuned for. -/
structure GyroAxis where
  stages : List Stage
  tunedFor : Scalar
  deriving Repr, Inhabited

/-- Filters of raw samples. -/
structure Conditioner where
  config : FilterConfig
  /-- Nominal sample period [s]. -/
  period : Scalar
  gyro : Triple GyroAxis
  acc : Triple (Lowpass Scalar)
  /-- The sample period that the accelerometer filters are tuned for. -/
  accTunedFor : Scalar
  deriving Repr, Inhabited

namespace Conditioner

/-- The number of nominal periods beyond which a gap between samples does not count. -/
def maxGap : Scalar := 4.0

/-- All filters at rest at zero. -/
def new (config : FilterConfig) (period : Scalar) : Conditioner where
  config := config
  period := period
  gyro := .fill ⟨(config.gyroPass1.toList ++ config.gyroPass2.toList).map (Stage.build · period),
    period⟩
  acc := .fill (Lowpass.ofCutoff config.accCutoff period)
  accTunedFor := period

/-- The time since the previous sample as the filters use it: no more than `maxGap` nominal periods,
and one nominal period where it is not finite and positive. -/
def usablePeriod (c : Conditioner) (dt : Scalar) : Scalar :=
  if Scalar.isPositive dt then Scalar.minNum dt (c.period * maxGap) else c.period

/-- One gyroscope axis after one more value that came `dt` after the one before. -/
def updateGyroAxis (a : GyroAxis) (dt raw : Scalar) : GyroAxis × Scalar :=
  let a := if dt == a.tunedFor then a else ⟨a.stages.map (Stage.retune · dt), dt⟩
  let (stages, y) := Stage.updateAll a.stages raw
  ({ a with stages := stages }, y)

/-- Filters the value of one gyroscope axis that came `dt` seconds after the one before. -/
def filterAxis (c : Conditioner) (axis : Axis) (dt raw : Scalar) : Conditioner × Scalar :=
  let (a, y) := updateGyroAxis (c.gyro.get axis) (c.usablePeriod dt) raw
  ({ c with gyro := c.gyro.set axis a }, y)

/-- Filters a gyroscope sample that came `dt` seconds after the one before. -/
def filterGyro (c : Conditioner) (dt : Scalar) (raw : Triple Scalar) : Conditioner × Triple Scalar :=
  let (c, x) := c.filterAxis .roll dt raw.x
  let (c, y) := c.filterAxis .pitch dt raw.y
  let (c, z) := c.filterAxis .yaw dt raw.z
  (c, ⟨x, y, z⟩)

/-- Filters an accelerometer sample that came `dt` seconds after the one before. -/
def filterAcc (c : Conditioner) (dt : Scalar) (raw : Triple Scalar) : Conditioner × Triple Scalar :=
  let dt := c.usablePeriod dt
  let tuned := if dt == c.accTunedFor then c.acc else c.acc.map (·.retune dt)
  let acc := Triple.zipWith Lowpass.update tuned raw
  ({ c with acc := acc, accTunedFor := dt }, acc.map (·.y))

/-- All filters at rest at zero again. -/
def reset (c : Conditioner) : Conditioner := new c.config c.period

end Conditioner

end Quadrotor

import Quadrotor.Filter.Lowpass
import Quadrotor.Simulation.Error
import Quadrotor.Vector

/-!
# Sensor flaws

A sensor of three axes reads the truth with an offset, smoothed by a filter of its own, and in steps
of the resolution of sixteen bits within its range. Each of the flaws may be absent.

Noise is part of the settings, and a reading takes it at its mean, which is zero: nothing here draws
random numbers.
-/

namespace Quadrotor

/-- The flaws of a sensor. -/
structure SensorFlaws where
  /-- Standard deviation of the noise of each axis. -/
  noise : Option (Triple Scalar) := none
  /-- Offset of each axis. -/
  bias : Option (Triple Scalar) := none
  /-- Cutoff of the sensor's filter [Hz]. -/
  cutoff : Option Scalar := none
  /-- The largest reading. -/
  range : Option Scalar := none
  deriving BEq, Repr, Inhabited

/-- Refuses a noise that is not finite, or negative, and a range that is not finite and positive. -/
def SensorFlaws.check (f : SensorFlaws) : Except SimulationError Unit := do
  match f.noise with
  | some n => unless n.all Scalar.isNonneg do throw (.noise n)
  | none => pure ()
  match f.range with
  | some r => unless Scalar.isPositive r do throw (.range r)
  | none => pure ()

/-- A sensor at work. -/
structure Sensor where
  flaws : SensorFlaws := {}
  filters : Option (Triple (Lowpass Scalar)) := none
  deriving Repr, Inhabited

namespace Sensor

/-- A sensor that is read every `dt` seconds, with its filter at rest at zero. -/
def new (flaws : SensorFlaws) (dt : Scalar) : Except SimulationError Sensor := do
  flaws.check
  return { flaws := flaws, filters := flaws.cutoff.map fun f => .fill (Lowpass.ofCutoff f dt) }

/-- The steps of a reading from zero to the largest one. -/
def steps : Scalar := 32767.0

/-- The whole number of steps nearest to a value, within the range. -/
def quantized (range x : Scalar) : Scalar :=
  let step := range / steps
  Scalar.limit (-range) range ((x / step).round * step)

/-- The truth with a flaw added to it, if there is that flaw. -/
def plus (truth : Vec3) (flaw : Option Vec3) : Vec3 :=
  match flaw with
  | some flaw => Vec3.add truth flaw
  | none => truth

/-- The sensor after one more reading of the truth, and the reading. -/
def read (s : Sensor) (truth : Vec3) : Sensor × Vec3 :=
  let noise := s.flaws.noise.map fun _ => Vec3.zero
  let offset := plus (plus truth noise) s.flaws.bias
  let filters := s.filters.map fun f => Triple.zipWith Lowpass.update f offset
  let smooth := match filters with
    | some f => f.map (·.y)
    | none => offset
  let reading := match s.flaws.range with
    | some range => smooth.map (quantized range)
    | none => smooth
  ({ s with filters := filters }, reading)

end Sensor

end Quadrotor

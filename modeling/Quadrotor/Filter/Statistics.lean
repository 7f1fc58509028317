import Quadrotor.Scalar

/-!
# Running statistics

Mean and variance of a stream of samples, each new one with the same weight and the older ones
fading.
-/

namespace Quadrotor

/-- Running mean and variance. -/
structure Statistics where
  /-- Weight of a new sample. -/
  weight : Scalar
  mean : Scalar := 0.0
  variance : Scalar := 0.0
  /-- A sample has been seen. -/
  started : Bool := false
  deriving Repr, Inhabited

namespace Statistics

/-- No samples yet; the weight is held within `(0, 1]`. -/
def new (weight : Scalar) : Statistics :=
  { weight := Scalar.minNum (Scalar.maxNum weight Scalar.epsilon) 1.0 }

/-- The statistics with one more sample; the first one is the mean. -/
def add (s : Statistics) (sample : Scalar) : Statistics :=
  if s.started then
    let delta := sample - s.mean
    { s with
      mean := s.mean + delta * s.weight
      variance := (s.variance + delta * delta * s.weight) * (1.0 - s.weight) }
  else { s with mean := sample, variance := 0.0, started := true }

/-- The standard deviation. -/
def deviation (s : Statistics) : Scalar := s.variance.sqrt

end Statistics

end Quadrotor

import Quadrotor.Filter.Lowpass

/-!
# Kalman filter of a random walk

A scalar filter that tracks the variance of its estimate. The process noise is chosen so that a given
gain is the one the filter converges to, which makes it settle into the low-pass filter of that gain.
As with `Lowpass`, the formulas are stated for any number type.
-/

namespace Quadrotor

/-- A scalar Kalman filter. -/
structure Kalman (R : Type) where
  /-- Variance that the signal gains between two inputs. -/
  processNoise : R
  /-- The estimate. -/
  mean : R
  /-- Variance of the estimate. -/
  variance : R
  /-- The input is taken as it is. -/
  passThrough : Bool
  deriving Repr, Inhabited

namespace Kalman

variable {R : Type} [Add R] [Sub R] [Mul R] [Div R] [OfNat R 0] [OfNat R 1] [LE R] [DecidableLE R]

/-- Variance of an input. The process noise is chosen in proportion to it. -/
def inputNoise : R := 1

/-- The process noise with which the gain converges to `k`. -/
def processNoiseFor (k : R) : R := k * k * inputNoise / (1 - k)

/-- The same estimate with another gain to converge to; a gain of one lets everything pass. -/
def retune (f : Kalman R) (k : R) : Kalman R :=
  { f with
    passThrough := decide (1 ≤ k)
    processNoise := if 1 ≤ k then 0 else processNoiseFor k }

/-- The filter that starts out converged to the gain `k`, with a zero estimate. -/
def ofGain (k : R) : Kalman R := retune ⟨0, 0, k * inputNoise, false⟩ k

/-- Variance of the estimate before the next input. -/
def prior (f : Kalman R) : R := f.variance + f.processNoise

/-- Share of the next input in the estimate. -/
def gain (f : Kalman R) : R := f.prior / (f.prior + inputNoise)

/-- The filter after one more input, whose output is its `mean`. -/
def update (f : Kalman R) (z : R) : Kalman R :=
  if f.passThrough then { f with mean := z }
  else
    { f with
      mean := f.mean + f.gain * (z - f.mean)
      variance := (1 - f.gain) * f.prior }

end Kalman

end Quadrotor

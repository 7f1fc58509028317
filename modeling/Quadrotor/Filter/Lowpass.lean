import Quadrotor.Scalar

/-!
# Low-pass filters

A first order low-pass filter moves its output by a fixed share of the distance to the input. The
formulas only use the four operations, so they are stated for any number type: the flight core runs
them on scalars, and over the rationals they are exact.
-/

namespace Quadrotor

/-- A first order low-pass filter. -/
structure Lowpass (R : Type) where
  /-- Time constant [s]. -/
  tau : R
  /-- Share of the input in the next output. -/
  gain : R
  /-- The latest output. -/
  y : R
  deriving Repr, Inhabited

namespace Lowpass

variable {R : Type} [Add R] [Sub R] [Mul R] [Div R] [OfNat R 0] [OfNat R 1]

/-- The gain for a time constant and a sample period. -/
def gainFor (tau dt : R) : R := dt / (tau + dt)

/-- A filter at rest at zero. -/
def new (tau dt : R) : Lowpass R := ⟨tau, gainFor tau dt, 0⟩

/-- The same filter for another sample period. -/
def retune (f : Lowpass R) (dt : R) : Lowpass R := { f with gain := gainFor f.tau dt }

/-- The filter at rest at `y`. -/
def reset (f : Lowpass R) (y : R) : Lowpass R := { f with y := y }

/-- The filter after one more input, whose output is its `y`. -/
def update (f : Lowpass R) (x : R) : Lowpass R := { f with y := f.gain * x + (1 - f.gain) * f.y }

/-- A chain of filters after one more input, each fed with the output of the one before. -/
def updateAll : List (Lowpass R) → R → List (Lowpass R) × R
  | [], x => ([], x)
  | f :: fs, x =>
    let f := f.update x
    let (fs, y) := updateAll fs f.y
    (f :: fs, y)

/-- The time constant of a cutoff frequency; none at all for a cutoff that the sample period cannot
resolve, which lets everything pass. -/
def tauFor (cutoff dt : Scalar) : Scalar :=
  if 0.5 ≤ cutoff * dt then 0.0 else 1.0 / (2.0 * Scalar.pi * cutoff)

/-- The filter with a cutoff frequency [Hz], at rest at zero. -/
def ofCutoff (cutoff dt : Scalar) : Lowpass Scalar := new (tauFor cutoff dt) dt

end Lowpass

/-- A function of the form `slope · x + offset`. -/
structure Line where
  slope : Scalar
  offset : Scalar
  deriving Repr, Inhabited

namespace Line

/-- The line through `(inMin, outMin)` and `(inMax, outMax)`. -/
def through (inMin inMax outMin outMax : Scalar) : Line where
  slope := (outMax - outMin) / (inMax - inMin)
  offset := outMin - inMin * (outMax - outMin) / (inMax - inMin)

/-- The value at `x`. -/
def value (l : Line) (x : Scalar) : Scalar := x * l.slope + l.offset

end Line

end Quadrotor

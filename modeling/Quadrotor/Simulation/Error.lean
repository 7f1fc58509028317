import Quadrotor.Axes
import Quadrotor.Scalar.Decimal

/-!
# Errors of the simulation

The ways in which the settings of a simulation are refused.
-/

namespace Quadrotor

/-- Settings that no simulation is built from. -/
inductive SimulationError where
  /-- The rate [Hz] of the steps is not finite and positive. -/
  | rate (frequency : Scalar)
  /-- The mass or an inertia of the vehicle is not positive. -/
  | vehicle
  /-- A sensor's noise is not finite, or negative. -/
  | noise (deviation : Triple Scalar)
  /-- The range of a sensor is not finite and positive. -/
  | range (limit : Scalar)
  /-- A spread that no noise can have. -/
  | spread
  deriving BEq, Repr, Inhabited

namespace SimulationError

/-- The listing of three values. -/
def triple (t : Triple Scalar) : String :=
  "[" ++ ", ".intercalate (t.toList.map Scalar.literal) ++ "]"

/-- The sentence that reports the error. -/
def message : SimulationError → String
  | rate f => "simulation rate must be positive, got " ++ f.plain
  | vehicle => "vehicle mass and inertia must be positive"
  | noise n => "sensor noise must be non-negative, got " ++ triple n
  | range r => "sensor range must be positive, got " ++ r.plain
  | spread => "BadVariance"

/-- The error as a listing shows it: a sentence in quotes, or a bare name. -/
def listing (e : SimulationError) : String :=
  match e with
  | spread => e.message
  | rate _ | vehicle | noise _ | range _ => "\"" ++ e.message ++ "\""

end SimulationError

end Quadrotor

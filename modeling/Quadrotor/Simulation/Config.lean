import Quadrotor.Simulation.Cell
import Quadrotor.Simulation.Error
import Quadrotor.Simulation.Sensor
import Quadrotor.Simulation.Vehicle

/-!
# Simulation settings

What a simulation is described by, and the simulation that comes of it. The settings of the vehicle
are its measures; what the physics needs is derived from them.
-/

namespace Quadrotor

/-- The measures of a vehicle. -/
structure VehicleSettings where
  /-- Mass [kg]. -/
  mass : Scalar := 0.025
  /-- Inertia about the body axes [kg m²]. -/
  inertia : Vec3 := ⟨2e-5, 2e-5, 3.5e-5⟩
  /-- Damping of the velocity [N s/m]. -/
  linearDamping : Scalar := 0.01
  /-- Damping of the rates [N m s/rad]. -/
  angularDamping : Scalar := 1e-6
  /-- Distance from the back motors to the front ones [m]. -/
  length : Scalar := 0.046
  /-- Distance from the left motors to the right ones [m]. -/
  width : Scalar := 0.046
  /-- Reaction torque per unit of thrust [m]. -/
  reaction : Scalar := 0.01
  /-- Time constant of the motors [s]. -/
  motorLag : Scalar := 0.01
  /-- Thrust of a motor at full duty [N]. -/
  maxThrust : Scalar := 0.12
  /-- Share of the square in the thrust curve. -/
  curvature : Scalar := 0.3
  deriving BEq, Repr, Inhabited

/-- The vehicle of the given measures. -/
def VehicleSettings.build (s : VehicleSettings) : VehicleParams where
  mass := s.mass
  inertia := s.inertia
  linearDamping := s.linearDamping
  angularDamping := s.angularDamping
  motorLag := Scalar.maxNum s.motorLag 0.0
  thrust := ThrustCurve.new s.maxThrust s.curvature
  airframe := Airframe.quadX s.length s.width s.reaction

/-- The settings of a simulation. -/
structure SimulationSettings where
  /-- Steps per second [Hz]. -/
  rate : Scalar := 1000.0
  /-- Seed of random numbers, if it is fixed. -/
  seed : Option UInt64 := none
  initial : InitialState := {}
  vehicle : VehicleSettings := {}
  battery : CellParams := {}
  acc : SensorFlaws := {}
  gyro : SensorFlaws := {}
  /-- Standard deviation of the noise of battery readings [V]. -/
  voltageNoise : Option Scalar := none
  deriving BEq, Repr, Inhabited

/-- A simulation as configured. -/
structure SimulationConfig where
  /-- Length of a step [s]. -/
  step : Scalar
  seed : UInt64
  vehicle : VehicleParams
  initial : InitialState
  battery : CellParams
  acc : SensorFlaws
  gyro : SensorFlaws
  /-- Standard deviation of the noise of battery readings [V]. -/
  voltageNoise : Scalar
  deriving Repr, Inhabited

namespace SimulationSettings

/-- The simulation of the settings, with the given seed unless they fix one. -/
def assemble (s : SimulationSettings) (seed : UInt64) : SimulationConfig where
  step := 1.0 / s.rate
  seed := s.seed.getD seed
  vehicle := s.vehicle.build
  initial := s.initial
  battery := s.battery
  acc := s.acc
  gyro := s.gyro
  voltageNoise := Scalar.maxNum (s.voltageNoise.getD 0.0) 0.0

/-- Refuses a rate that is not finite and positive, and a vehicle without mass or inertia. -/
def check (s : SimulationSettings) : Except SimulationError Unit := do
  unless Scalar.isPositive s.rate do throw (.rate s.rate)
  unless decide (0.0 < s.vehicle.mass) && s.vehicle.inertia.all fun i => decide (0.0 < i) do
    throw .vehicle

/-- The simulation of the settings, unless they are refused. -/
def build (s : SimulationSettings) (seed : UInt64) : Except SimulationError SimulationConfig := do
  s.check
  return s.assemble seed

end SimulationSettings

end Quadrotor

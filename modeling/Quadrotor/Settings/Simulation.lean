import Quadrotor.Settings.Value
import Quadrotor.Simulation.Config

/-!
# Simulation from settings

Readers of the settings of a simulation. Every section may be left out, and so may every entry of
most of them; a rate has to be given once its section is.
-/

namespace Quadrotor.Settings

/-- The capacity and the losses of a cell. -/
def cellParams : Reader CellParams := record do
  let d : CellParams := {}
  return {
    capacity := ← withDefault "capacity_mah" d.capacity number
    initialCharge := ← withDefault "initial_soc" d.initialCharge number
    resistance := ← withDefault "internal_resistance" d.resistance number
    maxCurrent := ← withDefault "max_current" d.maxCurrent number }

/-- Where a vehicle starts. -/
def initialState : Reader InitialState := record do
  let d : InitialState := {}
  return {
    angles := ← withDefault "rotation" d.angles (triple number)
    height := ← withDefault "height" d.height number
    rates := ← withDefault "ang_velocity" d.rates (triple number) }

/-- The measures of a vehicle. -/
def vehicleSettings : Reader VehicleSettings := record do
  let d : VehicleSettings := {}
  let (length, width) ← withDefault "motor_spacing" (d.length, d.width) (pair number)
  return {
    mass := ← withDefault "mass" d.mass number
    inertia := ← withDefault "inertia" d.inertia (triple number)
    linearDamping := ← withDefault "linear_damp" d.linearDamping number
    angularDamping := ← withDefault "angular_damp" d.angularDamping number
    length := length
    width := width
    reaction := ← withDefault "reaction_torque" d.reaction number
    motorLag := ← withDefault "motor_time_constant" d.motorLag number
    maxThrust := ← withDefault "max_thrust" d.maxThrust number
    curvature := ← withDefault "thrust_curvature" d.curvature number }

/-- The flaws of a sensor. -/
def sensorFlaws : Reader SensorFlaws := record do
  return {
    noise := ← optional "noise" (triple number)
    bias := ← optional "bias" (triple number)
    cutoff := ← optional "lowpass_hz" number
    range := ← optional "range" number }

/-- The rate of a simulation, and its seed. -/
def pace : Reader (Scalar × Option UInt64) := record do
  return (← required "rate_hz" number, ← optional "seed" word64)

/-- The settings of a simulation. -/
def simulation : Reader SimulationSettings := record do
  let d : SimulationSettings := {}
  let (rate, seed) ← withDefault "simulation" (d.rate, d.seed) pace
  return {
    rate := rate
    seed := seed
    initial := ← withDefault "initial" d.initial initialState
    vehicle := ← withDefault "vehicle" d.vehicle vehicleSettings
    battery := ← withDefault "battery" d.battery cellParams
    acc := ← withDefault "acc_dist" d.acc sensorFlaws
    gyro := ← withDefault "gyr_dist" d.gyro sensorFlaws
    voltageNoise := ← withDefault "vbat_dist" d.voltageNoise fun v => some <$> number v }

end Quadrotor.Settings

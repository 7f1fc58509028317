import Quadrotor.Scalar
import Quadrotor.Scalar.Exact
import Quadrotor.Scalar.Circular
import Quadrotor.Scalar.Decimal
import Quadrotor.Time
import Quadrotor.Hex
import Quadrotor.Axes
import Quadrotor.Vector
import Quadrotor.Vector.Rotation
import Quadrotor.Radio.Channels
import Quadrotor.Error
import Quadrotor.Status
import Quadrotor.Radio.Switches
import Quadrotor.Radio.Rates
import Quadrotor.Filter.Lowpass
import Quadrotor.Filter.Kalman
import Quadrotor.Filter.Statistics
import Quadrotor.Filter.Conditioner
import Quadrotor.Filter.Attitude
import Quadrotor.Battery.Monitor
import Quadrotor.Control.RatePid
import Quadrotor.Control.AnglePid
import Quadrotor.Control.Setpoints
import Quadrotor.Control.RateController
import Quadrotor.Control.Airframe
import Quadrotor.Control.Mixer
import Quadrotor.Flight.Counter
import Quadrotor.Flight.Gesture
import Quadrotor.Flight.Arming
import Quadrotor.Flight.Schedule
import Quadrotor.Flight.Watch
import Quadrotor.Tuning.Params
import Quadrotor.Tuning.Table
import Quadrotor.Storage.Checksum
import Quadrotor.Storage.Record
import Quadrotor.Storage.Flash
import Quadrotor.Storage.Store
import Quadrotor.Flight.Config
import Quadrotor.Settings.Value
import Quadrotor.Settings.Config
import Quadrotor.Settings.Document
import Quadrotor.Settings.Toml.Scan
import Quadrotor.Settings.Toml.Moment
import Quadrotor.Settings.Toml
import Quadrotor.Flight.Inputs
import Quadrotor.Flight.Core
import Quadrotor.Simulation.Thrust
import Quadrotor.Simulation.Cell
import Quadrotor.Simulation.Error
import Quadrotor.Simulation.Sensor
import Quadrotor.Simulation.Vehicle
import Quadrotor.Simulation.Config
import Quadrotor.Simulation.World
import Quadrotor.Settings.Simulation
import Quadrotor.Simulation.Pilot
import Quadrotor.Flight.Log
import Quadrotor.Simulation.Flight
import Quadrotor.CommandLine
import Quadrotor.Main
import Quadrotor.Settings.Written
import Quadrotor.Proofs.Scalar.Format
import Quadrotor.Proofs.Scalar.Order
import Quadrotor.Proofs.Scalar.Rounding
import Quadrotor.Proofs.Scalar.Arithmetic
import Quadrotor.Proofs.Scalar.Nonneg
import Quadrotor.Proofs.Scalar.Nearest
import Quadrotor.Proofs.Scalar.Mean
import Quadrotor.Proofs.Scalar.Overflow
import Quadrotor.Proofs.Scalar.Sign
import Quadrotor.Proofs.Scalar.Alike
import Quadrotor.Proofs.Scalar.Fields
import Quadrotor.Proofs.Scalar.Direction
import Quadrotor.Proofs.Scalar.WholeNumber
import Quadrotor.Proofs.Scalar.Quotient
import Quadrotor.Proofs.Checks
import Quadrotor.Proofs.Filter.Gains
import Quadrotor.Proofs.Filter.FiniteOutput
import Quadrotor.Proofs.Filter.TunedPeriod
import Quadrotor.Proofs.Filter.Channels
import Quadrotor.Proofs.Filter.SteadyGain
import Quadrotor.Proofs.Control.MixerBounds
import Quadrotor.Proofs.Control.Limits
import Quadrotor.Proofs.Control.Carryover
import Quadrotor.Proofs.Control.IntegralClamp
import Quadrotor.Proofs.Control.DerivativeTerm
import Quadrotor.Proofs.Radio.StickDirection
import Quadrotor.Proofs.Radio.StickSymmetry
import Quadrotor.Proofs.Flight.TickGrid
import Quadrotor.Proofs.Flight.Freshness
import Quadrotor.Proofs.Flight.ArmingStep
import Quadrotor.Proofs.Flight.ArmingCondition
import Quadrotor.Proofs.Flight.Tick
import Quadrotor.Proofs.Flight.Events
import Quadrotor.Proofs.Flight.Decision
import Quadrotor.Proofs.Flight.Run
import Quadrotor.Proofs.Filter.AttitudeHealing
import Quadrotor.Proofs.Control.LevelingLimit
import Quadrotor.Proofs.Control.Windup
import Quadrotor.Proofs.Control.LevelingMemory
import Quadrotor.Proofs.Control.AxisIndependence
import Quadrotor.Proofs.Flight.MotorSafety
import Quadrotor.Proofs.Flight.Failsafe
import Quadrotor.Proofs.Flight.Landing
import Quadrotor.Proofs.Flight.Touchdown
import Quadrotor.Proofs.Flight.Session
import Quadrotor.Proofs.Flight.EventLog
import Quadrotor.Proofs.Flight.Listening
import Quadrotor.Proofs.Flight.GestureHistory
import Quadrotor.Proofs.Flight.GestureRules
import Quadrotor.Proofs.Flight.Recognition
import Quadrotor.Proofs.Flight.Retuning
import Quadrotor.Proofs.Flight.DeferredSave
import Quadrotor.Proofs.Flight.StickIndependence
import Quadrotor.Proofs.Flight.Handover
import Quadrotor.Proofs.Storage.Bursts
import Quadrotor.Proofs.Storage.Remainder
import Quadrotor.Proofs.Storage.Payload
import Quadrotor.Proofs.Storage.RecordCodec
import Quadrotor.Proofs.Flight.Startup
import Quadrotor.Proofs.Storage.Damage
import Quadrotor.Proofs.Storage.FlashCells
import Quadrotor.Proofs.Storage.FlashHistory
import Quadrotor.Proofs.Storage.Register
import Quadrotor.Proofs.Storage.Geometry
import Quadrotor.Proofs.Tuning.Validity
import Quadrotor.Proofs.Tuning.NamedAccess
import Quadrotor.Proofs.Tuning.GestureEffects
import Quadrotor.Proofs.Battery.Warning
import Quadrotor.Proofs.Simulation.StepTime
import Quadrotor.Proofs.Simulation.WaitEnds
import Quadrotor.Proofs.Simulation.CellDrain

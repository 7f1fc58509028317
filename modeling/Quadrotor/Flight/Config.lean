import Quadrotor.Battery.Monitor
import Quadrotor.Control.Mixer
import Quadrotor.Control.RateController
import Quadrotor.Control.Setpoints
import Quadrotor.Filter.Attitude
import Quadrotor.Flight.Arming
import Quadrotor.Flight.Gesture
import Quadrotor.Radio.Switches

/-!
# Flight configuration

The static configuration of the flight core, and the check that it has to pass before a control loop
is built from it. The check goes through the sections in a fixed order and reports the first fault.
-/

namespace Quadrotor

/-- The static configuration. -/
structure FlightConfig where
  /-- Tick period [µs]. -/
  loopPeriod : UInt32 := 1000
  filters : FilterPreset := .alienwhoopZero
  rates : StickRates := {}
  switches : Switches SwitchSource := .standard
  level : LevelConfig := {}
  rateControl : RateControlConfig := RateControlConfig.standard
  attitude : AttitudeConfig := {}
  mixer : MixerConfig := {}
  battery : BatteryConfig := {}
  arming : ArmingConfig := {}
  gesture : GestureConfig := {}
  deriving BEq, Repr, Inhabited

namespace FlightConfig

/-- The shortest tick period [µs]. -/
def minLoopPeriod : UInt32 := 100

/-- The longest tick period [µs]. -/
def maxLoopPeriod : UInt32 := 20000

/-- Tick period [s]. -/
def period (c : FlightConfig) : Scalar := c.loopPeriod.toFloat32 * 1e-6

/-- The rate controllers with the derivative filter of the filter preset. -/
def controllers (c : FlightConfig) : RateControlConfig :=
  c.rateControl.withDerivative c.filters.resolve.derivative

/-- Refuses a configuration that cannot make a stable loop. -/
def validate (c : FlightConfig) : Check := do
  require (decide (minLoopPeriod ≤ c.loopPeriod) && decide (c.loopPeriod ≤ maxLoopPeriod))
    (.loopPeriod c.loopPeriod)
  c.filters.resolve.check
  c.rates.check
  c.switches.check
  c.level.check
  c.controllers.check
  c.battery.check
  c.arming.check
  c.gesture.check
  c.attitude.check
  c.mixer.check

end FlightConfig

end Quadrotor

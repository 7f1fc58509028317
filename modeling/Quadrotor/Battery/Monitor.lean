import Quadrotor.Error
import Quadrotor.Filter.Lowpass

/-!
# Battery monitor

The cell voltage sags under load. The monitor smooths the readings, adds the sag back, and decides on
the low battery warning, on the low-voltage cutoff, and on how much the controllers have to make up
for a weaker battery. The first reading is the starting point of the filter.
-/

namespace Quadrotor

/-- Voltages are those of a single cell. -/
structure BatteryConfig where
  /-- Cutoff of the voltage filter [Hz]. -/
  filterCutoff : Scalar := 2.0
  /-- Sag per unit of throttle [V]. -/
  sag : Scalar := 0.7
  /-- Voltage without load below which the cutoff applies [V]. -/
  cutoffVoltage : Scalar := 3.30
  /-- Voltage under load below which the cutoff applies in any case [V]. -/
  cutoffRawVoltage : Scalar := 2.70
  /-- Landing decay per volt below `cutoffRawVoltage` [1/(V s)]. -/
  landingGain : Scalar := 3.0
  /-- Voltage without load below which the warning is raised [V]. -/
  warnVoltage : Scalar := 3.5
  /-- The warning is cleared this far above `warnVoltage` [V]. -/
  warnHysteresis : Scalar := 0.10
  /-- Make the controllers stronger as the battery drains. -/
  voltageCompensation : Bool := true
  deriving BEq, Repr, Inhabited

/-- Refuses voltages and gains that are not positive numbers. -/
def BatteryConfig.check (c : BatteryConfig) : Check := do
  require (Scalar.isPositive c.filterCutoff) (.cutoff c.filterCutoff)
  require (Scalar.isNonneg c.sag) (.threshold "battery.vdrop_factor")
  require (Scalar.isPositive c.cutoffVoltage && Scalar.isPositive c.cutoffRawVoltage)
    (.threshold "battery.lvc_voltage")
  require (Scalar.isNonneg c.landingGain) (.threshold "battery.lvc_kp")
  require (Scalar.isPositive c.warnVoltage && decide (0.0 ≤ c.warnHysteresis))
    (.threshold "battery.warn_voltage")

/-- What the latest reading says. -/
structure BatteryState where
  /-- Smoothed voltage [V]. -/
  filtered : Scalar := 0.0
  /-- Smoothed voltage with the sag added back [V]. -/
  compensated : Scalar := 0.0
  /-- Multiplier of the controller outputs. -/
  outputScale : Scalar := 0.0
  /-- The low-voltage cutoff applies. -/
  cutoff : Bool := false
  /-- The low battery warning is up. -/
  low : Bool := false
  deriving BEq, Repr, Inhabited

/-- A change of the low battery warning. -/
inductive WarningChange where
  | raised
  | cleared
  deriving DecidableEq, Repr, Inhabited

/-- The name of the change. -/
def WarningChange.name : WarningChange → String
  | raised => "Raised"
  | cleared => "Cleared"

/-- The running monitor. -/
structure BatteryMonitor where
  config : BatteryConfig
  filter : Lowpass Scalar
  /-- A reading has arrived. -/
  started : Bool := false
  /-- The first reading was below the cutoff voltage. -/
  startupLow : Bool := false
  state : BatteryState := { outputScale := 1.0 }
  deriving Repr, Inhabited

namespace BatteryMonitor

/-- No reading yet, and readings to come every `dt` seconds. -/
def new (config : BatteryConfig) (dt : Scalar) : BatteryMonitor :=
  { config := config, filter := Lowpass.ofCutoff config.filterCutoff dt }

/-- The multiplier for a smoothed voltage: one for a full cell, and more down to an empty one. -/
def outputScaleFor (c : BatteryConfig) (filtered : Scalar) : Scalar :=
  if c.voltageCompensation then Scalar.linearMapWithin 3.0 4.0 1.33 1.0 filtered else 1.0

/-- The change of the warning, with some voltage between raising and clearing it. -/
def warningChange (c : BatteryConfig) (low : Bool) (compensated : Scalar) : Option WarningChange :=
  if !low && decide (compensated < c.warnVoltage) then some .raised
  else if low && decide (c.warnVoltage + c.warnHysteresis < compensated) then some .cleared
  else none

/-- Whether the warning is up after a change. -/
def lowAfter (low : Bool) : Option WarningChange → Bool
  | some .raised => true
  | some .cleared => false
  | none => low

/-- The monitor with its filter at rest at the first reading. -/
def start (m : BatteryMonitor) (voltage : Scalar) : BatteryMonitor :=
  if m.started then m
  else
    { m with
      filter := m.filter.reset voltage
      started := true
      startupLow := decide (voltage < m.config.cutoffVoltage) }

/-- One more reading, and the throttle in use when it was taken. A reading that is not a finite
number is ignored. -/
def update (m : BatteryMonitor) (voltage throttle : Scalar) :
    BatteryMonitor × Option WarningChange :=
  if voltage.isFinite then
    let m := m.start voltage
    let filter := m.filter.update voltage
    let filtered := filter.y
    let compensated := filtered + m.config.sag * Scalar.confine 0.0 1.0 throttle
    let change := warningChange m.config m.state.low compensated
    let state : BatteryState :=
      { filtered := filtered
        compensated := compensated
        outputScale := outputScaleFor m.config filtered
        cutoff := decide (compensated < m.config.cutoffVoltage) ||
          decide (filtered < m.config.cutoffRawVoltage)
        low := lowAfter m.state.low change }
    ({ m with filter := filter, state := state }, change)
  else (m, none)

/-- Additional decay of the landing throttle [1/s] for a battery drained below the raw cutoff. -/
def landingDecay (m : BatteryMonitor) : Scalar :=
  if m.started then
    m.config.landingGain * Scalar.maxNum (m.config.cutoffRawVoltage - m.state.filtered) 0.0
  else 0.0

end BatteryMonitor

end Quadrotor

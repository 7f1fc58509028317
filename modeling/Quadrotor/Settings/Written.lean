import Quadrotor.Flight.Config
import Quadrotor.Settings.Value

/-!
# Configuration as settings

The flight configuration written out as settings, in the shape that its readers take. Limits that are
switched off are left out, and everything else is stated.
-/

namespace Quadrotor.Settings

/-- A number. -/
def ofScalar (x : Scalar) : Value := .real x.toFloat

/-- A count. -/
def ofCount (n : UInt32) : Value := .integer n.toNat

/-- The entry of a value that may be missing. -/
def ofOptional (name : String) (v : Option Value) : List (String × Value) :=
  (v.map fun v => (name, v)).toList

/-- A table of numbers. -/
def ofNumbers (entries : List (String × Scalar)) : Value :=
  .table (entries.map fun e => (e.1, ofScalar e.2))

/-- An alternative with numbers for its content. -/
def ofAlternative (name : String) (entries : List (String × Scalar)) : Value :=
  .table [(name, ofNumbers entries)]

/-- A derivative filter. -/
def ofDerivativeFilter : DerivativeFilter → Value
  | .firstOrder c => ofAlternative "FirstOrder" [("cutoff_hz", c)]
  | .secondOrder c => ofAlternative "SecondOrder" [("cutoff_hz", c)]

/-- A conditioning stage. -/
def ofStage (s : StageConfig) : Value :=
  let kind := match s.kind with
    | .kalman => "Kalman"
    | .lowpass => "Pt1"
  .table [("kind", .text kind), ("cutoff_hz", ofScalar s.cutoff)]

/-- A set of filters. -/
def ofFilterConfig (c : FilterConfig) : Value :=
  .table (ofOptional "gyro_pass1" (c.gyroPass1.map ofStage) ++
    ofOptional "gyro_pass2" (c.gyroPass2.map ofStage) ++
    [("acc_cutoff_hz", ofScalar c.accCutoff), ("d_filter", ofDerivativeFilter c.derivative)])

/-- A named set of filters, or one of its own. -/
def ofFilterPreset : FilterPreset → Value
  | .alienwhoopZero => .text "AlienwhoopZero"
  | .weak => .text "Weak"
  | .strong => .text "Strong"
  | .veryStrong => .text "VeryStrong"
  | .custom c => .table [("Custom", ofFilterConfig c)]

/-- The response of one stick. -/
def ofStickCurve : StickCurve → Value
  | .expo maxRate e => ofAlternative "Expo" [("max_rate", maxRate), ("expo", e)]
  | .betaflight rcRate superRate e =>
    ofAlternative "Betaflight" [("rc_rate", rcRate), ("super_rate", superRate), ("expo", e)]
  | .actual rate e centre => ofAlternative "Actual" [("rate", rate), ("expo", e), ("cent", centre)]

/-- The response of all sticks. -/
def ofStickRates (r : StickRates) : Value :=
  .table [("roll", ofStickCurve r.roll), ("pitch", ofStickCurve r.pitch), ("yaw", ofStickCurve r.yaw),
    ("low_rates_multiplier", ofScalar r.lowRatesMultiplier), ("deadband", ofScalar r.deadband)]

/-- Where a feature takes its state from. -/
def ofSwitchSource : SwitchSource → Value
  | .channel index => .table [("Channel", .integer index.toNat)]
  | .alwaysOn => .text "AlwaysOn"
  | .alwaysOff => .text "AlwaysOff"

/-- The sources of all features. -/
def ofSwitches (s : Switches SwitchSource) : Value :=
  .table [("arming", ofSwitchSource s.arming), ("idle_up", ofSwitchSource s.idleUp),
    ("level_mode", ofSwitchSource s.leveling), ("horizon", ofSwitchSource s.horizon),
    ("race_mode", ofSwitchSource s.race), ("high_rates", ofSwitchSource s.highRates),
    ("pid_profile_b", ofSwitchSource s.profileB)]

/-- How leveled axes behave. -/
def ofLevel (c : LevelConfig) : Value :=
  let pid := c.anglePid
  .table [("max_angle", ofScalar c.maxAngle), ("max_rate", ofScalar c.maxRate),
    ("horizon_transition", ofScalar c.transition), ("attenuation", ofScalar c.attenuation),
    ("angle_pid", ofNumbers [("kp", pid.kp), ("ki", pid.ki), ("kd", pid.kd),
      ("d_cutoff_hz", pid.derivativeCutoff)])]

/-- The structure of one rate controller. -/
def ofRatePid (c : RatePidConfig) : Value :=
  .table ([("i_limit", ofScalar c.integralLimit), ("out_limit", ofScalar c.outputLimit),
    ("ground_leak", ofScalar c.groundLeak), ("d_filter", ofDerivativeFilter c.derivative)] ++
    ofOptional "windup_protection" (c.windup.map fun w =>
      ofNumbers [("threshold", w.threshold), ("cutoff_hz", w.cutoff)]))

/-- The structure of the rate controllers. -/
def ofRateControl (c : RateControlConfig) : Value :=
  .table [("roll", ofRatePid c.x), ("pitch", ofRatePid c.y), ("yaw", ofRatePid c.z)]

/-- How the accelerometer is trusted. -/
def ofAttitude (c : AttitudeConfig) : Value :=
  ofNumbers [("tau", c.tau), ("acc_trust_band", c.trustBand), ("acc_min_g", c.accMin),
    ("acc_max_g", c.accMax), ("max_dt", c.maxStep)]

/-- The limits of the mixer. -/
def ofMixer (c : MixerConfig) : Value :=
  .table (ofOptional "lower_throttle_max" (c.lowerMax.map ofScalar) ++
    ofOptional "boost_max" (c.raiseMax.map ofScalar) ++
    [("boost_latch_throttle", ofScalar c.raiseThrottle)] ++
    ofOptional "clip_carry_max" (c.carryMax.map ofScalar) ++ [("motor_min", ofScalar c.motorMin)])

/-- The voltages of the battery monitor. -/
def ofBattery (c : BatteryConfig) : Value :=
  .table [("filter_cutoff_hz", ofScalar c.filterCutoff), ("vdrop_factor", ofScalar c.sag),
    ("lvc_voltage", ofScalar c.cutoffVoltage), ("lvc_raw_voltage", ofScalar c.cutoffRawVoltage),
    ("lvc_kp", ofScalar c.landingGain), ("warn_voltage", ofScalar c.warnVoltage),
    ("warn_hysteresis", ofScalar c.warnHysteresis),
    ("voltage_compensation", .flag c.voltageCompensation)]

/-- The limits of the arming state machine. -/
def ofArming (c : ArmingConfig) : Value :=
  .table [("throttle_safety", ofScalar c.safeThrottle), ("failsafe_ticks", ofCount c.linkTimeout),
    ("sensor_timeout_ticks", ofCount c.sensorTimeout), ("landing_rate", ofScalar c.landingRate),
    ("idle_throttle", ofScalar c.idleThrottle)]

/-- How stick excursions are told apart. -/
def ofGesture (c : GestureConfig) : Value :=
  .table [("divider", ofCount c.divider), ("threshold", ofScalar c.threshold),
    ("center", ofScalar c.centre), ("timeout_ticks", ofCount c.timeout)]

/-- The flight configuration. -/
def ofFlightConfig (c : FlightConfig) : Value :=
  .table [("loop_period_us", ofCount c.loopPeriod), ("filters", ofFilterPreset c.filters),
    ("rates", ofStickRates c.rates), ("aux", ofSwitches c.switches), ("level", ofLevel c.level),
    ("rate_control", ofRateControl c.rateControl), ("estimator", ofAttitude c.attitude),
    ("mixer", ofMixer c.mixer), ("battery", ofBattery c.battery), ("flight_state", ofArming c.arming),
    ("gesture", ofGesture c.gesture)]

end Quadrotor.Settings

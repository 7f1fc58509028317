import Quadrotor.Flight.Config
import Quadrotor.Settings.Value
import Quadrotor.Tuning.Params

/-!
# Flight configuration from settings

Readers of the flight configuration and of the parameter set. A section that is left out stands for
its default; one that is given has to be complete, except for limits that may be switched off by
leaving them out.
-/

namespace Quadrotor.Settings

/-- A derivative filter. -/
def derivativeFilter : Reader DerivativeFilter := fun v => do
  match ← alternative v with
  | ("FirstOrder", some c) => .firstOrder <$> content ["cutoff_hz"] (required "cutoff_hz" number) c
  | ("SecondOrder", some c) => .secondOrder <$> content ["cutoff_hz"] (required "cutoff_hz" number) c
  | _ => failure

/-- The family of a conditioning stage. -/
def stageKind : Reader StageKind := fun v => do
  match ← alternative v with
  | ("Kalman", c) => if isBare c then return .kalman else failure
  | ("Pt1", c) => if isBare c then return .lowpass else failure
  | _ => failure

/-- A conditioning stage. -/
def stage : Reader StageConfig := record do
  return ⟨← required "kind" stageKind, ← required "cutoff_hz" number⟩

/-- A set of filters. -/
def filterConfig : Reader FilterConfig := record do
  return {
    gyroPass1 := ← optional "gyro_pass1" stage
    gyroPass2 := ← optional "gyro_pass2" stage
    accCutoff := ← required "acc_cutoff_hz" number
    derivative := ← required "d_filter" derivativeFilter }

/-- A named set of filters, or one of its own. -/
def filterPreset : Reader FilterPreset := fun v => do
  match ← alternative v with
  | ("AlienwhoopZero", c) => if isBare c then return .alienwhoopZero else failure
  | ("Weak", c) => if isBare c then return .weak else failure
  | ("Strong", c) => if isBare c then return .strong else failure
  | ("VeryStrong", c) => if isBare c then return .veryStrong else failure
  | ("Custom", some c) => return .custom (← filterConfig c)
  | _ => failure

/-- The response of one stick. -/
def stickCurve : Reader StickCurve := fun v => do
  match ← alternative v with
  | ("Expo", some c) =>
    c |> record do return .expo (← required "max_rate" number) (← required "expo" number)
  | ("Betaflight", some c) =>
    c |> record do
      return .betaflight (← required "rc_rate" number) (← required "super_rate" number)
        (← required "expo" number)
  | ("Actual", some c) =>
    c |> record do
      return .actual (← required "rate" number) (← required "expo" number) (← required "cent" number)
  | _ => failure

/-- The response of all sticks. -/
def stickRates : Reader StickRates := record do
  return {
    roll := ← required "roll" stickCurve
    pitch := ← required "pitch" stickCurve
    yaw := ← required "yaw" stickCurve
    lowRatesMultiplier := ← required "low_rates_multiplier" number
    deadband := ← required "deadband" number }

/-- Where a feature takes its state from. -/
def switchSource : Reader SwitchSource := fun v => do
  match ← alternative v with
  | ("Channel", some c) => return .channel (← byte c)
  | ("AlwaysOn", c) => if isBare c then return .alwaysOn else failure
  | ("AlwaysOff", c) => if isBare c then return .alwaysOff else failure
  | _ => failure

/-- The sources of all features. -/
def switches : Reader (Switches SwitchSource) := record do
  return {
    arming := ← required "arming" switchSource
    idleUp := ← required "idle_up" switchSource
    leveling := ← required "level_mode" switchSource
    horizon := ← required "horizon" switchSource
    race := ← required "race_mode" switchSource
    highRates := ← required "high_rates" switchSource
    profileB := ← required "pid_profile_b" switchSource }

/-- The gains of the angle controllers. -/
def anglePid : Reader AnglePidConfig := record do
  return {
    kp := ← required "kp" number
    ki := ← required "ki" number
    kd := ← required "kd" number
    derivativeCutoff := ← required "d_cutoff_hz" number }

/-- How leveled axes behave. -/
def level : Reader LevelConfig := record do
  return {
    maxAngle := ← required "max_angle" number
    maxRate := ← required "max_rate" number
    transition := ← required "horizon_transition" number
    attenuation := ← required "attenuation" number
    anglePid := ← required "angle_pid" anglePid }

/-- How integration is slowed while a setpoint moves. -/
def windup : Reader WindupProtection := record do
  return ⟨← required "threshold" number, ← required "cutoff_hz" number⟩

/-- The structure of one rate controller. -/
def ratePid : Reader RatePidConfig := record do
  return {
    integralLimit := ← required "i_limit" number
    outputLimit := ← required "out_limit" number
    groundLeak := ← required "ground_leak" number
    derivative := ← required "d_filter" derivativeFilter
    windup := ← optional "windup_protection" windup }

/-- The structure of the rate controllers. -/
def rateControl : Reader RateControlConfig := record do
  return ⟨← required "roll" ratePid, ← required "pitch" ratePid, ← required "yaw" ratePid⟩

/-- How the accelerometer is trusted. -/
def attitude : Reader AttitudeConfig := record do
  return {
    tau := ← required "tau" number
    trustBand := ← required "acc_trust_band" number
    accMin := ← required "acc_min_g" number
    accMax := ← required "acc_max_g" number
    maxStep := ← required "max_dt" number }

/-- The limits of the mixer. -/
def mixer : Reader MixerConfig := record do
  return {
    lowerMax := ← optional "lower_throttle_max" number
    raiseMax := ← optional "boost_max" number
    raiseThrottle := ← required "boost_latch_throttle" number
    carryMax := ← optional "clip_carry_max" number
    motorMin := ← required "motor_min" number }

/-- The voltages of the battery monitor. -/
def battery : Reader BatteryConfig := record do
  return {
    filterCutoff := ← required "filter_cutoff_hz" number
    sag := ← required "vdrop_factor" number
    cutoffVoltage := ← required "lvc_voltage" number
    cutoffRawVoltage := ← required "lvc_raw_voltage" number
    landingGain := ← required "lvc_kp" number
    warnVoltage := ← required "warn_voltage" number
    warnHysteresis := ← required "warn_hysteresis" number
    voltageCompensation := ← required "voltage_compensation" truth }

/-- The limits of the arming state machine. -/
def arming : Reader ArmingConfig := record do
  return {
    safeThrottle := ← required "throttle_safety" number
    linkTimeout := ← required "failsafe_ticks" word32
    sensorTimeout := ← required "sensor_timeout_ticks" word32
    landingRate := ← required "landing_rate" number
    idleThrottle := ← required "idle_throttle" number }

/-- How stick excursions are told apart. -/
def gesture : Reader GestureConfig := record do
  return {
    divider := ← required "divider" word32
    threshold := ← required "threshold" number
    centre := ← required "center" number
    timeout := ← required "timeout_ticks" word32 }

/-- The flight configuration. -/
def flightConfig : Reader FlightConfig := record do
  let d : FlightConfig := {}
  return {
    loopPeriod := ← withDefault "loop_period_us" d.loopPeriod word32
    filters := ← withDefault "filters" d.filters filterPreset
    rates := ← withDefault "rates" d.rates stickRates
    switches := ← withDefault "aux" d.switches switches
    level := ← withDefault "level" d.level level
    rateControl := ← withDefault "rate_control" d.rateControl rateControl
    attitude := ← withDefault "estimator" d.attitude attitude
    mixer := ← withDefault "mixer" d.mixer mixer
    battery := ← withDefault "battery" d.battery battery
    arming := ← withDefault "flight_state" d.arming arming
    gesture := ← withDefault "gesture" d.gesture gesture }

/-- The gains of one axis. -/
def gains : Reader Gains := record do
  return ⟨← required "kp" number, ← required "ki" number, ← required "kd" number⟩

/-- The parameter set. -/
def tuningParams : Reader TuningParams := record do
  let (profileA, profileB) ← required "pid_profiles" (pair (triple gains))
  let (roll, pitch) ← required "trims" (pair number)
  return {
    profileA := profileA
    profileB := profileB
    trims := ⟨roll, pitch⟩
    accOffsets := ← required "acc_offsets" (triple number)
    lvcEnabled := ← required "lvc_enabled" truth
    yawInverted := ← required "yaw_inverted" truth }

end Quadrotor.Settings

import Quadrotor.Control.Airframe
import Quadrotor.Filter.Lowpass
import Quadrotor.Simulation.Thrust
import Quadrotor.Time
import Quadrotor.Vector.Rotation

/-!
# Vehicle

A rigid body with four motors over a level floor. The world frame is z up; the body frame is the one
of the flight core. A vehicle on the floor stands level and still until its thrust lifts it off.
-/

namespace Quadrotor

/-- A vehicle as built. -/
structure VehicleParams where
  /-- Mass [kg]. -/
  mass : Scalar
  /-- Inertia about the body axes [kg m²]. -/
  inertia : Vec3
  /-- Damping of the velocity [N s/m]. -/
  linearDamping : Scalar
  /-- Damping of the rates [N m s/rad]. -/
  angularDamping : Scalar
  /-- Time constant of the motors [s]. -/
  motorLag : Scalar
  thrust : ThrustCurve
  airframe : Airframe
  deriving BEq, Repr, Inhabited

/-- Where a vehicle starts. -/
structure InitialState where
  /-- Roll, pitch and yaw [rad]. -/
  angles : Triple Scalar := .fill 0.0
  /-- Height above the floor [m]. -/
  height : Scalar := 0.0
  /-- Body rates [rad/s]. -/
  rates : Vec3 := .zero
  deriving BEq, Repr, Inhabited

/-- The motion of a vehicle. -/
structure Motion where
  /-- From the body frame to the world frame. -/
  orientation : Quaternion
  /-- Position in the world frame [m]. -/
  position : Vec3
  /-- Velocity in the world frame [m/s]. -/
  velocity : Vec3
  /-- Specific force in the body frame [g]. -/
  acc : Vec3
  /-- Body rates [rad/s]. -/
  rates : Vec3
  /-- Thrust of each motor [N]. -/
  thrust : PerMotor Scalar
  onGround : Bool
  deriving Repr, Inhabited

namespace Motion

/-- The motion to start with; a height below the floor is on the floor. -/
def start (i : InitialState) : Motion :=
  let orientation := Quaternion.ofAngles i.angles.x i.angles.y i.angles.z
  let height := Scalar.maxNum i.height 0.0
  { orientation := orientation
    position := ⟨0.0, 0.0, height⟩
    velocity := .zero
    acc := orientation.inverse.apply .up
    rates := i.rates
    thrust := .fill 0.0
    onGround := height == 0.0 }

/-- Roll and pitch [rad], as the flight core estimates them. -/
def tilt (m : Motion) : Tilt Scalar := Vec3.tilt (m.orientation.inverse.apply .up)

/-- Level, with the same heading. -/
def level (q : Quaternion) : Quaternion := Quaternion.ofAngles 0.0 0.0 q.angles.z

/-- The vehicle levelled and stopped from turning. -/
def upright (m : Motion) : Motion := { m with orientation := level m.orientation, rates := .zero }

/-! ## One step -/

/-- The pull of gravity [m/s²]. -/
def gravity : Vec3 := ⟨0.0, 0.0, -Scalar.gravity⟩

/-- The thrusts after `dt` seconds of the given commands. -/
def spool (p : VehicleParams) (thrust commands : PerMotor Scalar) (dt : Scalar) : PerMotor Scalar :=
  let gain := Lowpass.gainFor p.motorLag dt
  PerMotor.zipWith (fun thrust command => thrust + (p.thrust.force command - thrust) * gain)
    thrust commands

/-- The sum over the motors of a vector for each of them, scaled by its thrust. -/
def total (f : Motor → Vec3) (airframe : Airframe) (thrust : PerMotor Scalar) : Vec3 :=
  (PerMotor.zipWith (fun motor t => Vec3.scale (f motor) t) airframe thrust).toList.foldl Vec3.add
    .zero

/-- The body rates after `dt` seconds of a torque: Euler's equations with damping. -/
def turned (p : VehicleParams) (rates torque : Vec3) (dt : Scalar) : Vec3 :=
  let gyroscopic := Vec3.cross rates (Vec3.diagonal p.inertia rates)
  let change := Vec3.divide
    (Vec3.sub (Vec3.sub torque gyroscopic) (Vec3.scale rates p.angularDamping)) p.inertia
  Vec3.add rates (Vec3.scale change dt)

/-- The vehicle held by the floor: level, at rest, and bearing its weight. -/
def rest (m : Motion) : Motion :=
  { m with
    position := { m.position with z := 0.0 }
    velocity := .zero
    orientation := level m.orientation
    rates := .zero }

/-- The vehicle after `dt` seconds of the given commands. -/
def step (p : VehicleParams) (m : Motion) (commands : PerMotor Scalar) (dt : Scalar) : Motion :=
  let thrust := spool p m.thrust commands dt
  let force := total (fun motor => Vec3.unit motor.direction) p.airframe thrust
  let torque := total Motor.torquePerThrust p.airframe thrust
  let rates := turned p m.rates torque dt
  let acc := Vec3.sub
    (Vec3.add (Vec3.reduce (m.orientation.apply force) p.mass) gravity)
    (Vec3.scale m.velocity (p.linearDamping / p.mass))
  let velocity := Vec3.add m.velocity (Vec3.scale acc dt)
  let position := Vec3.add m.position (Vec3.scale velocity dt)
  let onGround := decide (position.z ≤ 0.0) && decide (velocity.z ≤ 0.0)
  let free : Motion :=
    { m with
      thrust := thrust
      rates := rates
      velocity := velocity
      position := position
      orientation := m.orientation.mul (Quaternion.ofTurn (Vec3.scale rates dt))
      onGround := onGround }
  let specific := if onGround then Vec3.neg gravity else Vec3.sub acc gravity
  let next := if onGround then free.rest else free
  { next with acc := Vec3.reduce (next.orientation.inverse.apply specific) Scalar.gravity }

end Motion

/-- A vehicle that flies. -/
structure Vehicle where
  params : VehicleParams
  motion : Motion
  /-- Commanded duty of each motor. -/
  commands : PerMotor Scalar := .fill 0.0
  time : Time := 0
  deriving Repr, Inhabited

namespace Vehicle

/-- A vehicle at its start. -/
def new (params : VehicleParams) (initial : InitialState) : Vehicle :=
  { params := params, motion := Motion.start initial }

/-- The vehicle with other commands; what is not a number within `[0, 1]` is brought there. -/
def drive (v : Vehicle) (duties : PerMotor Scalar) : Vehicle :=
  { v with commands := duties.map (Scalar.limitOrZero 0.0 1.0) }

/-- The vehicle levelled and stopped from turning. -/
def upright (v : Vehicle) : Vehicle := { v with motion := v.motion.upright }

/-- The vehicle after `dt` seconds. -/
def step (v : Vehicle) (dt : Scalar) : Checked Vehicle := do
  return { v with
    motion := v.motion.step v.params v.commands dt
    time := ← Time.plus v.time (Time.ofSeconds dt) }

end Vehicle

end Quadrotor

import Quadrotor.Vector

/-!
# Airframe

Where the motors sit and which way their thrust turns the vehicle. The mixer needs only the signs of
the torques; the vehicle model uses the torques themselves.
-/

namespace Quadrotor

/-- A motor and its propeller. -/
structure Motor where
  /-- Position relative to the centre of mass [m]. -/
  position : Vec3
  /-- Direction of the thrust. -/
  direction : Vec3
  /-- Reaction torque per unit of thrust [m]; positive turns the frame counter-clockwise seen from
  above. -/
  reaction : Scalar
  deriving BEq, Repr, Inhabited

/-- Torque about the centre of mass per unit of thrust [m]. -/
def Motor.torquePerThrust (m : Motor) : Vec3 :=
  let direction := Vec3.unit m.direction
  Vec3.add (Vec3.cross m.position direction) (Vec3.scale direction m.reaction)

/-- Minus one, zero or one, as the value is below, at or above zero; zero for a NaN. -/
def signOf (x : Scalar) : Scalar := if 0.0 < x then 1.0 else if x < 0.0 then -1.0 else 0.0

/-- The motors of a vehicle. -/
abbrev Airframe := PerMotor Motor

namespace Airframe

/-- Motors at the corners of a rectangle, all facing up; front left and back right turn clockwise. -/
def quadX (length width reaction : Scalar) : Airframe :=
  let x := length / 2.0
  let y := width / 2.0
  let motor (x y reaction : Scalar) : Motor := ⟨⟨x, y, 0.0⟩, Vec3.up, reaction⟩
  ⟨motor (-x) y (-reaction), motor x y reaction, motor (-x) (-y) reaction, motor x (-y) (-reaction)⟩

/-- The small ducted quadrotor that the flight core is built for. -/
def standard : Airframe := quadX 0.046 0.046 0.01

/-- The directions in which the motors turn the vehicle, about each body axis. -/
def signTable (a : Airframe) : PerMotor (Triple Scalar) :=
  a.map fun m => m.torquePerThrust.map signOf

end Airframe

end Quadrotor

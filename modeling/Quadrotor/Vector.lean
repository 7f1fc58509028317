import Quadrotor.Axes
import Quadrotor.Scalar.Circular

/-!
# Vectors

The vector operations of the attitude estimate, the motor geometry and the vehicle model, on triples
of scalars. Every sum is taken from the left.
-/

namespace Quadrotor

/-- A vector of the body or of the world frame. -/
abbrev Vec3 := Triple Scalar

namespace Vec3

/-- The zero vector. -/
def zero : Vec3 := .fill 0.0

/-- The upward unit vector. -/
def up : Vec3 := ⟨0.0, 0.0, 1.0⟩

/-- The sum. -/
def add (u v : Vec3) : Vec3 := Triple.zipWith (· + ·) u v

/-- The difference. -/
def sub (u v : Vec3) : Vec3 := Triple.zipWith (· - ·) u v

/-- The quotient, component by component. -/
def divide (u v : Vec3) : Vec3 := Triple.zipWith (· / ·) u v

/-- The opposite vector. -/
def neg (v : Vec3) : Vec3 := Triple.map (fun c => -c) v

/-- The multiple by `k`. -/
def scale (v : Vec3) (k : Scalar) : Vec3 := Triple.map (· * k) v

/-- The multiple by `1 / k`. -/
def reduce (v : Vec3) (k : Scalar) : Vec3 := Triple.map (· / k) v

/-- The scalar product. -/
def dot (u v : Vec3) : Scalar := u.x * v.x + u.y * v.y + u.z * v.z

/-- The vector product. -/
def cross (u v : Vec3) : Vec3 :=
  ⟨u.y * v.z - u.z * v.y, u.z * v.x - u.x * v.z, u.x * v.y - u.y * v.x⟩

/-- The product of a matrix, given by its rows, and a vector. -/
def transform (first second third v : Vec3) : Vec3 := ⟨dot first v, dot second v, dot third v⟩

/-- The product with a diagonal matrix. The terms off the diagonal are part of the sums, so that a
component that is not finite reaches all others, and a negative zero seldom stays one. -/
def diagonal (d v : Vec3) : Vec3 := transform ⟨d.x, 0.0, 0.0⟩ ⟨0.0, d.y, 0.0⟩ ⟨0.0, 0.0, d.z⟩ v

/-- The length. -/
def norm (v : Vec3) : Scalar := (dot v v).sqrt

/-- The vector of length one in the same direction; not a number for the zero vector. -/
def unit (v : Vec3) : Vec3 := reduce v (norm v)

/-- Roll and pitch of a body that sees the upward direction `v`. -/
def tilt (v : Vec3) : Tilt Scalar :=
  ⟨Scalar.atan2 v.y v.z, Scalar.atan2 (-v.x) (v.y * v.y + v.z * v.z).sqrt⟩

end Vec3

end Quadrotor

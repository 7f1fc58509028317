import Quadrotor.Vector

/-!
# Rotations

Turning a vector by an axis and an angle, and unit quaternions as orientations of the vehicle: their
product, their action on vectors, and the angles of roll, pitch and yaw that they stand for.
-/

namespace Quadrotor

/-- `v` turned about the direction of `turn` by the length of `turn` in radians: its product with the
matrix of the rotation, which is the identity for a turn without a length. -/
def Vec3.rotate (turn v : Vec3) : Vec3 :=
  let angle := Vec3.norm turn
  if angle == 0.0 then Vec3.diagonal (.fill 1.0) v
  else
    let u := Vec3.reduce turn angle
    let s := Scalar.sin angle
    let c := Scalar.cos angle
    let k := 1.0 - c
    Vec3.transform
      ⟨u.x * u.x + (1.0 - u.x * u.x) * c, u.x * u.y * k - u.z * s, u.x * u.z * k + u.y * s⟩
      ⟨u.x * u.y * k + u.z * s, u.y * u.y + (1.0 - u.y * u.y) * c, u.y * u.z * k - u.x * s⟩
      ⟨u.x * u.z * k - u.y * s, u.y * u.z * k + u.x * s, u.z * u.z + (1.0 - u.z * u.z) * c⟩
      v

/-- A quaternion `w + v`; an orientation where its length is one. -/
structure Quaternion where
  /-- The scalar part. -/
  w : Scalar
  /-- The vector part. -/
  v : Vec3
  deriving Repr, Inhabited

namespace Quaternion

/-- No rotation. -/
def one : Quaternion := ⟨1.0, .zero⟩

/-- The opposite rotation, of a unit quaternion. -/
def inverse (q : Quaternion) : Quaternion := ⟨q.w, Vec3.neg q.v⟩

/-- The rotation `p` after the rotation `q`. -/
def mul (p q : Quaternion) : Quaternion :=
  ⟨p.w * q.w - p.v.x * q.v.x - p.v.y * q.v.y - p.v.z * q.v.z,
    ⟨p.w * q.v.x + p.v.x * q.w + p.v.y * q.v.z - p.v.z * q.v.y,
      p.w * q.v.y - p.v.x * q.v.z + p.v.y * q.w + p.v.z * q.v.x,
      p.w * q.v.z + p.v.x * q.v.y - p.v.y * q.v.x + p.v.z * q.w⟩⟩

/-- The vector turned by a unit quaternion. -/
def apply (q : Quaternion) (u : Vec3) : Vec3 :=
  let t := Vec3.scale (Vec3.cross q.v u) 2.0
  Vec3.add (Vec3.add (Vec3.scale t q.w) (Vec3.cross q.v t)) u

/-- The rotation about the direction of `turn` by its length; none for a length that squares to
nothing. -/
def ofTurn (turn : Vec3) : Quaternion :=
  let half := Vec3.reduce turn 2.0
  let square := Vec3.dot half half
  if square ≤ Scalar.epsilon * Scalar.epsilon then one
  else
    let angle := square.sqrt
    ⟨Scalar.cos angle, Vec3.scale half (Scalar.sin angle / angle)⟩

/-- Roll first, then pitch, then yaw, each about its axis of the world frame. -/
def ofAngles (roll pitch yaw : Scalar) : Quaternion :=
  let sr := Scalar.sin (roll * 0.5)
  let cr := Scalar.cos (roll * 0.5)
  let sp := Scalar.sin (pitch * 0.5)
  let cp := Scalar.cos (pitch * 0.5)
  let sy := Scalar.sin (yaw * 0.5)
  let cy := Scalar.cos (yaw * 0.5)
  ⟨cr * cp * cy + sr * sp * sy,
    ⟨sr * cp * cy - cr * sp * sy, cr * sp * cy + sr * cp * sy, cr * cp * sy - sr * sp * cy⟩⟩

/-- The angles of roll, pitch and yaw of `ofAngles`, read off the rotation matrix. With the nose
straight up or down, roll and yaw turn about the same axis, and all of the turn counts as roll. What is
not a rotation counts as one with the nose up, so that its yaw is a number. -/
def angles (q : Quaternion) : Triple Scalar :=
  let ⟨w, i, j, k⟩ := q
  let m20 := i * k * 2.0 - w * j * 2.0
  if m20.abs < 1.0 then
    let m00 := w * w + i * i - j * j - k * k
    let m10 := w * k * 2.0 + i * j * 2.0
    let m21 := w * i * 2.0 + j * k * 2.0
    let m22 := w * w - i * i - j * j + k * k
    let pitch := -Scalar.asin m20
    let c := Scalar.cos pitch
    ⟨Scalar.atan2 (m21 / c) (m22 / c), pitch, Scalar.atan2 (m10 / c) (m00 / c)⟩
  else
    let m01 := i * j * 2.0 - w * k * 2.0
    let m02 := w * j * 2.0 + i * k * 2.0
    if m20 ≤ -1.0 then ⟨Scalar.atan2 m01 m02, Scalar.pi / 2.0, 0.0⟩
    else ⟨-Scalar.atan2 m01 (-m02), -(Scalar.pi / 2.0), 0.0⟩

end Quaternion

end Quadrotor

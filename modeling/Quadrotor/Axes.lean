import Quadrotor.Scalar

/-!
# Axes and motors

Index sets of the vehicle and the values held for each of their members. The body frame is x
forward, y left and z up, so a `Triple` is at once a vector of the frame and a value for each of the
rotations about its axes: `x` goes with roll, `y` with pitch and `z` with yaw. Motors are numbered
back left, front left, back right, front right.
-/

namespace Quadrotor

/-- A rotation about one of the three body axes. -/
inductive Axis where
  | roll
  | pitch
  | yaw
  deriving DecidableEq, Repr, Inhabited

/-- All axes, in the order in which they are worked through. -/
def Axis.all : List Axis := [.roll, .pitch, .yaw]

/-- The name of an axis. -/
def Axis.name : Axis → String
  | .roll => "Roll"
  | .pitch => "Pitch"
  | .yaw => "Yaw"

/-- A value for each axis. -/
structure Triple (α : Type) where
  /-- Forward, or roll. -/
  x : α
  /-- Left, or pitch. -/
  y : α
  /-- Up, or yaw. -/
  z : α
  deriving DecidableEq, BEq, Repr, Inhabited

namespace Triple

variable {α β γ : Type}

/-- The same value for every axis. -/
def fill (v : α) : Triple α := ⟨v, v, v⟩

/-- The value of an axis. -/
def get (t : Triple α) : Axis → α
  | .roll => t.x
  | .pitch => t.y
  | .yaw => t.z

/-- `t` with another value for one axis. -/
def set (t : Triple α) (axis : Axis) (v : α) : Triple α :=
  match axis with
  | .roll => { t with x := v }
  | .pitch => { t with y := v }
  | .yaw => { t with z := v }

/-- The triple of the values of a function. -/
def ofFn (f : Axis → α) : Triple α := ⟨f .roll, f .pitch, f .yaw⟩

/-- Each value transformed. -/
def map (f : α → β) (t : Triple α) : Triple β := ⟨f t.x, f t.y, f t.z⟩

/-- The values of two triples combined axis by axis. -/
def zipWith (f : α → β → γ) (s : Triple α) (t : Triple β) : Triple γ :=
  ⟨f s.x t.x, f s.y t.y, f s.z t.z⟩

/-- The values in order. -/
def toList (t : Triple α) : List α := [t.x, t.y, t.z]

/-- Every value has a property. -/
def all (p : α → Bool) (t : Triple α) : Bool := p t.x && p t.y && p t.z

@[simp] theorem get_ofFn (f : Axis → α) (a : Axis) : (ofFn f).get a = f a := by cases a <;> rfl

@[simp] theorem get_map (f : α → β) (t : Triple α) (a : Axis) : (t.map f).get a = f (t.get a) := by
  cases a <;> rfl

@[simp] theorem get_zipWith (f : α → β → γ) (s : Triple α) (t : Triple β) (a : Axis) :
    (zipWith f s t).get a = f (s.get a) (t.get a) := by cases a <;> rfl

@[simp] theorem get_fill (v : α) (a : Axis) : (fill v).get a = v := by cases a <;> rfl

theorem get_set (t : Triple α) (a b : Axis) (v : α) :
    (t.set a v).get b = if a = b then v else t.get b := by cases a <;> cases b <;> rfl

theorem all_toList (p : α → Bool) (t : Triple α) : t.toList.all p = t.all p := by
  simp [toList, all, Bool.and_assoc]

theorem ext_get {s t : Triple α} (h : ∀ a, s.get a = t.get a) : s = t := by
  cases s; cases t; simp only [Triple.mk.injEq]; exact ⟨h .roll, h .pitch, h .yaw⟩

end Triple

/-- One of the two axes that the direction of gravity determines. -/
inductive TiltAxis where
  | roll
  | pitch
  deriving DecidableEq, Repr, Inhabited

/-- A value for each of the two tilt axes. -/
structure Tilt (α : Type) where
  roll : α
  pitch : α
  deriving DecidableEq, BEq, Repr, Inhabited

namespace Tilt

variable {α β : Type}

/-- The same value for both axes. -/
def fill (v : α) : Tilt α := ⟨v, v⟩

/-- The value of an axis. -/
def get (t : Tilt α) : TiltAxis → α
  | .roll => t.roll
  | .pitch => t.pitch

/-- `t` with another value for one axis. -/
def set (t : Tilt α) (axis : TiltAxis) (v : α) : Tilt α :=
  match axis with
  | .roll => { t with roll := v }
  | .pitch => { t with pitch := v }

/-- Each value transformed. -/
def map (f : α → β) (t : Tilt α) : Tilt β := ⟨f t.roll, f t.pitch⟩

/-- Both values have a property. -/
def all (p : α → Bool) (t : Tilt α) : Bool := p t.roll && p t.pitch

@[simp] theorem get_fill (v : α) (a : TiltAxis) : (fill v).get a = v := by cases a <;> rfl

theorem get_set (t : Tilt α) (a b : TiltAxis) (v : α) :
    (t.set a v).get b = if a = b then v else t.get b := by cases a <;> cases b <;> rfl

end Tilt

/-- A value for each motor. -/
structure PerMotor (α : Type) where
  backLeft : α
  frontLeft : α
  backRight : α
  frontRight : α
  deriving DecidableEq, BEq, Repr, Inhabited

namespace PerMotor

variable {α β γ : Type}

/-- The same value for every motor. -/
def fill (v : α) : PerMotor α := ⟨v, v, v, v⟩

/-- Each value transformed. -/
def map (f : α → β) (m : PerMotor α) : PerMotor β :=
  ⟨f m.backLeft, f m.frontLeft, f m.backRight, f m.frontRight⟩

/-- The values of two motor sets combined motor by motor. -/
def zipWith (f : α → β → γ) (m : PerMotor α) (n : PerMotor β) : PerMotor γ :=
  ⟨f m.backLeft n.backLeft, f m.frontLeft n.frontLeft, f m.backRight n.backRight,
    f m.frontRight n.frontRight⟩

/-- The values of a list in motor order, if it has one for each motor. -/
def ofList? : List α → Option (PerMotor α)
  | [a, b, c, d] => some ⟨a, b, c, d⟩
  | _ => none

/-- The values in motor order. -/
def toList (m : PerMotor α) : List α := [m.backLeft, m.frontLeft, m.backRight, m.frontRight]

end PerMotor

end Quadrotor

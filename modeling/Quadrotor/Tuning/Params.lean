import Quadrotor.Control.RatePid

/-!
# Tunable parameters

The parameters that the pilot may change between flights: two sets of rate controller gains, level
trims, accelerometer offsets and two flags. Each of them has a name; `ParamName` lists the names, and
`TuningParams.get` and `TuningParams.set` read and write by them.
-/

namespace Quadrotor

/-- One of the two sets of gains. -/
inductive Profile where
  | a
  | b
  deriving DecidableEq, Repr, Inhabited

/-- Both sets. -/
def Profile.all : List Profile := [.a, .b]

/-- The name of a set. -/
def Profile.name : Profile → String
  | .a => "A"
  | .b => "B"

/-- One of the three gains of an axis. -/
inductive Term where
  | p
  | i
  | d
  deriving DecidableEq, Repr, Inhabited

/-- The name of a term. -/
def Term.name : Term → String
  | .p => "P"
  | .i => "I"
  | .d => "D"

/-- The gain of a term. -/
def Gains.get (g : Gains) : Term → Scalar
  | .p => g.kp
  | .i => g.ki
  | .d => g.kd

/-- `g` with another gain for one term. -/
def Gains.set (g : Gains) (t : Term) (v : Scalar) : Gains :=
  match t with
  | .p => { g with kp := v }
  | .i => { g with ki := v }
  | .d => { g with kd := v }

/-- The parameter set. -/
structure TuningParams where
  profileA : Triple Gains := ⟨⟨0.17, 1.5, 0.0022⟩, ⟨0.17, 1.5, 0.0022⟩, ⟨0.25, 1.5, 0.0⟩⟩
  profileB : Triple Gains := ⟨⟨0.14, 1.2, 0.0019⟩, ⟨0.14, 1.2, 0.0019⟩, ⟨0.22, 1.2, 0.0⟩⟩
  /-- Roll and pitch that count as level [rad]. -/
  trims : Tilt Scalar := .fill 0.0
  /-- Accelerometer offsets [g]. -/
  accOffsets : Triple Scalar := .fill 0.0
  /-- Land when the battery is low. -/
  lvcEnabled : Bool := true
  /-- The propellers turn the other way. -/
  yawInverted : Bool := false
  deriving BEq, Repr, Inhabited

namespace TuningParams

/-- The gains of a profile. -/
def gains (p : TuningParams) : Profile → Triple Gains
  | .a => p.profileA
  | .b => p.profileB

/-- `p` with other gains in one profile. -/
def withGains (p : TuningParams) (profile : Profile) (g : Triple Gains) : TuningParams :=
  match profile with
  | .a => { p with profileA := g }
  | .b => { p with profileB := g }

/-- The largest magnitude of a trim [rad] and of an offset [g]. -/
def maxOffset : Scalar := 0.5

/-- The value is a number of at most the largest magnitude. -/
def isOffset (v : Scalar) : Bool := v.isFinite && decide (v.abs ≤ maxOffset)

/-- Every parameter is in its range. -/
def isValid (p : TuningParams) : Bool :=
  p.profileA.all Gains.isValid && p.profileB.all Gains.isValid && p.trims.all isOffset &&
    p.accOffsets.all isOffset

end TuningParams

/-- A single parameter. -/
inductive ParamName where
  | gain (profile : Profile) (axis : Axis) (term : Term)
  | trim (axis : TiltAxis)
  | accOffset (axis : Axis)
  | lvcEnabled
  | yawInverted
  deriving DecidableEq, Repr, Inhabited

namespace ParamName

/-- The group that holds the gains of a profile. -/
def groupText : Profile → String
  | .a => "rate"
  | .b => "rate_b"

/-- The name of an axis, as a rotation. -/
def axisText : Axis → String
  | .roll => "roll"
  | .pitch => "pitch"
  | .yaw => "yaw"

/-- The name of a tilt axis. -/
def tiltText : TiltAxis → String
  | .roll => "roll"
  | .pitch => "pitch"

/-- The name of an axis, as a direction. -/
def directionText : Axis → String
  | .roll => "x"
  | .pitch => "y"
  | .yaw => "z"

/-- The name of a gain. -/
def termText : Term → String
  | .p => "kp"
  | .i => "ki"
  | .d => "kd"

/-- The name of a parameter. -/
def text : ParamName → String
  | gain profile axis term => groupText profile ++ "." ++ axisText axis ++ "." ++ termText term
  | trim axis => "trim." ++ tiltText axis
  | accOffset axis => "acc_offset." ++ directionText axis
  | lvcEnabled => "lvc_enabled"
  | yawInverted => "yaw_inverted"

/-- All parameters. -/
def all : List ParamName :=
  (Profile.all.flatMap fun p => Axis.all.flatMap fun a => [Term.p, .i, .d].map (gain p a)) ++
    [trim .roll, trim .pitch] ++ Axis.all.map accOffset ++ [lvcEnabled, yawInverted]

/-- The parameter of the given name. -/
def ofText? (name : String) : Option ParamName := all.find? fun n => n.text == name

end ParamName

namespace TuningParams

/-- A flag as a number. -/
def flagValue (flag : Bool) : Scalar := if flag then 1.0 else 0.0

/-- A number as a flag. -/
def flagOf? (v : Scalar) : Option Bool :=
  if v == 0.0 then some false else if v == 1.0 then some true else none

/-- The value of a parameter. -/
def value (p : TuningParams) : ParamName → Scalar
  | .gain profile axis term => ((p.gains profile).get axis).get term
  | .trim axis => p.trims.get axis
  | .accOffset axis => p.accOffsets.get axis
  | .lvcEnabled => flagValue p.lvcEnabled
  | .yawInverted => flagValue p.yawInverted

/-- `p` with another value of a parameter, if that is in its range. -/
def assign? (p : TuningParams) (name : ParamName) (v : Scalar) : Option TuningParams :=
  match name with
  | .gain profile axis term =>
    if v < 0.0 then none
    else
      let g := p.gains profile
      some (p.withGains profile (g.set axis ((g.get axis).set term v)))
  | .trim axis => if maxOffset < v.abs then none else some { p with trims := p.trims.set axis v }
  | .accOffset axis =>
    if maxOffset < v.abs then none else some { p with accOffsets := p.accOffsets.set axis v }
  | .lvcEnabled => (flagOf? v).map fun flag => { p with lvcEnabled := flag }
  | .yawInverted => (flagOf? v).map fun flag => { p with yawInverted := flag }

/-- The value of the parameter of the given name. -/
def get (p : TuningParams) (name : String) : Except ParamError Scalar :=
  match ParamName.ofText? name with
  | some n => .ok (p.value n)
  | none => .error .unknownName

/-- `p` with another value of the parameter of the given name. A value that is not finite is refused
whatever the name. -/
def set (p : TuningParams) (name : String) (v : Scalar) : Except ParamError TuningParams :=
  if v.isFinite then
    match ParamName.ofText? name with
    | some n =>
      match p.assign? n v with
      | some q => .ok q
      | none => .error .invalidValue
    | none => .error .unknownName
  else .error .invalidValue

end TuningParams

end Quadrotor

import Quadrotor.Tuning.Params

/-!
# Tuning by gestures

The parameter set of a running control loop, with a generation number that changes whenever the set
does and the selection that gain gestures act on. Generations are 32-bit words and wrap around.
-/

namespace Quadrotor

/-- The axes that are tuned together. -/
inductive TuneGroup where
  | rollPitch
  | yaw
  deriving DecidableEq, Repr, Inhabited

/-- The name of a group. -/
def TuneGroup.name : TuneGroup → String
  | .rollPitch => "RollPitch"
  | .yaw => "Yaw"

/-- The axes of a group. -/
def TuneGroup.axes : TuneGroup → List Axis
  | .rollPitch => [.roll, .pitch]
  | .yaw => [.yaw]

/-- The next group, in turn. -/
def TuneGroup.next : TuneGroup → TuneGroup
  | .rollPitch => .yaw
  | .yaw => .rollPitch

/-- The next term, in turn. -/
def Term.next : Term → Term
  | .p => .i
  | .i => .d
  | .d => .p

/-- What is left to do once a gesture's action has been applied. -/
inductive ActionOutcome where
  /-- The parameter set has changed. -/
  | changed
  /-- Only the selection has moved. -/
  | selected
  /-- The parameter set is to be saved. -/
  | saveRequested
  /-- The check of the stick travel is to begin or to end. -/
  | stickCheck (active : Bool)
  deriving DecidableEq, Repr, Inhabited

/-- The parameter set of a running loop. -/
structure TuningTable where
  params : TuningParams
  generation : UInt32 := 0
  group : TuneGroup := .rollPitch
  term : Term := .p
  deriving Repr, Inhabited

namespace TuningTable

/-- Relative change of a gain in one step. -/
def gainStep : Scalar := 0.10

/-- Another parameter set of the next generation. -/
def replace (t : TuningTable) (params : TuningParams) : TuningTable :=
  { t with params := params, generation := t.generation + 1 }

/-- One parameter changed by name; on an error nothing changes. -/
def set (t : TuningTable) (name : String) (v : Scalar) : Except ParamError TuningTable :=
  (t.params.set name v).map t.replace

/-- The gains with the selected ones multiplied by a factor. -/
def scaled (t : TuningTable) (factor : Scalar) (g : Triple Gains) : Triple Gains :=
  t.group.axes.foldl
    (fun g axis => g.set axis ((g.get axis).set t.term ((g.get axis).get t.term * factor))) g

/-- The table with the selected gains of a profile multiplied by a factor. -/
def scale (t : TuningTable) (profile : Profile) (factor : Scalar) : TuningTable :=
  t.replace (t.params.withGains profile (t.scaled factor (t.params.gains profile)))

/-- The table after an action, and what is left to do. Gains are changed in the given profile. -/
def apply (t : TuningTable) (action : GestureAction) (profile : Profile) :
    TuningTable × ActionOutcome :=
  match action with
  | .toggleLvc => (t.replace { t.params with lvcEnabled := !t.params.lvcEnabled }, .changed)
  | .toggleYawInversion =>
    (t.replace { t.params with yawInverted := !t.params.yawInverted }, .changed)
  | .saveParams => (t, .saveRequested)
  | .stickCheckOn => (t, .stickCheck true)
  | .stickCheckOff => (t, .stickCheck false)
  | .nextTerm => ({ t with term := t.term.next }, .selected)
  | .nextAxis => ({ t with group := t.group.next }, .selected)
  | .increaseGain => (t.scale profile (1.0 + gainStep), .changed)
  | .decreaseGain => (t.scale profile (1.0 - gainStep), .changed)

end TuningTable

end Quadrotor

import Quadrotor.Error
import Quadrotor.Flight.Counter
import Quadrotor.Radio.Channels
import Quadrotor.Status

/-!
# Stick gestures

While the vehicle is disarmed, the pilot can ask for things by moving the sticks. Deflections of roll
and pitch are read as symbols, one for each excursion from the centre, and three symbols in a row
make a gesture. Sticks that are not live drop whatever has been entered so far.
-/

namespace Quadrotor

/-- A stick excursion. -/
inductive Symbol where
  | up
  | down
  | left
  | right
  deriving DecidableEq, Repr, Inhabited

/-- How stick excursions are told apart. -/
structure GestureConfig where
  /-- Look at the sticks every so many ticks. -/
  divider : UInt32 := 5
  /-- Deflection from which an excursion counts. -/
  threshold : Scalar := 0.8
  /-- Deflection below which the sticks are centred. -/
  centre : Scalar := 0.2
  /-- Ticks without a new symbol after which the entered ones are forgotten. -/
  timeout : UInt32 := 1500
  deriving BEq, Repr, Inhabited

/-- Refuses a divider or a timeout of zero, and a centre that is not below the threshold. -/
def GestureConfig.check (c : GestureConfig) : Check := do
  require (c.divider != 0) .zeroDivider
  require (c.timeout != 0) .zeroTimeout
  require (decide (0.0 < c.centre) && decide (c.centre < c.threshold) && decide (c.threshold ≤ 1.0))
    (.threshold "gesture.threshold")

/-- The number of symbols in a gesture. -/
def gestureLength : Nat := 3

/-- The action that a sequence of symbols asks for. -/
def GestureAction.ofSymbols? : List Symbol → Option GestureAction
  | [.left, .left, .left] => some .toggleLvc
  | [.down, .up, .down] => some .toggleYawInversion
  | [.down, .down, .down] => some .saveParams
  | [.right, .right, .down] => some .stickCheckOn
  | [.left, .left, .down] => some .stickCheckOff
  | [.up, .down, .up] => some .nextTerm
  | [.up, .down, .down] => some .nextAxis
  | [.up, .down, .right] => some .increaseGain
  | [.up, .down, .left] => some .decreaseGain
  | _ => none

/-- The symbol of a stick position, if it is far enough out; roll goes before pitch. -/
def GestureConfig.symbol? (c : GestureConfig) (roll pitch : Scalar) : Option Symbol :=
  if roll ≤ -c.threshold then some .left
  else if c.threshold ≤ roll then some .right
  else if c.threshold ≤ pitch then some .up
  else if pitch ≤ -c.threshold then some .down
  else none

/-- Both sticks are at the centre. -/
def GestureConfig.isCentred (c : GestureConfig) (roll pitch : Scalar) : Bool :=
  decide (roll.abs < c.centre) && decide (pitch.abs < c.centre)

/-- The recogniser between ticks. -/
structure Gestures where
  config : GestureConfig
  /-- The symbols entered so far, oldest first. -/
  history : List Symbol := []
  /-- Live ticks, for the divider. -/
  tick : UInt32 := 0
  /-- Ticks since the latest symbol. -/
  idle : UInt32 := 0
  /-- The sticks have been centred since the latest symbol. -/
  centred : Bool := false
  deriving BEq, Repr, Inhabited

namespace Gestures

/-- The recogniser with nothing entered. -/
def reset (g : Gestures) : Gestures := { g with history := [], idle := 0, centred := false }

/-- A live tick passes: the counters advance, and entries of long ago are forgotten. -/
def advance (g : Gestures) : Gestures :=
  let idle := Counter.up g.idle
  { g with
    idle := idle
    history := if g.config.timeout < idle then [] else g.history
    tick := g.tick + 1 }

/-- `s` after the symbols that it can still make a gesture with. -/
def remember (history : List Symbol) (s : Symbol) : List Symbol :=
  (if gestureLength ≤ history.length then history.tail else history) ++ [s]

/-- A symbol is entered; a complete gesture leaves nothing entered. -/
def enter (g : Gestures) (s : Symbol) : Gestures × Option GestureAction :=
  let history := remember g.history s
  match GestureAction.ofSymbols? history with
  | some action => ({ g with centred := false, idle := 0, history := [] }, some action)
  | none => ({ g with centred := false, idle := 0, history := history }, none)

/-- The sticks are looked at. -/
def look (g : Gestures) (roll pitch : Scalar) : Gestures × Option GestureAction :=
  if g.config.isCentred roll pitch then ({ g with centred := true }, none)
  else if g.centred then
    match g.config.symbol? roll pitch with
    | some s => g.enter s
    | none => (g, none)
  else (g, none)

/-- One more tick: the recogniser after it, and the action asked for. -/
def update (g : Gestures) (channels : Channels) (live : Bool) :
    Checked (Gestures × Option GestureAction) :=
  if live then
    let g := g.advance
    if g.config.divider = 0 then .error .zeroDivisor
    else if g.tick % g.config.divider = 0 then .ok (g.look channels.roll channels.pitch)
    else .ok (g, none)
  else .ok (g.reset, none)

end Gestures

/-- Which sticks were at full throw, for a check of their travel. -/
structure TravelCheck where
  roll : Bool := false
  pitch : Bool := false
  yaw : Bool := false
  throttle : Bool := false
  deriving DecidableEq, Repr, Inhabited

namespace TravelCheck

/-- The stick is at full throw. -/
def isFull (x : Scalar) : Bool := decide (0.98 ≤ x)

/-- The sticks at full throw in a frame. -/
def ofChannels (c : Channels) : TravelCheck where
  roll := isFull c.roll.abs
  pitch := isFull c.pitch.abs
  yaw := isFull c.yaw.abs
  throttle := isFull c.throttle

/-- Some stick is at full throw now that was not before. -/
def reached (before now : TravelCheck) : Bool :=
  (now.roll && !before.roll) || (now.pitch && !before.pitch) || (now.yaw && !before.yaw) ||
    (now.throttle && !before.throttle)

end TravelCheck

end Quadrotor

import Quadrotor.Error
import Quadrotor.Radio.Channels
import Quadrotor.Status

/-!
# Switches

Which auxiliary channel controls which feature, and the flight mode that the switches select.
Leveling has to be on for any of the leveling modes; plain angle mode is the one without further
switches.
-/

namespace Quadrotor

/-- Where a switchable feature takes its state from. -/
inductive SwitchSource where
  /-- An auxiliary channel, counted from zero. -/
  | channel (index : UInt8)
  | alwaysOn
  | alwaysOff
  deriving DecidableEq, Repr, Inhabited

namespace SwitchSource

/-- The feature is on. -/
def isOn (s : SwitchSource) (c : Channels) : Bool :=
  match s with
  | channel index => c.auxOn index.toNat
  | alwaysOn => true
  | alwaysOff => false

/-- Refuses a channel that no frame has. -/
def check : SwitchSource → Check
  | channel index => require (decide (index < 8)) (.auxChannel index)
  | alwaysOn | alwaysOff => .ok ()

end SwitchSource

/-- A value for each switchable feature. -/
structure Switches (α : Type) where
  arming : α
  idleUp : α
  leveling : α
  horizon : α
  race : α
  highRates : α
  profileB : α
  deriving DecidableEq, BEq, Repr, Inhabited

namespace Switches

/-- Each value transformed. -/
def map {α β : Type} (f : α → β) (s : Switches α) : Switches β :=
  ⟨f s.arming, f s.idleUp, f s.leveling, f s.horizon, f s.race, f s.highRates, f s.profileB⟩

/-- The values in order. -/
def toList {α : Type} (s : Switches α) : List α :=
  [s.arming, s.idleUp, s.leveling, s.horizon, s.race, s.highRates, s.profileB]

/-- One switch arms and idles, a second one levels, and the rest is fixed. -/
def standard : Switches SwitchSource where
  arming := .channel 0
  idleUp := .channel 0
  leveling := .channel 1
  horizon := .alwaysOff
  race := .alwaysOff
  highRates := .alwaysOn
  profileB := .alwaysOff

/-- The state of every feature under the given channels. -/
def resolve (s : Switches SwitchSource) (c : Channels) : Switches Bool := s.map fun f => f.isOn c

/-- Refuses a source that no frame has, the first one in order. -/
def check (s : Switches SwitchSource) : Check := s.toList.forM SwitchSource.check

/-- The flight mode that the switches select. -/
def mode (s : Switches Bool) : FlightMode :=
  match s.leveling, s.horizon, s.race with
  | false, _, _ => .acro
  | true, false, false => .angle
  | true, true, false => .horizon
  | true, false, true => .race
  | true, true, true => .raceHorizon

end Switches

end Quadrotor

import Quadrotor.Flight.Core
import Quadrotor.Flight.Schedule

/-!
# Flight log

The lines that the flight core and its schedule log. Nothing of this feeds back into the flight: a
line is read off the state before and after a tick and off what the tick reports.
-/

namespace Quadrotor

/-- How much a log line matters. -/
inductive Severity where
  | info
  | warn
  | error
  deriving DecidableEq, Repr, Inhabited

/-- The name of a severity, in five columns. -/
def Severity.column : Severity → String
  | .info => "INFO "
  | .warn => "WARN "
  | .error => "ERROR"

/-- A line of a log. -/
structure LogLine where
  severity : Severity
  /-- The part of the program that logs it. -/
  source : String
  text : String
  deriving DecidableEq, Repr, Inhabited

namespace LogLine

/-- The line as it is printed, after the time. -/
def render (l : LogLine) : String := l.severity.column ++ " " ++ l.source ++ "] " ++ l.text

/-- A line of a part of the flight core, which begins with the name of the part. -/
def ofCore (severity : Severity) (part text : String) : LogLine :=
  ⟨severity, "common::" ++ part, part ++ ": " ++ text⟩

end LogLine

/-- The line of a tick that came too late. -/
def Overrun.log (o : Overrun) : LogLine :=
  .ofCore .warn "scheduler" s!"Tick overrun by {o.lateness} us, skipping {o.missed} periods"

namespace FlightCore

/-- The line of loading the parameters, unless they have been loaded. -/
def loadLog : Except StoreError TuningParams → List LogLine
  | .ok _ => []
  | .error .useDefaults => [.ofCore .info "control_loop" "No stored parameters, using defaults"]
  | .error e => [.ofCore .error "control_loop" ("Loading parameters failed: " ++ e.listing)]

/-- The line of a flight core that has been built. -/
def startLog (c : FlightCore) : LogLine :=
  .ofCore .info "control_loop" s!"Loop period {c.config.loopPeriod} us"

/-- The text of a flag. -/
def flagText (flag : Bool) : String := if flag then "true" else "false"

/-- What an action has done to the parameters, where that is a switch. -/
def actionLog (params : TuningParams) : GestureAction → List LogLine
  | .toggleLvc => [.ofCore .info "params" ("LVC enabled: " ++ flagText params.lvcEnabled)]
  | .toggleYawInversion => [.ofCore .info "params" ("Yaw inverted: " ++ flagText params.yawInverted)]
  | _ => []

/-- The lines of an event; `params` are the parameters after it. -/
def eventLog (params : TuningParams) : Event → List LogLine
  | .armed => [.ofCore .info "flight_state" "Armed"]
  | .armingRejected blockers =>
    [.ofCore .warn "flight_state" s!"Arming rejected, blockers {blockers.bits}"]
  | .failsafeLanding reason => [.ofCore .warn "flight_state" ("Failsafe landing, " ++ reason.name)]
  | .disarmed reason => [.ofCore .info "flight_state" ("Disarmed, " ++ reason.name)]
  | .gestureMatched action =>
    .ofCore .info "gesture" ("Matched " ++ action.name) :: actionLog params action
  | _ => []

/-- The line of a link that has come up with the arm switch on. -/
def linkLog (before after : FlightCore) : List LogLine :=
  if before.arming.linkWasLost && !after.arming.linkWasLost && after.arming.prevArmSwitch then
    [.ofCore .warn "flight_state" "Arm switch on at link-up, release it to arm"]
  else []

/-- The lines of a tick. -/
def tickLog (before after : FlightCore) (events : List Event) : List LogLine :=
  linkLog before after ++ events.flatMap (eventLog after.table.params)

/-- The line of a save. -/
def saveLog : Except StoreError Unit → LogLine
  | .ok () => .ofCore .info "control_loop" "Parameters saved"
  | .error e => .ofCore .error "control_loop" ("Saving parameters failed: " ++ e.listing)

end FlightCore

end Quadrotor

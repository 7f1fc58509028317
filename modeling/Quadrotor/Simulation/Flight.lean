import Quadrotor.Flight.Log
import Quadrotor.Simulation.Pilot
import Quadrotor.Simulation.World

/-!
# Simulated flight

A flight of the flight core with a scripted pilot in a simulated world, tick by tick, and the log it
leaves. A radio frame arrives every few ticks, and a battery reading every few more.
-/

namespace Quadrotor

/-- A flight under way. -/
structure SimulatedFlight where
  clock : WorldClock
  schedule : Schedule
  core : FlightCore
  store : FlashStore
  instruments : Instruments
  producers : Producers := {}
  ports : InputPorts := {}
  pilot : Pilot
  /-- The time [s] at which the battery is emptied, if that is still to come. -/
  drain : Option Scalar
  /-- The number of the next tick. -/
  number : Nat := 0
  deriving Inhabited

/-- A flight that does not come about. -/
inductive LaunchError where
  /-- A file cannot be read. -/
  | file (reason : String)
  /-- A file does not hold the settings that it should. -/
  | settings
  | simulation (e : SimulationError)
  | config (e : ConfigError)
  deriving BEq, Repr, Inhabited

/-- The error as a listing shows it. -/
def LaunchError.listing : LaunchError → String
  | .file reason => reason
  | .settings => "Toml"
  | .simulation e => e.listing
  | .config e => e.listing

namespace SimulatedFlight

/-- Ticks between two radio frames. -/
def radioDivider : Nat := 5

/-- Ticks between two battery readings. -/
def batteryDivider : Nat := 10

/-- Size of the flash memory of the vehicle [bytes]. -/
def flashSize : Nat := 65536

/-- A line of the flight itself. -/
def line (severity : Severity) (text : String) : LogLine := ⟨severity, "std_device", text⟩

/-- A line of the flight at a time [s]. -/
def lineAt (t : Scalar) (text : String) : LogLine :=
  line .info ("[" ++ t.fixed 3 ++ "] " ++ text)

/-! ## Start -/

/-- The lines that describe a simulation. -/
def simulationLog (c : SimulationConfig) : List LogLine :=
  [line .info s!"Simulating at {(1.0 / c.step).plain} Hz with seed {c.seed}",
    ⟨.info, "whoop_sim", "Initialized a " ++ (c.vehicle.mass * 1e3).fixed 0 ++
      " g vehicle, physics step " ++ (c.step * 1e6).round.plain ++ " us"⟩]

/-- The flight before its first tick, and what is logged on the way there. -/
def start (simulation : SimulationConfig) (config : FlightConfig) (pilot : Pilot) :
    Except LaunchError (SimulatedFlight × List LogLine) := do
  let instruments ← (Instruments.new simulation).mapError .simulation
  let store : FlashStore := { flash := Flash.new flashSize, offset := 0 }
  let (core, store) := FlightCore.boot config store
  let core ← core.mapError .config
  return ({
    clock := ⟨World.new simulation, simulation.step⟩
    schedule := Schedule.new config.loopPeriod
    core := core
    store := store
    instruments := instruments
    pilot := pilot
    drain := pilot.drainTime },
    simulationLog simulation ++ FlightCore.loadLog store.load ++ [core.startLog])

/-- The number of ticks of the whole flight. -/
def length (f : SimulatedFlight) : Nat :=
  (f.pilot.duration * 1e6 / f.core.config.loopPeriod.toFloat32).round.toWord.toNat

/-- Ticks between two lines of status. -/
def statusDivider (f : SimulatedFlight) : Nat :=
  (Scalar.maxNum (1e6 / f.core.config.loopPeriod.toFloat32).round 1.0).toWord.toNat

/-! ## One tick -/

/-- Empties the battery when its time has come. -/
def drainBattery (f : SimulatedFlight) (t : Scalar) : SimulatedFlight × List LogLine :=
  match f.drain with
  | some at' =>
    if at' ≤ t then
      ({ f with drain := none, clock := { f.clock with world := f.clock.world.withCharge 0.0 } },
        [lineAt t "Draining the battery"])
    else (f, [])
  | none => (f, [])

/-- What arrives before a tick that starts at a time [s]. -/
def produce (f : SimulatedFlight) (t : Scalar) : SimulatedFlight :=
  let (instruments, sample) := f.instruments.read f.clock.world
  let p := { f.producers with motion := f.producers.motion.send sample }
  let p := if f.number % radioDivider = 0 then { p with radio := p.radio.send (f.pilot.frame t) }
    else p
  let p := if f.number % batteryDivider = 0 then
      { p with battery := p.battery.send f.clock.world.cell.voltage }
    else p
  { f with instruments := instruments, producers := p }

/-- A tick of the flight core, whose duties reach the motors, and its lines. -/
def fly (f : SimulatedFlight) (overran : Bool) :
    Checked (SimulatedFlight × TickOutput × List LogLine) := do
  let (ports, input) := f.ports.poll f.producers overran
  let (core, output) ← f.core.tick input
  return ({ f with
    ports := ports
    core := core
    clock := { f.clock with world := f.clock.world.drive output.motors } },
    output, f.core.tickLog core output.events)

/-- What is left to do after a tick that started at a time [s]. -/
def settle (f : SimulatedFlight) (t : Scalar) : Checked (SimulatedFlight × List LogLine) := do
  let (core, store, saved) ← f.core.idle f.store
  let lines := saved.toList.flatMap fun outcome =>
    [FlightCore.saveLog outcome, lineAt t (FlightCore.savedEvent outcome).listing]
  return ({ f with core := core, store := store }, lines)

/-- Degrees in a radian. -/
def degrees : Scalar := 57.295779513082320876798154814105

/-- The line of status at a time [s]. -/
def statusLine (f : SimulatedFlight) (t : Scalar) (output : TickOutput) : LogLine :=
  let motion := f.clock.world.vehicle.motion
  let tilt := motion.tilt
  lineAt t (output.state.name ++ " " ++ output.mode.name ++ ", height " ++
    motion.position.z.fixed 2 ++ " m, roll " ++ (tilt.roll * degrees).fixed 1 ++ ", pitch " ++
    (tilt.pitch * degrees).fixed 1 ++ " deg, motors [" ++
    ", ".intercalate (output.motors.toList.map (Scalar.fixed 2)) ++ "]")

/-- One tick: the flight after it, and what is logged. -/
def tick (f : SimulatedFlight) : Checked (SimulatedFlight × List LogLine) := do
  let (clock, schedule, timing, late) ← f.schedule.waitNext f.clock
  let t := timing.start.seconds
  let (f, drained) := { f with clock := clock, schedule := schedule }.drainBattery t
  let (f, output, lines) ← (f.produce t).fly timing.overran
  let reported := output.events.map fun e => lineAt t e.listing
  let (f, settled) ← f.settle t
  let status := if f.number % f.statusDivider = 0 then [f.statusLine t output] else []
  return ({ f with number := f.number + 1 },
    (late.map Overrun.log).toList ++ drained ++ lines ++ reported ++ settled ++ status)

/-! ## End -/

/-- The listing of the gains of an axis. -/
def gainsListing (g : Gains) : String :=
  "PidGains \x7b kp: " ++ g.kp.literal ++ ", ki: " ++ g.ki.literal ++ ", kd: " ++ g.kd.literal ++ " \x7d"

/-- What has become of the stored parameters. -/
def storedLine (f : SimulatedFlight) : LogLine :=
  match f.store.load with
  | .ok params => line .info ("Stored rate gains: [" ++
      ", ".intercalate (params.profileA.toList.map gainsListing) ++ "]")
  | .error e => line .warn ("No stored parameters: " ++ e.listing)

/-- What is logged after the last tick. -/
def finish (f : SimulatedFlight) : List LogLine :=
  let time := f.schedule.execution
  line .info (s!"Done after {f.length} ticks, {f.schedule.overruns} overruns, tick time " ++
    time.mean.fixed 1 ++ " +/- " ++ time.deviation.fixed 1 ++ " us") ::
    if f.pilot.script = .tune then [f.storedLine] else []

/-- So many ticks, and the log with what is logged in them. -/
def ticks : Nat → SimulatedFlight → Array LogLine → Checked (SimulatedFlight × Array LogLine)
  | 0, f, log => .ok (f, log)
  | n + 1, f, log => do
    let (f, lines) ← f.tick
    ticks n f (log ++ lines)

/-- The log of a whole flight. -/
def log (f : SimulatedFlight) : Checked (List LogLine) := do
  let (last, lines) ← ticks f.length f #[]
  return lines.toList ++ last.finish

end SimulatedFlight

end Quadrotor

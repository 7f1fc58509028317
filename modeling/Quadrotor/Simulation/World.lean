import Quadrotor.Flight.Core
import Quadrotor.Flight.Schedule
import Quadrotor.Simulation.Config

/-!
# World

A vehicle, its battery and its sensors, moving on together in steps of one length. A clock that is
driven by the world lets the flight core's schedule wait by moving the world on; without a schedule,
a closed loop ticks once a step.
-/

namespace Quadrotor

/-- The vehicle and its battery. -/
structure World where
  vehicle : Vehicle
  cell : Cell
  deriving Repr, Inhabited

namespace World

/-- The world at its start. -/
def new (c : SimulationConfig) : World where
  vehicle := Vehicle.new c.vehicle c.initial
  cell := Cell.new c.battery

/-- The present time [µs]. -/
def time (w : World) : Time := w.vehicle.time

/-- The world `dt` seconds later: the battery drains, and the vehicle moves. -/
def step (w : World) (dt : Scalar) : Checked World := do
  return { vehicle := ← w.vehicle.step dt, cell := w.cell.step w.vehicle.commands dt }

/-- The world with another charge of its battery. -/
def withCharge (w : World) (charge : Scalar) : World := { w with cell := w.cell.withCharge charge }

/-- The world with other commands for its motors. -/
def drive (w : World) (duties : PerMotor Scalar) : World := { w with vehicle := w.vehicle.drive duties }

/-- The world with the vehicle levelled and stopped from turning. -/
def upright (w : World) : World := { w with vehicle := w.vehicle.upright }

end World

/-- The sensors of a vehicle. -/
structure Instruments where
  acc : Sensor
  gyro : Sensor
  deriving Repr, Inhabited

namespace Instruments

/-- The sensors of a simulation, read once a step. -/
def new (c : SimulationConfig) : Except SimulationError Instruments := do
  let acc ← Sensor.new c.acc c.step
  let gyro ← Sensor.new c.gyro c.step
  unless c.voltageNoise.isFinite do throw .spread
  return ⟨acc, gyro⟩

/-- The sensors after one more reading of the motion, and the sample. -/
def read (i : Instruments) (w : World) : Instruments × MotionSample :=
  let (gyro, rates) := i.gyro.read w.vehicle.motion.rates
  let (acc, force) := i.acc.read w.vehicle.motion.acc
  (⟨acc, gyro⟩, { time := w.time, gyro := rates, acc := some force })

end Instruments

/-- A flight core that flies a world: in every step it gets a sample, a radio frame and a reading of
the battery, and its duties reach the motors at once. -/
structure ClosedLoop where
  core : FlightCore
  world : World
  instruments : Instruments
  deriving Inhabited

/-- One tick of the flight core under a radio frame, and the world `dt` seconds later. -/
def ClosedLoop.tick (l : ClosedLoop) (frame : RadioFrame) (dt : Scalar) :
    Checked (ClosedLoop × TickOutput) := do
  let (instruments, sample) := l.instruments.read l.world
  let (core, output) ← l.core.tick
    { sample := some sample, radio := some frame, voltage := some l.world.cell.voltage }
  return (⟨core, ← (l.world.drive output.motors).step dt, instruments⟩, output)

/-- A clock that tells the time of a world and waits by moving it on. -/
structure WorldClock where
  world : World
  /-- Length of a step [s]. -/
  step : Scalar
  deriving Repr, Inhabited

namespace WorldClock

/-- The clock one step later. -/
def tick (c : WorldClock) : Checked WorldClock := do
  return { c with world := ← c.world.step c.step }

/-- The clock after so many steps. -/
def ticks (c : WorldClock) : Nat → Checked WorldClock
  | 0 => .ok c
  | n + 1 => do (← c.tick).ticks n

/-- Moves on until a time has come, by at most so many steps. -/
def moveOn (deadline : Time) : Nat → WorldClock → Checked WorldClock
  | 0, c => if c.world.time < deadline then .error .endless else .ok c
  | steps + 1, c => if c.world.time < deadline then do moveOn deadline steps (← c.tick) else .ok c

/-- Moves on until a time has come. A step that takes time at all takes a microsecond at least, so
there are no more steps than microseconds to wait for; and steps that take no time never get there. -/
def waitUntil (c : WorldClock) (deadline : Time) : Checked WorldClock :=
  moveOn deadline (Time.since deadline c.world.time).toNat c

instance : Clock WorldClock where
  now c := (c.world.time, c)
  waitUntil := waitUntil

end WorldClock

end Quadrotor

import Quadrotor.CommandLine

/-!
# Program

Flies the flight core against a simulated vehicle and logs to standard error.
-/

namespace Quadrotor.Program

/-- A printed log line: the time since the start [ns] ahead of the line. -/
def printLine (line : LogLine) : IO Unit := do
  IO.eprintln ("[" ++ toString (← IO.monoNanosNow) ++ " " ++ line.render)

/-- The text of a file, or why it cannot be read. -/
def readText (path : String) : IO (Except String String) := do
  try
    return .ok (← IO.FS.readFile path)
  catch e =>
    return .error (toString e)

/-- Sleeps until so many microseconds have passed since a start [ns]. -/
def pace (start : Nat) (time : Time) : IO Unit := do
  let wanted := start + time.toNat * 1000
  let present ← IO.monoNanosNow
  if present < wanted then IO.sleep ((wanted - present) / 1000000).toUInt32

/-- Flies the ticks that are left; `none` where one of them is aborted. -/
def fly (realtime : Bool) (start : Nat) : Nat → SimulatedFlight → IO (Option SimulatedFlight)
  | 0, flight => return some flight
  | n + 1, flight => do
    match flight.tick with
    | .error _ => return none
    | .ok (flight, lines) =>
      if realtime then pace start flight.schedule.start
      lines.forM printLine
      fly realtime start n flight

/-- Runs a flight from its launch to its end; the exit code. -/
def run (options : LaunchOptions) : IO UInt32 := do
  let simulation ← readText options.config
  let core ← options.core.mapM readText
  let seed := (← IO.rand 0 (UInt64.size - 1)).toUInt64
  match options.launch simulation core seed with
  | .error e =>
    IO.eprintln ("Error: " ++ e.listing)
    return 1
  | .ok (flight, lines) =>
    lines.forM printLine
    match ← fly options.realtime (← IO.monoNanosNow) flight.length flight with
    | some flight =>
      flight.finish.forM printLine
      return 0
    | none => return 101

/-- How the program is called. -/
def usage : String :=
  "Usage: [--config FILE] [--core FILE] [--script NAME] [--duration SECONDS] [--realtime]"

end Quadrotor.Program

/-- The program. -/
def main (arguments : List String) : IO UInt32 := do
  match Quadrotor.CommandLine.parse arguments with
  | none =>
    IO.eprintln Quadrotor.Program.usage
    return 2
  | some .help | some .version =>
    IO.println Quadrotor.Program.usage
    return 0
  | some (.fly options) => Quadrotor.Program.run options

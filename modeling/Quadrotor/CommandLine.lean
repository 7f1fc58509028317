import Quadrotor.Settings.Config
import Quadrotor.Settings.Simulation
import Quadrotor.Settings.Toml
import Quadrotor.Simulation.Flight

/-!
# Command line

The options of the simulated flight and the flight that they launch. An option may be given once. Its
value follows as an argument of its own, or in the same argument: after an equals sign, or at once
after the letter of a short option.
-/

namespace Quadrotor

/-- The options of a simulated flight. -/
structure LaunchOptions where
  /-- File with the settings of the simulation. -/
  config : String := "sim_config.toml"
  /-- File with the configuration of the flight core, if it is not the default one. -/
  core : Option String := none
  script : Script := .hover
  /-- Length of the flight [s]. -/
  duration : Scalar := 6.0
  /-- Keep pace with the wall clock. -/
  realtime : Bool := false
  deriving Repr, Inhabited

namespace CommandLine

/-- An option of the command line. -/
inductive OptionName where
  | config
  | core
  | script
  | duration
  | realtime
  | help
  | version
  deriving DecidableEq, Repr, Inhabited

namespace OptionName

/-- All options. -/
def all : List OptionName := [config, core, script, duration, realtime, help, version]

/-- The name after two dashes. -/
def long : OptionName → String
  | config => "config"
  | core => "core"
  | script => "script"
  | duration => "duration"
  | realtime => "realtime"
  | help => "help"
  | version => "version"

/-- The letter after one dash. -/
def short? : OptionName → Option Char
  | config => some 'c'
  | script => some 's'
  | duration => some 'd'
  | help => some 'h'
  | version => some 'V'
  | core | realtime => none

/-- The option has a value. -/
def hasValue : OptionName → Bool
  | config | core | script | duration => true
  | realtime | help | version => false

/-- The option of a long name. -/
def ofLong? (name : String) : Option OptionName := all.find? fun o => o.long == name

/-- The option of a letter. -/
def ofShort? (letter : Char) : Option OptionName := all.find? fun o => o.short? == some letter

end OptionName

/-- What a command line asks for. -/
inductive Command where
  | fly (options : LaunchOptions)
  | help
  | version
  deriving Repr, Inhabited

/-- The options with one more, unless its value is not one. -/
def assign (o : LaunchOptions) (name : OptionName) (value : String) : Option LaunchOptions :=
  match name with
  | .config => some { o with config := value }
  | .core => some { o with core := some value }
  | .script => (Script.ofText? value).map fun s => { o with script := s }
  | .duration => (Scalar.ofText? value).map fun d => { o with duration := d }
  | .realtime => some { o with realtime := true }
  | .help | .version => none

/-- The options so far, and which of them have been given. -/
structure Progress where
  options : LaunchOptions := {}
  given : List OptionName := []
  deriving Inhabited

/-- One more option, unless it has been given before. -/
def Progress.add (p : Progress) (name : OptionName) (value : String) : Option Progress :=
  if p.given.contains name then none
  else (assign p.options name value).map fun o => ⟨o, name :: p.given⟩

/-- The argument is a value, not an option. -/
def isValue (argument : String) : Bool := argument == "-" || !argument.startsWith "-"

/-- An option at the front of the command line, with what its own argument holds after its name, if
anything. For a short option without a value, those are more letters. -/
structure Occurrence where
  name : OptionName
  value : Option String := none
  deriving Repr, Inhabited

/-- The value after an equals sign, and the text before it. -/
def splitEquals (text : List Char) : List Char × Option (List Char) :=
  match text.dropWhile (· != '=') with
  | [] => (text, none)
  | _ :: value => (text.takeWhile (· != '='), some value)

/-- The option of an argument that is one. -/
def occurrence? (argument : List Char) : Option Occurrence :=
  match argument with
  | '-' :: '-' :: text =>
    let (name, value) := splitEquals text
    (OptionName.ofLong? (String.ofList name)).map fun o => ⟨o, value.map String.ofList⟩
  | '-' :: letter :: rest => (OptionName.ofShort? letter).map fun o =>
    match rest with
    | [] => ⟨o, none⟩
    | '=' :: value => ⟨o, some (String.ofList value)⟩
    | value => ⟨o, some (String.ofList value)⟩
  | _ => none

/-- Reads the arguments after the options so far; nothing where they are not a command line. -/
def parseFrom (p : Progress) : List String → Option Command
  | [] => some (.fly p.options)
  | ["--"] => some (.fly p.options)
  | argument :: rest =>
    match occurrence? argument.toList with
    | none => none
    | some ⟨.help, value⟩ => if value.isNone || !argument.startsWith "--" then some .help else none
    | some ⟨.version, value⟩ =>
      if value.isNone || !argument.startsWith "--" then some .version else none
    | some ⟨.realtime, value⟩ =>
      if value.isNone then (p.add .realtime "").bind fun p => parseFrom p rest else none
    | some ⟨name, some value⟩ => (p.add name value).bind fun p => parseFrom p rest
    | some ⟨name, none⟩ =>
      match rest with
      | [] => none
      | value :: rest =>
        if isValue value then (p.add name value).bind fun p => parseFrom p rest else none

/-- What the arguments ask for; nothing where they are not a command line. -/
def parse (arguments : List String) : Option Command := parseFrom {} arguments

end CommandLine

namespace LaunchOptions

/-- The settings that a file holds, read from its text. -/
def settings {α : Type} (read : Settings.Reader α) (text : Except String String) :
    Except LaunchError α := do
  let text ← text.mapError .file
  match Settings.Toml.read read text with
  | some v => return v
  | none => throw .settings

/-- The flight of the options before its first tick, and its log so far, from the texts of the two
files, or the reasons for which they cannot be read. -/
def launch (o : LaunchOptions) (simulation : Except String String)
    (core : Option (Except String String)) (seed : UInt64) :
    Except LaunchError (SimulatedFlight × List LogLine) := do
  let simulation ← settings Settings.simulation simulation
  let simulation ← (simulation.build seed).mapError .simulation
  let config ← match core with
    | some text => settings Settings.flightConfig text
    | none => pure {}
  SimulatedFlight.start simulation config ⟨o.script, o.duration⟩

end LaunchOptions

end Quadrotor

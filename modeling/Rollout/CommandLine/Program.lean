import Rollout.CommandLine.Arguments
import Rollout.Deployment.Run
import Rollout.Script.Reader
import Rollout.Script.Written
import Rollout.Settings
import Rollout.Ssh.Session

/-!
# The program

From its arguments to its exit code: read the script, list it or run it, and say what went wrong. The
exit code tells how far the program got, unless a line is refused that it has to write: there it breaks off.

The exit codes are those of section 10.2 of the specification.
-/

namespace Rollout.CommandLine

open Rollout.Ssh (World)
open Rollout.Deployment (Setup)

def usage : String :=
  "Usage: skiff [OPTIONS] [SCRIPT]\n"

def versionLine : String :=
  "skiff 0.2.2\n"

def misuseCode : Nat := 2

def brokenCode : Nat := 101

/-- The script's text, from the named file or from all of the standard input. -/
def source (world : World) : Option String → Except IoError String × World
  | some path =>
    match world.machine.contentAt path with
    | .error error => (.error (.os error), world)
    | .ok content => ((Text.decode? content).elim (.error .invalidText) .ok, world)
  | none =>
    let content := world.machine.input
    ((Text.decode? content).elim (.error .invalidText) .ok,
      { world with machine := { world.machine with input := [] } })

/-- The machine with a file that log lines can be added to, or why there is none. -/
def openLog (machine : Machine) (directory path : String) : Except String Machine :=
  match machine.ensureFile path with
  | .ok machine => .ok machine
  | .error _ =>
    match machine.makeDirectories directory with
    | .error error => .error ("failed to create log directory: " ++ error.message)
    | .ok machine =>
      match machine.ensureFile path with
      | .ok machine => .ok machine
      | .error error => .error ("failed to create initial log file: " ++ error.message)

/-- The world with the log file opened, and a warning if it cannot be opened, which is no failure. -/
def withLog (world : World) : Option String → Option String × World
  | none => (none, world)
  | some path =>
    match LocalPath.fileName path with
    | none => (none, world)
    | some name =>
      let above := (LocalPath.parent path).getD ""
      let directory := if above.isEmpty then "." else above
      match openLog world.machine directory (LocalPath.join directory name) with
      | .ok machine => (none, { world with machine })
      | .error reason => (some ("Warning: cannot open log file " ++ path ++ ": " ++ reason ++ "\n"), world)

/-- Where local paths start: an absolute directory as it is, any other seen from the directory in which
the program was started. -/
def localDirectory (machine : Machine) : Option String → Except IoError (Option String)
  | none => .ok none
  | some directory =>
    if LocalPath.isAbsolute directory then .ok (some directory)
    else match machine.currentDirectory with
      | .ok start => .ok (some (LocalPath.join start directory))
      | .error error => .error (.os error)

/-- Runs a script that was read. Nothing comes of a run that breaks off. -/
def deploy (world : World) (arguments : Arguments) (script : Script) :
    Option (Except RunError Unit) × World :=
  let settings := Settings.load world.machine
  match localDirectory world.machine arguments.directory with
  | .error error => (some (.error (.io error)), world)
  | .ok localDirectory =>
    let setup : Setup := { protectedPaths := settings.guarded, localDirectory }
    let world := { world with timeout := arguments.timeout.getD settings.connectTimeout }
    let (ended, world) := world.carryOutAloud (Deployment.run setup script)
    (ended.map (·.2), world)

def toRight (places : Nat) (text : String) : String :=
  String.ofList (List.replicate (places - text.length) ' ') ++ text

def toLeft (places : Nat) (text : String) : String :=
  text ++ String.ofList (List.replicate (places - text.length) ' ')

def stepLine (number : Nat) (step : Script.Step) : String :=
  toRight 3 (toString number) ++ ". line " ++ toLeft 4 (toString step.line) ++ " " ++
    step.action.display ++ "\n"

/-- The lines for steps that are numbered from a number on. -/
def stepLines (number : Nat) : List Script.Step → List String
  | [] => []
  | step :: rest => stepLine number step :: stepLines (number + 1) rest

def textListing (script : Script) : List String :=
  stepLines 1 script.steps ++ [toString script.steps.length ++ " step(s), script is valid\n"]

def jsonListing (script : Script) : String :=
  script.json.pretty ++ "\n"

/-- The lines in which a checked script is listed, for the operator or for other programs. -/
def listing (script : Script) : Option Format → List String
  | some .json => [jsonListing script]
  | _ => textListing script

/-- Does what fit arguments ask for. -/
def perform (world : World) (arguments : Arguments) : Option (Except RunError Unit) × World :=
  match source world arguments.script with
  | (.error error, world) => (some (.error (.io error)), world)
  | (.ok text, world) =>
    match Script.parse text with
    | .error error => (some (.error (.grammar error)), world)
    | .ok script =>
      if arguments.check then
        let (ended, world) := world.printAll? (listing script arguments.format)
        (ended.map .ok, world)
      else deploy world arguments script

def failureLine (error : RunError) : String :=
  "Error: " ++ error.message ++ "\n"

/-- The end of the program: its exit code and the world it leaves. -/
def conclude (world : World) : Option (Except RunError Unit) → Nat × World
  | none => (brokenCode, world)
  | some (.ok ()) => (0, world)
  | some (.error error) =>
    match world.print? .err (failureLine error) with
    | none => (brokenCode, world)
    | some world => (error.exitCode, world)

/-- Goes on after a warning, if there is one and it is not refused. -/
def warned (world : World) : Option String → Option World
  | none => some world
  | some warning => world.print? .err warning

/-- The program: its exit code and the world it leaves. -/
def execute (world : World) (arguments : List String) : Nat × World :=
  match Request.ofArguments world.machine.lookup arguments with
  | .help => (0, world.print .out usage)
  | .version => (0, world.print .out versionLine)
  | .misuse => (misuseCode, world.print .err usage)
  | .run arguments =>
    let (warning, world) := withLog world arguments.logFile
    match warned world warning with
    | none => (brokenCode, world)
    | some world =>
      let (ended, world) := perform world arguments
      conclude world ended

end Rollout.CommandLine

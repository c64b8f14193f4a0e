import Rollout.Failure
import Rollout.Machine.Shell

/-!
# Processes on the operator's machine

A local command is a program's name and its arguments, started in a directory. It may fail to start, or
start and end badly; the two are told apart. A program's output is kept as it came, both streams apart.

This is the local process interface of section 6 of the specification.
-/

namespace Rollout.Machine

structure Ended where
  machine : Machine
  exit : Exit
  out : Bytes := []
  err : Bytes := []

def shownCommand (argv : List String) : String :=
  " ".intercalate argv

/-- What is said of a word with a NUL in it, which no program can be given. -/
def holdsNul : IoError :=
  .other "nul byte found in provided data"

def enter (machine : Machine) : Option String → Except OsError Machine
  | none => .ok machine
  | some directory =>
    match machine.locate directory with
    | .error error => .error error
    | .ok place =>
      match machine.files.get? place.path with
      | none => .error .noEntry
      | some (.directory _) => .ok { machine with directory := place.path }
      | some _ => .error .notDirectory

/-- The first line that marks a file as a shell script. -/
def shellMark : String := "#!/bin/sh"

def isShellScript (content : Bytes) : Bool :=
  let (line, _) := Interpreter.firstLine content
  String.ofList ((Text.decodeLossy line).toList.filter (· ≠ ' ')) = shellMark

def startable (machine : Machine) (name : String) : Except OsError Unit :=
  let known := programName name
  if known = "sh" || (program? known).isSome then .ok ()
  else if !name.toList.contains '/' then .error .noEntry
  else match machine.node name with
    | .error error => .error error
    | .ok (.file content mode) =>
      if !mayExecute mode then .error .permissionDenied
      else if isShellScript content then .ok ()
      else .error .notExecutable
    | .ok _ => .error .permissionDenied

def spawn (machine : Machine) (directory : Option String) (argv : List String) :
    Except LocalError Ended :=
  match argv with
  | [] => .error .emptyCommand
  | name :: arguments =>
    let refused (error : IoError) : Except LocalError Ended :=
      .error (.spawn (shownCommand argv) error)
    if (directory.toList ++ argv).any (·.toList.contains (Char.ofNat 0)) then refused holdsNul
    else match machine.enter directory with
      | .error error => refused (.os error)
      | .ok inside =>
        match inside.startable name with
        | .error error => refused (.os error)
        | .ok () =>
          let shell := runArguments inside name arguments
          .ok {
            machine := { machine with files := shell.machine.files, input := shell.machine.input }
            exit := shell.ended.getD (.status shell.status)
            out := shell.collected true
            err := shell.collected false }

/-- Whether a process ended well, and if not how it failed. -/
def Ended.result (ended : Ended) (argv : List String) : Except LocalError Unit :=
  match ended.exit with
  | .status 0 => .ok ()
  | .status code => .error (.failed (shownCommand argv) (some code))
  | .signal _ => .error (.failed (shownCommand argv) none)

def capture (machine : Machine) (directory : Option String) (argv : List String) :
    Machine × Except LocalError String :=
  match spawn { machine with input := [] } directory argv with
  | .error error => (machine, .error error)
  | .ok ended =>
    ({ ended.machine with input := machine.input },
      (ended.result argv).map fun _ => Text.decodeLossy ended.out)

/-- What a command that shows its output has written: on the standard output and beside it. -/
structure Output where
  out : Bytes := []
  err : Bytes := []
  deriving DecidableEq, Repr

def Output.append (before after : Output) : Output :=
  { out := before.out ++ after.out, err := before.err ++ after.err }

def stream (machine : Machine) (directory : Option String) (argv : List String) :
    Machine × Output × Except LocalError Unit :=
  match spawn machine directory argv with
  | .error error => (machine, {}, .error error)
  | .ok ended => (ended.machine, { out := ended.out, err := ended.err }, ended.result argv)

end Rollout.Machine

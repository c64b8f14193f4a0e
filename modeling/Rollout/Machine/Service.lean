import Rollout.Deployment.Request
import Rollout.Machine.Process

/-!
# What a deployment asks of the operator's machine

The machine's answers to a deployment's calls, and what the programs it runs show.
-/

namespace Rollout.Machine

open Rollout.Deployment (MachineCall Metadata)

def metadata (machine : Machine) (path : String) : Except OsError Metadata :=
  match machine.node path with
  | .error error => .error error
  | .ok (.file content mode) => .ok { isDirectory := false, size := content.length, mode }
  | .ok (.directory mode) => .ok { isDirectory := true, size := 0, mode }
  | .ok (.link _) => .error .tooManyLinks

/-- What is said of a path with a NUL in it, which the system cannot be given. -/
def nulInPath : IoError :=
  .other "file name contained an unexpected NUL byte"

/-- What the system answers for a path, if it can be given the path. -/
def forPath {α : Type} (path : String) (answer : Except OsError α) : Except IoError α :=
  if path.toList.contains (Char.ofNat 0) then .error nulInPath else answer.mapError .os

/-- The machine after a change that may have failed. -/
def changed (machine : Machine) (change : Except IoError Machine) :
    Machine × Except IoError Unit :=
  match change with
  | .ok machine => (machine, .ok ())
  | .error error => (machine, .error error)

def answer (machine : Machine) : (call : MachineCall) → Machine × Output × call.Answer
  | .environmentVariable name => (machine, {}, machine.lookup name)
  | .currentDirectory => (machine, {}, machine.currentDirectory.mapError .os)
  | .metadata path => (machine, {}, forPath path (machine.metadata path))
  | .entries path => (machine, {}, forPath path (machine.entries path))
  | .makeDirectories path =>
    let (machine, result) := machine.changed (forPath path (machine.makeDirectories path))
    (machine, {}, result)
  | .setMode path mode =>
    let (machine, result) := machine.changed (forPath path (machine.setMode path mode))
    (machine, {}, result)
  | .run directory argv => stream machine directory argv
  | .capture directory argv =>
    let (machine, result) := capture machine directory argv
    (machine, {}, result)

end Rollout.Machine

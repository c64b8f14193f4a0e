import Rollout.Deployment.Dialogue
import Rollout.Machine.Service
import Rollout.Rehearsal.Event
import Rollout.Session

/-!
# Rehearsal on a host in memory

A script can be rehearsed without any network: the remote host is one table of files with planned
answers and faults, shared by all sessions, and the operator's machine is a value too. A rehearsal
takes paths as the plain texts they are. Everything asked and told is noted in order.
-/

namespace Rollout.Rehearsal

open Rollout.Deployment (Request SessionCall SessionId Metadata Entry Transfer Report)
open Rollout.Session (Target Setting)

structure World where
  /-- The remote host's files. -/
  remote : Files
  /-- Where sessions start, for hosts without a place of their own. -/
  home : String
  homes : List (String × String) := []
  /-- What captured command lines print. -/
  outputs : List (String × String) := []
  /-- The command lines that fail, with their exit statuses. -/
  failures : List (String × Int) := []
  faults : List Fault := []
  /-- The host that lets nobody in. -/
  refuses : Option String := none
  machine : Machine
  /-- What the operator answers; without an operator nobody can be asked. -/
  operator : Option (Except IoError String) := none
  /-- Whether somebody looks at what is told. -/
  watched : Bool := true
  /-- The hosts of the sessions opened so far. -/
  sessions : List String := []
  /-- What happened, latest first. -/
  events : List Event := []
  shown : Machine.Output := {}

namespace World

def note (world : World) (event : Event) : World :=
  { world with events := event :: world.events }

/-- The world with the end of a transfer's progress noted, if somebody looks. -/
def noteProgress (world : World) (transfer : Transfer) (bytes : Nat) (finished : Bool) : World :=
  if world.watched then world.note (.progressed transfer.label bytes finished) else world

def homeOf (world : World) (host : String) : String :=
  (world.homes.lookup host).getD world.home

def directoryMode : Nat := 0o755

def arrivalMode : Nat := 0o644

def metadata? (world : World) (path : String) : Option Metadata :=
  match world.remote.get? path with
  | some (.file content mode) => some { isDirectory := false, size := content.length, mode }
  | some (.directory _) => some { isDirectory := true, size := 0, mode := directoryMode }
  | _ => none

def entries (world : World) (path : String) : List Entry :=
  (world.remote.children path).reverse.map fun entry =>
    { name := Files.name entry.1, isDirectory := entry.2.isDirectory }

def failure? (world : World) (command : String) (setting : Setting) : Option SessionError :=
  (world.failures.lookup (Session.commandLine command setting)).map (.commandFailed command)

def copied (world : World) (transfer : Transfer) (reads : List Copy.Read) :
    World × Except IoError Nat × Bytes :=
  let (result, progress) := Copy.run {} reads
  (world.noteProgress transfer (Copy.reported progress.advances) (progress.finished > 0), result,
    progress.written)

def upload (world : World) (source target : String) (transfer : Transfer) :
    World × Except SessionError Nat :=
  let unstarted := world.noteProgress transfer 0 false
  match world.machine.readsAt source with
  | .error error => (unstarted, .error (.io (.os error)))
  | .ok reads =>
    let parent := Files.parent target
    if !world.remote.isDirectory parent then (unstarted, .error (.notFound parent))
    else
      let (world, result, written) := world.copied transfer reads
      match result with
      | .error error => (world, .error (.io error))
      | .ok count =>
        ({ world with remote := world.remote.set target (.file written arrivalMode) }, .ok count)

def download (world : World) (source target : String) (transfer : Transfer) :
    World × Except SessionError Nat :=
  let unstarted := world.noteProgress transfer 0 false
  match world.remote.get? source with
  | some (.file content _) =>
    match world.machine.createFile target with
    | .error error => (unstarted, .error (.io (.os error)))
    | .ok (place, machine) =>
      let (world, result, written) := world.copied transfer (Copy.readsOf content)
      ({ world with machine := machine.append place written }, result.mapError .io)
  | _ => (unstarted, .error (.notFound source))

def call (world : World) (host : String) :
    (call : SessionCall) → World × Except SessionError call.Result
  | .close => (world, .ok ())
  | .home => (world, .ok (world.homeOf host))
  | .run command setting =>
    match world.failure? command setting with
    | some error => (world, .error error)
    | none => (world, .ok ())
  | .capture command setting =>
    match world.failure? command setting with
    | some error => (world, .error error)
    | none =>
      (world, .ok ((world.outputs.lookup (Session.commandLine command setting)).getD ""))
  | .stat path =>
    match world.metadata? path with
    | some metadata => (world, .ok metadata)
    | none => (world, .error (.notFound path))
  | .list path =>
    if world.remote.isDirectory path then (world, .ok (world.entries path))
    else (world, .error (.notFound path))
  | .makeDirectories path =>
    ({ world with remote := world.remote.addDirectories path }, .ok ())
  | .upload source target transfer => world.upload source target transfer
  | .download source target transfer => world.download source target transfer
  | .copy source target =>
    match world.remote.get? source with
    | some (.file content _) =>
      let parent := Files.parent target
      if world.remote.isDirectory parent then
        ({ world with remote := world.remote.set target (.file content arrivalMode) }, .ok ())
      else (world, .error (.notFound parent))
    | _ => (world, .error (.notFound source))
  | .chmod path mode =>
    match world.remote.get? path with
    | some (.file content _) =>
      ({ world with remote := world.remote.set path (.file content mode) }, .ok ())
    | some _ => (world, .ok ())
    | none => (world, .error (.notFound path))
  | .rename source target =>
    if (world.remote.get? source).isSome then
      ({ world with remote := world.remote.rename source target }, .ok ())
    else (world, .error (.notFound source))
  | .remove path =>
    if !(world.remote.children path).isEmpty then
      (world, .error (.io (.other "directory not empty")))
    else if (world.remote.get? path).isSome then
      ({ world with remote := world.remote.erase path }, .ok ())
    else (world, .error (.notFound path))

/-- The world after a call that was struck by a fault: a transfer's progress ends where it began. -/
def struck (world : World) : SessionCall → World
  | .upload _ _ transfer | .download _ _ transfer => world.noteProgress transfer 0 false
  | _ => world

def dial (world : World) (target : Target) : World × Except SessionError SessionId :=
  if world.refuses = some target.host then (world, .error (.auth target.username target.host))
  else ({ world with sessions := world.sessions ++ [target.host] }, .ok world.sessions.length)

def answer (world : World) : (request : Request) → World × request.Answer
  | .askPassword question =>
    match world.operator with
    | none => (world, .error Session.nobodyToAsk)
    | some reply => (world.note (.asked question), reply)
  | .dial target =>
    let world := world.note (.dialed target)
    match planned world.faults (.dialed target) with
    | some error => (world, .error error)
    | none => world.dial target
  | .session id call =>
    let world := world.note (.called call)
    match planned world.faults (.called call) with
    | some error => (world.struck call, .error error)
    | none => world.call ((world.sessions[id]?).getD "") call
  | .machine call =>
    let (machine, output, result) := world.machine.answer call
    ({ world with machine, shown := world.shown.append output }, result)
  | .report report => (if world.watched then world.note (.told report) else world, ())

def carryOut {α : Type} (world : World) (dialogue : Deployment.Dialogue α) : α × World :=
  let effects (request : Request) : StateM World request.Answer := fun world =>
    let (world, reply) := world.answer request
    (reply, world)
  (dialogue.interpret effects).run world

end World

end Rollout.Rehearsal

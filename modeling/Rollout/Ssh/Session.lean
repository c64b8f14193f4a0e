import Rollout.Deployment.Dialogue
import Rollout.Ssh.World

/-!
# Sessions over SSH

How the calls of a session are carried out: commands on channels of their own, files by requests to the
host's file server. Every call is a short sequence of requests; what was done before a request failed
stays done.

It is the implementation that section 2 of the specification names, of the calls in section 6.
-/

namespace Rollout.Ssh

open Rollout.Deployment (Metadata Entry Transfer SessionCall SessionId MachineCall)
open Rollout.Session (Target Setting)
open Rollout.Sftp (Status Attributes)

/-- What is done on a connection; it may fail, and what it did before stays. -/
abbrev Exchange (α : Type) : Type := ExceptT SessionError (StateM World) α

namespace Exchange

def change (f : World → World) : Exchange Unit :=
  modify f

def refuse {α : Type} (status : Status) : Exchange α :=
  throw (.ssh status.error)

/-- Sends a request, which fails if it is planned to. -/
def request (request : Request) : Exchange Unit := do
  change (·.note (.requested request))
  match (← get).host.fault? request with
  | some status => refuse status
  | none => pure ()

/-- What the file server finds. -/
def found {α : Type} (result : Except Status α) : Exchange α :=
  match result with
  | .ok value => pure value
  | .error status => refuse status

/-- Puts the tree in which a request resulted in place of the host's tree. -/
def settle (result : Except Status Files) : Exchange Unit := do
  let files ← found result
  change fun world => { world with host := { world.host with files } }

/-- The same exchange with a missing path named. -/
def naming {α : Type} (path : String) (exchange : Exchange α) : Exchange α :=
  tryCatch exchange fun error =>
    match error with
    | .ssh inner => if inner.isMissing then throw (.notFound path) else throw error
    | _ => throw error

end Exchange

open Exchange

/-- The mode with which a new file is made, with the mark of a file. -/
def fileMode : Nat := 0o644 ||| Sftp.fileBits

/-- The mode with which a new directory is made, with the mark of a directory. -/
def directoryMode : Nat := 0o755 ||| Sftp.directoryBits

def attributes (follow : Bool) (path : String) : Exchange Attributes := do
  request (if follow then .stat path else .statLink path)
  let host := (← get).host
  let (place, node) ← found (Sftp.find host.files follow path)
  return host.attributes place node

def stat (path : String) : Exchange Metadata := do
  let attributes ← naming path (attributes true path)
  return {
    isDirectory := attributes.isDirectory
    size := attributes.size.getD 0
    mode := (attributes.permissions.getD 0) &&& Sftp.modeMask }

/-- The entries of a directory other than itself and the one above it. -/
def list (path : String) : Exchange (List Entry) := do
  request (.openDirectory path)
  let host := (← get).host
  let entries ← found (Sftp.list host.files path)
  return (entries.filter fun entry => entry.1 ≠ "." && entry.1 ≠ "..").map fun (name, place, node) =>
    { name, isDirectory := (host.attributes place node).isDirectory }

def ensureDirectory (path : String) : Exchange Unit :=
  tryCatch (do let _ ← attributes true path) fun error =>
    match error with
    | .ssh inner =>
      if inner.isMissing then do
        request (.makeDirectory path directoryMode)
        settle (Sftp.makeDirectory (← get).host.files path directoryMode)
      else throw error
    | _ => throw error

def ensureAll : List String → Exchange Unit
  | [] => pure ()
  | path :: rest => do
    ensureDirectory path
    ensureAll rest

def makeDirectories (path : String) : Exchange Unit :=
  ensureAll (Files.prefixesFrom "/"
    ((Text.splitOn '/' path.toList).filter fun segment => !segment.isEmpty))

def openRead (path : String) : Exchange String :=
  naming path do
    request (.openRead path)
    found (Sftp.openRead (← get).host.files path)

def openWrite (path : String) : Exchange String := do
  request (.openWrite path fileMode)
  let (place, files) ← found (Sftp.openWrite (← get).host.files path fileMode)
  change fun world => { world with host := { world.host with files } }
  return place

/-- What is said when an open remote file cannot be read or written. -/
def brokenFile : IoError :=
  .other Status.failure.text

def readsAt (host : Host) (place : String) : List Copy.Read :=
  if host.unreadable = some place then [.failed brokenFile]
  else Copy.readsOf (Sftp.contentAt host.files place)

def writerAt (host : Host) (place : String) : Copy.Writer :=
  if host.unwritable = some place then { error := fun _ => some brokenFile } else {}

def store (place : String) (written : Bytes) : Exchange Unit :=
  change fun world => { world with
    host := { world.host with files := Sftp.fill world.host.files place written } }

def concluded {α : Type} (result : Except SessionError α) : Exchange α :=
  match result with
  | .ok value => pure value
  | .error error => throw error

def copied {α : Type} (result : Except IoError α) : Exchange α :=
  concluded (result.mapError .io)

/-- What is said when a transfer broke down because its progress could not be worked out. -/
def brokenDrawing : SessionError :=
  .task "task panicked with message \"attempt to multiply with overflow\""

/-- What a transfer has written and what it comes to. One whose drawing breaks off breaks down with it, at the
read that was to be told of. -/
def World.transferred (world : World) (transfer : Transfer) (result : Except IoError Nat)
    (progress : Copy.Progress) : Bytes × Except SessionError Nat :=
  let finished := progress.finished > 0
  match world.drawing? transfer progress.advances finished with
  | some { bar, brokeOff := true, .. } => (progress.written.take bar.done.toNat, .error brokenDrawing)
  | _ => (progress.written, result.mapError .io)

/-- An exchange before the bytes of a transfer; if it fails the progress ends where it began. -/
def beforeTransfer {α : Type} (transfer : Transfer) (exchange : Exchange α) : Exchange α :=
  tryCatch exchange fun error => do
    change (·.progress transfer [] false)
    throw error

def upload (source target : String) (transfer : Transfer) : Exchange Nat := do
  let (reads, place) ← beforeTransfer transfer do
    let reads ← copied (((← get).machine.readsAt source).mapError .os)
    return (reads, ← openWrite target)
  let world ← get
  let (result, progress) := Copy.run (writerAt world.host place) reads
  let (written, result) := world.transferred transfer result progress
  store place written
  change (·.progress transfer progress.advances (progress.finished > 0))
  concluded result

def download (source target : String) (transfer : Transfer) : Exchange Nat := do
  let (place, localPlace) ← beforeTransfer transfer do
    let place ← openRead source
    let (localPlace, machine) ← copied (((← get).machine.createFile target).mapError .os)
    change fun world => { world with machine }
    return (place, localPlace)
  let world ← get
  let (result, progress) := Copy.run {} (readsAt world.host place)
  let (written, result) := world.transferred transfer result progress
  change fun world => { world with machine := world.machine.append localPlace written }
  change (·.progress transfer progress.advances (progress.finished > 0))
  concluded result

def copy (source target : String) : Exchange Unit := do
  let reader ← openRead source
  let writer ← openWrite target
  let host := (← get).host
  let (result, progress) := Copy.run (writerAt host writer) (readsAt host reader)
  store writer progress.written
  let _ ← copied result

def setMode (path : String) (mode : Nat) : Exchange Unit := do
  request (.setMode path mode)
  settle (Sftp.setMode (← get).host.files path mode)

def rename (source target : String) : Exchange Unit := do
  request (.rename source target)
  settle (Sftp.rename (← get).host.files source target)

/-- Removes what stands at a path: an empty directory, or a file or link, which is not followed. -/
def remove (path : String) : Exchange Unit := do
  if (← attributes false path).isDirectory then
    request (.removeDirectory path)
    settle (Sftp.removeDirectory (← get).host.files path)
  else
    request (.removeFile path)
    settle (Sftp.removeFile (← get).host.files path)

def home : Exchange String := do
  request (.realPath ".")
  return (← get).host.home

def noChannel : SshError :=
  { layer := .session, code := -21, text := "Channel open failure (administratively prohibited)" }

def notStarted : SshError :=
  { layer := .session, code := -22,
    text := "Unable to complete request for channel-process-startup" }

/-- Starts a command line on a channel of its own. -/
def execute (line : String) : Exchange Reply := do
  if (← get).host.isFull then throw (.ssh noChannel)
  change fun world => { world with host := { world.host with channels := world.host.channels + 1 } }
  change (·.note (.executed line))
  let reply := (← get).host.reply line
  if reply.refused then throw (.ssh notStarted)
  return reply

def expectSuccess (command : String) (reply : Reply) : Exchange Unit :=
  if reply.ending.status = 0 then pure ()
  else throw (.commandFailed command reply.ending.status)

def run (command : String) (setting : Setting) : Exchange Unit := do
  let reply ← execute (Session.commandLine command setting)
  change fun world => { world with
    shown := world.shown.append { out := reply.stream true, err := reply.stream false } }
  expectSuccess command reply

def capture (command : String) (setting : Setting) : Exchange String := do
  let reply ← execute (Session.commandLine command setting)
  expectSuccess command reply
  return Text.decodeLossy reply.captured

def call : (call : SessionCall) → Exchange call.Result
  | .close => pure ()
  | .home => home
  | .run command setting => run command setting
  | .capture command setting => capture command setting
  | .stat path => stat path
  | .list path => list path
  | .makeDirectories path => makeDirectories path
  | .upload source target transfer => upload source target transfer
  | .download source target transfer => download source target transfer
  | .copy source target => copy source target
  | .chmod path mode => setMode path mode
  | .rename source target => rename source target
  | .remove path => remove path

def noTime : IoError :=
  .other "cannot set a 0 duration timeout"

def noBanner : SshError :=
  { layer := .session, code := -13, text := "Failed getting banner" }

def noFirstChannel : SshError :=
  { layer := .session, code := -21, text := "Unable to startup channel" }

def noFileServer : SshError :=
  { layer := .session, code := -21, text := "Unable to request SFTP subsystem" }

/-- Connects, logs in and starts the file server. -/
def connect (target : Target) : Exchange SessionId := do
  let world ← get
  let host := world.host
  if !world.reachable then throw (.io (.os .unreachable))
  if world.timeout = 0 then throw (.io noTime)
  if host.closed then throw (.io (.os .refused))
  if host.greeting.isSome then throw (.ssh noBanner)
  change (·.note (.authenticated target.username target.password))
  if target.password ≠ host.password then
    throw (.auth target.username (world.dialled target.host))
  change fun world => { world with host := { world.host with channels := 0 } }
  if (← get).host.isFull then throw (.ssh noFirstChannel)
  change fun world => { world with host := { world.host with channels := 1 } }
  if !host.servesFiles then throw (.ssh noFileServer)
  return 0

namespace World

def exchange {α : Type} (world : World) (exchange : Exchange α) : World × Except SessionError α :=
  let (result, world) := exchange.run.run world
  (world, result)

def answer (world : World) : (request : Deployment.Request) → World × request.Answer
  | .askPassword question => world.ask question
  | .dial target => world.exchange (connect target)
  | .session _ call => world.exchange (Ssh.call call)
  | .machine call =>
    let (machine, output, result) := world.machine.answer call
    ({ world with machine, shown := world.shown.append output }, result)
  | .report report => (world.tell report, ())

/-- Carries a dialogue out in this world. What the operator is told goes on without a line that is refused. -/
def carryOut {α : Type} (world : World) (dialogue : Deployment.Dialogue α) : α × World :=
  let effects (request : Deployment.Request) : StateM World request.Answer := fun world =>
    let (world, reply) := world.answer request
    (reply, world)
  (dialogue.interpret effects).run world

/-- Whether a request is told by a line that is refused. -/
def breaksOff (world : World) : Deployment.Request → Bool
  | .report report => world.loses report
  | _ => false

end World

/-- The answer to a request, unless it is told by a line that is refused. -/
def answerAloud (request : Deployment.Request) : OptionT (StateM World) request.Answer := fun world =>
  if world.breaksOff request then (none, world)
  else
    let (world, reply) := world.answer request
    (some reply, world)

/-- Carries a dialogue out in this world up to the first line that is refused, if there is one. -/
def World.carryOutAloud {α : Type} (world : World) (dialogue : Deployment.Dialogue α) : Option α × World :=
  (dialogue.interpret answerAloud).run.run world

end Rollout.Ssh

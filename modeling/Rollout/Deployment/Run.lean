import Rollout.Deployment.Context
import Rollout.Deployment.Transfer
import Rollout.Session

/-!
# Running a script

Each action changes its own part of the context and nothing else, and an action that fails changes
none of it, with one exception: a connect that fails may have closed the old session or left a new one
open, and the context always knows which session is open.

Steps run strictly in order and the first failure ends the run. Placeholders are resolved when a step's
turn comes, but reports and errors show the step as it stands in the script, since values may be
secrets. Whatever happens, no session is left open.

This is the runner of section 4.4 of the specification.
-/

namespace Rollout.Deployment

open Rollout.Script (Action Login Source)
open Rollout.Session (Setting Target)
open Rollout.Text (trimmed)

/-- Closes the open session, if there is one. That closing fails changes nothing. -/
def disconnect (context : Context) : Dialogue Context :=
  match context.session with
  | none => pure context
  | some session => do
    let _ ← Dialogue.request (.session session .close)
    return { context with session := none }

/-- The password of a login, asked for if the login has none. -/
def passwordFor (login : Login) : Dialogue (Except IoError String) :=
  match login.password with
  | some password => pure (.ok password)
  | none => Dialogue.request (.askPassword Session.passwordQuestion)

def localDirectoryOf (setup : Setup) : Dialogue (Except IoError String) :=
  match setup.localDirectory with
  | some directory => pure (.ok directory)
  | none => Dialogue.request (.machine .currentDirectory)

/-- Opens a session in place of the open one and finds both working directories. -/
def connect (setup : Setup) (context : Context) (login : Login) : Dialogue Outcome := do
  let context ← disconnect context
  match ← passwordFor login with
  | .error error => return { context, failure := some (.prompt error) }
  | .ok password =>
    let target : Target := {
      host := login.host, port := login.port, username := login.username, password }
    let dialed : Except SessionError SessionId ← Dialogue.request (.dial target)
    match dialed with
    | .error error => return { context, failure := some (.connection error) }
    | .ok session =>
      let context := { context with session := some session }
      let home : Except SessionError String ← Dialogue.request (.session session .home)
      match home with
      | .error error => return { context, failure := some (.connection error) }
      | .ok remoteDirectory =>
        match ← localDirectoryOf setup with
        | .error error => return { context, failure := some (.connection (.io error)) }
        | .ok localDirectory =>
          return { context := { context with remoteDirectory, localDirectory } }

def sessionOf (context : Context) : Attempt ActionError SessionId :=
  match context.session with
  | some session => pure session
  | none => throw .notConnected

def onSession (context : Context) (call : SessionCall) : Attempt ActionError call.Result := do
  let session ← sessionOf context
  (Attempt.session session call).failingAs .remote

/-- The value of a remote environment variable, as the remote shell shows it in the directory in
which the session starts. -/
def readRemoteVariable (context : Context) (name : String) : Attempt ActionError String := do
  let output ← onSession context
    (.capture ("echo $" ++ name) { environment := context.environment })
  return trimmed output

/-- The value of a variable's source. An environment variable that is not set is empty, and the
output of a command is trimmed. -/
def valueOf (setup : Setup) (context : Context) : Source → Attempt ActionError String
  | .literal value => pure value
  | .environment .here name => do
    let value : Option String ← ExceptT.lift (Dialogue.request (.machine (.environmentVariable name)))
    return value.getD ""
  | .environment .remote name => readRemoteVariable context name
  | .command .here argv => do
    let output ← Attempt.asking .onLocal
      (Dialogue.request (.machine (.capture setup.localDirectory argv)))
    return trimmed output
  | .command .remote argv => do
    let output ← onSession context (.capture (Action.spaced argv) context.setting)
    return trimmed output

def copyRemote (context : Context) (source target : String) : Attempt ActionError Unit := do
  let source := context.remotePath source
  let target := context.remotePath target
  let metadata ← onSession context (.stat source)
  onSession context (.copy source target)
  onSession context (.chmod target metadata.mode)

/-- Deletes one remote path, unless it is protected or missing, which is told but is no failure. -/
def deleteOne (setup : Setup) (session : SessionId) (path : String) : Attempt ActionError Unit := do
  if setup.protectedPaths.contains path then
    Attempt.report (.skipped path .isProtected)
  else
    let found : Except SessionError Metadata ←
      ExceptT.lift (Dialogue.request (.session session (.stat path)))
    match found with
    | .error (.notFound _) => Attempt.report (.skipped path .isMissing)
    | .error error => throw (.remote error)
    | .ok _ => (Attempt.session session (.remove path)).failingAs .remote

def deleteAll (setup : Setup) (context : Context) (session : SessionId) :
    List String → Attempt ActionError Unit
  | [] => pure ()
  | target :: rest => do
    deleteOne setup session (context.remotePath target)
    deleteAll setup context session rest

/-- Sends the sources in order into a remote directory, up to the first failure. -/
def uploadAll (setup : Setup) (context : Context) (session : SessionId) (directory : String) :
    List String → Attempt ActionError Unit
  | [] => pure ()
  | source :: rest => do
    let _ ← (upload setup.depth session (LocalPath.join context.localDirectory source)
      directory).failingAs .transfer
    uploadAll setup context session directory rest

/-- Fetches the sources in order into a local directory, up to the first failure. -/
def downloadAll (setup : Setup) (context : Context) (session : SessionId) (directory : String) :
    List String → Attempt ActionError Unit
  | [] => pure ()
  | source :: rest => do
    let _ ← (download setup.depth session (context.remotePath source) directory).failingAs .transfer
    downloadAll setup context session directory rest

/-- Carries out an action other than a connect. What it returns is the new context. -/
def change (setup : Setup) (context : Context) : Action → Attempt ActionError Context
  | .connect _ => pure context
  | .var key source => do
    let value ← valueOf setup context source
    return { context with bindings := context.bindings.set key value }
  | .env key value => pure { context with environment := context.environment.set key value }
  | .cd target => pure { context with remoteDirectory := context.remotePath target }
  | .cmd program arguments => do
    Attempt.asking .onLocal
      (Dialogue.request (.machine (.run setup.localDirectory (program :: arguments))))
    return context
  | .run command => do
    onSession context (.run command context.setting)
    return context
  | .move source target => do
    onSession context (.rename (context.remotePath source) (context.remotePath target))
    return context
  | .copy source target => do
    copyRemote context source target
    return context
  | .delete targets => do
    deleteAll setup context (← sessionOf context) targets
    return context
  | .upload sources directory => do
    uploadAll setup context (← sessionOf context) (context.remotePath directory) sources
    return context
  | .download sources directory => do
    downloadAll setup context (← sessionOf context)
      (LocalPath.join context.localDirectory directory) sources
    return context

/-- Carries out an action whose placeholders are resolved. -/
def execute (setup : Setup) (context : Context) (action : Action) : Dialogue Outcome :=
  if action.needsConnection && context.session.isNone then
    pure { context, failure := some .notConnected }
  else match action with
    | .connect login => connect setup context login
    | action => do
      match ← (change setup context action).run with
      | .ok context => return { context }
      | .error failure => return { context, failure := some failure }

/-- Runs steps one after the other, up to the first failure. -/
def runSteps (setup : Setup) : List Script.Step → Context → Dialogue (Context × Except RunError Unit)
  | [], context => do
    Dialogue.request (.report (.finished (context.step + 1)))
    return (context, .ok ())
  | step :: rest, context => do
    let number := context.step + 1
    let outcome ← execute setup { context with step := number }
      (step.action.substitute context.bindings)
    match outcome.failure with
    | some cause => return (outcome.context, .error (.step number step.action.display cause))
    | none =>
      Dialogue.request (.report (.stepCompleted number step.action))
      runSteps setup rest outcome.context

/-- Runs a script from a fresh context and returns the context at the end. -/
def run (setup : Setup) (script : Script) : Dialogue (Context × Except RunError Unit) := do
  let (context, result) ← runSteps setup script.steps {}
  return (← disconnect context, result)

end Rollout.Deployment

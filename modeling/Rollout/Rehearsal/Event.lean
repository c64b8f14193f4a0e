import Rollout.Deployment.Request

/-!
# What a rehearsal writes down

A rehearsal notes, in order, what a deployment asks for and what it tells. Each event has a name and,
for most, a subject: the first thing it names. Faults are planned by name and subject.
-/

namespace Rollout.Deployment

def SessionCall.name : SessionCall → String
  | close => "close"
  | home => "home"
  | run .. => "run"
  | capture .. => "captured"
  | stat _ => "stat"
  | list _ => "list"
  | makeDirectories _ => "mkdir"
  | upload .. => "upload"
  | download .. => "download"
  | copy .. => "copy"
  | chmod .. => "chmod"
  | rename .. => "rename"
  | remove _ => "remove"

/-- The texts that a call names: for a command its whole line, for the rest the paths. -/
def SessionCall.subjects : SessionCall → List String
  | close | home => []
  | run command setting | capture command setting => [Session.commandLine command setting]
  | stat path | list path | makeDirectories path | remove path => [path]
  | chmod path _ => [path]
  | upload source target _ | download source target _ | copy source target
  | rename source target => [source, target]

end Rollout.Deployment

namespace Rollout.Rehearsal

open Rollout.Deployment (SessionCall Report)
open Rollout.Session (Target)

inductive Event where
  | asked (question : String)
  | dialed (target : Target)
  | called (call : SessionCall)
  | told (report : Report)
  /-- A transfer's progress came to its end after so many bytes, finished or not. -/
  | progressed (label : String) (bytes : Nat) (finished : Bool)
  deriving DecidableEq

namespace Event

/-- The word for what happened; what is only told has none. -/
def name : Event → Option String
  | asked _ => some "prompt"
  | dialed _ => some "dial"
  | called call => some call.name
  | told _ | progressed .. => none

def subject : Event → Option String
  | asked question => some question
  | dialed target => some target.display
  | called call => call.subjects.head?
  | told _ | progressed .. => none

end Event

/-- A call that is planned to fail, every time its name and subject come up. -/
structure Fault where
  call : String
  /-- What the call must be about; any call of that name if absent. -/
  subject : Option String := none
  error : SessionError
  deriving DecidableEq, Repr

def Fault.strikes (fault : Fault) (event : Event) : Bool :=
  event.name = some fault.call && (fault.subject.isNone || fault.subject = event.subject)

/-- The error of the first fault that strikes an event. -/
def planned (faults : List Fault) (event : Event) : Option SessionError :=
  (faults.find? (·.strikes event)).map (·.error)

end Rollout.Rehearsal

import Rollout.Copy
import Rollout.Failure
import Rollout.Script.Action
import Rollout.Session

/-!
# What a deployment asks of the world

A deployment touches nothing itself. Whatever it needs from outside, the remote host, the operator's
machine, the operator, or the place where progress is shown, it asks for by a request, and every
request that can fail has an answer that can say so. A deployment's behaviour is then a statement about
requests and answers, for any world that gives the answers.

Section 6 of the specification lists the calls.
-/

namespace Rollout.Deployment

open Rollout.Session (Environment Setting Target)
open Rollout.Script (Action)

abbrev SessionId := Nat

structure Metadata where
  isDirectory : Bool
  size : Nat
  /-- Permission bits. -/
  mode : Nat
  deriving DecidableEq, Repr

structure Entry where
  name : String
  isDirectory : Bool
  deriving DecidableEq, Repr

structure Transfer where
  label : String
  total : Nat
  deriving DecidableEq, Repr

/-- What can be asked of an open session. Remote paths are resolved before they get here. -/
inductive SessionCall where
  | close
  /-- The directory in which the session starts. -/
  | home
  /-- Run a command and show its output as it comes. -/
  | run (command : String) (setting : Setting)
  /-- Run a command and return its output. -/
  | capture (command : String) (setting : Setting)
  | stat (path : String)
  /-- The entries of a directory, without `.` and `..`, in any order. -/
  | list (path : String)
  /-- Create a directory and every parent that is missing. -/
  | makeDirectories (path : String)
  /-- Copy a local file to a remote path and return the number of bytes. -/
  | upload (source target : String) (transfer : Transfer)
  /-- Copy a remote file to a local path and return the number of bytes. -/
  | download (source target : String) (transfer : Transfer)
  | copy (source target : String)
  | chmod (path : String) (mode : Nat)
  | rename (source target : String)
  /-- Remove a file or an empty directory. -/
  | remove (path : String)
  deriving DecidableEq, Repr

def SessionCall.Result : SessionCall → Type
  | home | capture .. => String
  | stat _ => Metadata
  | list _ => List Entry
  | upload .. | download .. => Nat
  | close | run .. | makeDirectories _ | copy .. | chmod .. | rename .. | remove _ => Unit

inductive MachineCall where
  | environmentVariable (name : String)
  | currentDirectory
  /-- Kind, size and permissions of what a path leads to. -/
  | metadata (path : String)
  /-- The names in a directory, in any order. -/
  | entries (path : String)
  | makeDirectories (path : String)
  | setMode (path : String) (mode : Nat)
  /-- Run a program in a directory and show its output as it comes. -/
  | run (directory : Option String) (argv : List String)
  /-- Run a program in a directory without input and return its output. -/
  | capture (directory : Option String) (argv : List String)
  deriving DecidableEq, Repr

def MachineCall.Answer : MachineCall → Type
  | environmentVariable _ => Option String
  | currentDirectory => Except IoError String
  | metadata _ => Except IoError Metadata
  | entries _ => Except IoError (List String)
  | makeDirectories _ | setMode .. => Except IoError Unit
  | run .. => Except LocalError Unit
  | capture .. => Except LocalError String

inductive SkipReason where
  | isProtected
  | isMissing
  deriving DecidableEq, Repr

inductive Report where
  | stepCompleted (number : Nat) (action : Action)
  /-- All steps ran; the number is one more than theirs. -/
  | finished (number : Nat)
  | skipped (path : String) (reason : SkipReason)
  /-- A transfer is about to start. -/
  | transfer (transfer : Transfer)
  deriving DecidableEq, Repr

/-- Everything a deployment can ask for. -/
inductive Request where
  | askPassword (question : String)
  /-- Connect and log in. -/
  | dial (target : Target)
  | session (id : SessionId) (call : SessionCall)
  | machine (call : MachineCall)
  | report (report : Report)
  deriving DecidableEq

def Request.Answer : Request → Type
  | askPassword _ => Except IoError String
  | dial _ => Except SessionError SessionId
  | session _ call => Except SessionError call.Result
  | machine call => call.Answer
  | report _ => Unit

end Rollout.Deployment

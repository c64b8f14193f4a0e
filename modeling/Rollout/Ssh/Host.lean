import Rollout.Deployment.Request
import Rollout.Sftp.Tree

/-!
# A remote host

A host that can be reached by SSH: who is let in, what its commands do, and its tree of files. A host
may be planned to refuse single requests. What it is asked is noted in order.
-/

namespace Rollout.Ssh

open Rollout.Deployment (Report)
open Rollout.Sftp (Status)

/-- A request to the host's file server. -/
inductive Request where
  | realPath (path : String)
  | stat (path : String)
  | statLink (path : String)
  | openDirectory (path : String)
  | removeDirectory (path : String)
  | removeFile (path : String)
  | rename (source target : String)
  | makeDirectory (path : String) (mode : Nat)
  | setMode (path : String) (mode : Nat)
  | openRead (path : String)
  /-- Open for writing, emptied, or made anew with the given mode. -/
  | openWrite (path : String) (mode : Nat)
  deriving DecidableEq, Repr

namespace Request

def name : Request → String
  | realPath _ => "realpath"
  | stat _ => "stat"
  | statLink _ => "lstat"
  | openDirectory _ => "opendir"
  | removeDirectory _ => "rmdir"
  | removeFile _ => "remove"
  | rename .. => "rename"
  | makeDirectory .. => "mkdir"
  | setMode .. => "setstat"
  | openRead _ | openWrite .. => "open"

def path : Request → String
  | realPath path | stat path | statLink path | openDirectory path | removeDirectory path
  | removeFile path | makeDirectory path _ | setMode path _ | openRead path | openWrite path _ => path
  | rename source _ => source

end Request

inductive Note where
  | authenticated (username password : String)
  | executed (line : String)
  | requested (request : Request)
  | told (report : Report)
  /-- A transfer's progress came to its end after so many bytes, finished or not. -/
  | progressed (label : String) (bytes : Nat) (finished : Bool)
  deriving DecidableEq

inductive Ending where
  | exited (status : UInt32)
  | signalled
  /-- The channel closes and tells no status. -/
  | untold
  deriving DecidableEq, Repr

/-- The status that the client takes an ending for: a signal and no status at all look like success. -/
def Ending.status : Ending → Int
  | exited status => status.toInt32.toInt
  | signalled | untold => 0

structure Reply where
  /-- The output in order; `true` is the standard output. -/
  output : List (Bool × Bytes) := []
  ending : Ending := .exited 0
  /-- Whether the chunks of output come one by one. -/
  paced : Bool := false
  /-- Whether the host does not start the command. -/
  refused : Bool := false
  deriving DecidableEq, Repr

def Reply.stream (reply : Reply) (standard : Bool) : Bytes :=
  (reply.output.filter fun chunk => chunk.1 == standard).flatMap (·.2)

/-- All output as it reaches a client that keeps it: in order if it comes bit by bit, else one stream
after the other. -/
def Reply.captured (reply : Reply) : Bytes :=
  if reply.paced then reply.output.flatMap (·.2) else reply.stream true ++ reply.stream false

/-- A request that is planned to fail, every time its name and path come up. -/
structure Fault where
  request : String
  path : Option String := none
  status : Status
  deriving DecidableEq, Repr

structure Host where
  home : String := "/home/deploy"
  /-- The password with which anybody is let in. -/
  password : String := "p"
  files : Files := {}
  /-- The places of which the file server tells neither size nor permissions. -/
  bare : List String := []
  commands : List (String × Reply) := []
  faults : List Fault := []
  /-- The file that cannot be read, and the file that cannot be written, once open. -/
  unreadable : Option String := none
  unwritable : Option String := none
  /-- How many channels a connection may open. -/
  maxChannels : Option Nat := none
  servesFiles : Bool := true
  /-- What the host sends to begin with, if it does not speak the protocol. -/
  greeting : Option String := none
  /-- Whether nothing listens there. -/
  closed : Bool := false
  /-- The channels that the connection has opened. -/
  channels : Nat := 0
  deriving DecidableEq, Repr

namespace Host

def isFull (host : Host) : Bool :=
  host.maxChannels.any fun most => decide (most ≤ host.channels)

def fault? (host : Host) (request : Request) : Option Status :=
  (host.faults.find? fun fault =>
    fault.request = request.name && (fault.path.isNone || fault.path = some request.path)).map (·.status)

def attributes (host : Host) (place : String) (node : Node) : Sftp.Attributes :=
  if host.bare.contains place then {} else Sftp.attributesOf node

/-- What a command line does; one that the host does not know does nothing. -/
def reply (host : Host) (line : String) : Reply :=
  (host.commands.lookup line).getD {}

end Host

end Rollout.Ssh

import Rollout.Machine.Service
import Rollout.Session
import Rollout.Ssh.Host
import Rollout.Terminal.Bar
import Rollout.Terminal.Prompt
import Rollout.Terminal.Report

/-!
# The world of a real run

The operator's machine and terminal, the network, and the host at its other end, as one value that
everything in a run changes.
-/

namespace Rollout.Ssh

open Rollout.Deployment (Report Transfer)

structure Console where
  /-- Whether the standard output shows colours. -/
  coloured : Bool := false
  /-- Whether the standard error can be drawn on. -/
  bars : Bool := false
  /-- Whether the input comes from keys. -/
  keys : Bool := false
  deriving DecidableEq, Repr

inductive Standard where
  | out
  | err
  deriving DecidableEq, Repr

def Standard.output : Standard → String → Machine.Output
  | out, text => { out := text.toUTF8.toList }
  | err, text => { err := text.toUTF8.toList }

/-- Why a text that is written on a stream after what was shown is refused, if it is. -/
abbrev Refusal := Machine.Output → Standard → String → Option IoError

structure World where
  machine : Machine
  host : Host := {}
  /-- Whether the network leads anywhere. -/
  reachable : Bool := true
  /-- How long to wait for a connection, in milliseconds. -/
  timeout : UInt64 := 10000
  /-- The name of the host that is dialled for a name. -/
  dialled : String → String := id
  /-- Without a console nobody can be asked and nothing is shown. -/
  console : Option Console := none
  /-- The input that the program has taken but not used, as bytes or as keys. -/
  taken : Terminal.Input := {}
  shown : Machine.Output := {}
  /-- What commands show is not held to this, only what the program writes itself. -/
  refusal : Refusal := fun _ _ _ => none
  /-- What happened, latest first. -/
  notes : List Note := []

namespace World

def note (world : World) (note : Note) : World :=
  { world with notes := note :: world.notes }

def refuses? (world : World) (stream : Standard) (text : String) : Option IoError :=
  world.refusal world.shown stream text

/-- The world with a text on a stream, if it is not refused. -/
def print? (world : World) (stream : Standard) (text : String) : Option World :=
  match world.refuses? stream text with
  | some _ => none
  | none => some { world with shown := world.shown.append (stream.output text) }

def print (world : World) (stream : Standard) (text : String) : World :=
  (world.print? stream text).getD world

/-- Writes lines one after the other on the standard output, up to one that is refused. -/
def printAll? (world : World) : List String → Option Unit × World
  | [] => (some (), world)
  | line :: rest =>
    match world.print? .out line with
    | none => (none, world)
    | some world => world.printAll? rest

def line? (world : World) (report : Report) : Option String :=
  world.console.bind fun console => Terminal.line? console.coloured report

/-- The world after the operator is told something. -/
def tell (world : World) (report : Report) : World :=
  let world := world.note (.told report)
  match world.line? report with
  | none => world
  | some line => world.print .out line

/-- Whether what the operator is told comes to a line that is refused. -/
def loses (world : World) (report : Report) : Bool :=
  match world.line? report with
  | none => false
  | some line => (world.refuses? .out line).isSome

/-- The bar of a transfer, if one is drawn. That it cannot be shown is passed over. -/
def drawing? (world : World) (transfer : Transfer) (advances : List Nat) (finished : Bool) :
    Option Terminal.Bar.Drawing :=
  match world.console with
  | none => none
  | some console =>
    if console.bars then
      some (Terminal.Bar.drawing transfer.label (UInt64.ofNat transfer.total) (advances.map UInt64.ofNat) finished)
    else none

/-- The world after the progress of a transfer came to its end. -/
def progress (world : World) (transfer : Transfer) (advances : List Nat) (finished : Bool) : World :=
  let world := world.note (.progressed transfer.label (Copy.reported advances) finished)
  match world.drawing? transfer advances finished with
  | none => world
  | some drawing => world.print .err drawing.text

/-- Ends the line of a question whose answer was hidden, which may be refused as well. -/
def endHidden (world : World) (answer : String) : World × Except IoError String :=
  match world.refuses? .err "\n" with
  | some error => (world, .error error)
  | none => (world.print .err "\n", .ok answer)

def ask (world : World) (question : String) : World × Except IoError String :=
  match world.console with
  | none => (world, .error Session.nobodyToAsk)
  | some console =>
    match world.refuses? .err (Terminal.question question) with
    | some error => (world, .error error)
    | none =>
      let asked := world.print .err (Terminal.question question)
      let (answer, input) := Terminal.answer console.keys { world.taken with waiting := world.machine.input }
      let world := { asked with
        machine := { world.machine with input := input.waiting }
        taken := { input with waiting := [] } }
      match answer with
      | .ok answer => if console.keys then world.endHidden answer else (world, .ok answer)
      | .error error => (world, .error error)

end World

end Rollout.Ssh

import Rollout.Script.Keyword
import Rollout.Variables

/-!
# Actions

What a statement asks for, with its parts told apart. An action can say whether it needs a connection,
and can be shown in one line; that line never holds a password. Placeholders are resolved against the
variables when the action's turn comes; the keys of assignments, ports and literal values are not
touched, so an action keeps its kind and its shape.

The actions are those of section 3 of the specification; which of them need a connection, section 4.4 says.
-/

namespace Rollout.Script

/-- Where something is read or run: on the operator's machine or on the remote host. -/
inductive Side where
  | here
  | remote
  deriving DecidableEq, Repr

def Side.word : Side → String
  | here => "local"
  | remote => "remote"

/-- Where a variable gets its value from. -/
inductive Source where
  /-- The text itself. -/
  | literal (value : String)
  /-- An environment variable. -/
  | environment (side : Side) (name : String)
  /-- The trimmed output of a command. -/
  | command (side : Side) (argv : List String)
  deriving DecidableEq, Repr

/-- Whether the value can only be had over a connection. -/
def Source.isRemote : Source → Bool
  | literal _ => false
  | environment side _ | command side _ => side = .remote

/-- Whom to log in as, and where. Without a password the operator is asked. -/
structure Login where
  username : String
  host : String
  port : UInt16
  password : Option String
  deriving DecidableEq, Repr

/-- One validated action. -/
inductive Action where
  | connect (login : Login)
  | var (key : String) (source : Source)
  | env (key value : String)
  | cd (target : String)
  /-- A local command: a program and its arguments. -/
  | cmd (program : String) (arguments : List String)
  /-- A remote command line. -/
  | run (command : String)
  | move (source destination : String)
  | copy (source destination : String)
  | delete (targets : List String)
  | upload (sources : List String) (destination : String)
  | download (sources : List String) (destination : String)
  deriving DecidableEq, Repr

namespace Action

def keyword : Action → Keyword
  | connect .. => .connect
  | var .. => .var
  | env .. => .env
  | cd .. => .cd
  | cmd .. => .cmd
  | run .. => .run
  | move .. => .move
  | copy .. => .copy
  | delete .. => .delete
  | upload .. => .upload
  | download .. => .download

/-- Whether the action can only run after a `CONNECT` that succeeded. -/
def needsConnection : Action → Bool
  | connect .. | env .. | cmd .. => false
  | var _ source => source.isRemote
  | cd .. | run .. | move .. | copy .. | delete .. | upload .. | download .. => true

def spaced (words : List String) : String :=
  " ".intercalate words

def listed (paths : List String) : String :=
  ", ".intercalate paths

def description : Action → String
  | connect login => login.username ++ "@" ++ login.host ++ ":" ++ toString login.port.toNat
  | var key (.literal value) => key ++ " = " ++ value
  | var key (.environment side name) => key ++ " = " ++ side.word ++ " env " ++ name
  | var key (.command side argv) => key ++ " = " ++ side.word ++ " command `" ++ spaced argv ++ "`"
  | env key value => key ++ "=" ++ value
  | cd target => target
  | cmd program arguments => spaced (program :: arguments)
  | run command => command
  | move source destination | copy source destination => source ++ " to " ++ destination
  | delete targets => listed targets
  | upload sources destination | download sources destination =>
    listed sources ++ " to " ++ destination

/-- The action in one line, for progress and errors. A password is never part of it. -/
def display (action : Action) : String :=
  action.keyword.word ++ " " ++ action.description

/-- A source with its placeholders resolved; a literal value stays as it was written. -/
def substituteSource (table : Variables) : Source → Source
  | .literal value => .literal value
  | .environment side name => .environment side (table.substitute name)
  | .command side argv => .command side (argv.map table.substitute)

def substitute (table : Variables) : Action → Action
  | connect login =>
    connect {
      username := table.substitute login.username
      host := table.substitute login.host
      port := login.port
      password := login.password.map table.substitute }
  | var key source => var key (substituteSource table source)
  | env key value => env key (table.substitute value)
  | cd target => cd (table.substitute target)
  | cmd program arguments => cmd (table.substitute program) (arguments.map table.substitute)
  | run command => run (table.substitute command)
  | move source destination => move (table.substitute source) (table.substitute destination)
  | copy source destination => copy (table.substitute source) (table.substitute destination)
  | delete targets => delete (targets.map table.substitute)
  | upload sources destination =>
    upload (sources.map table.substitute) (table.substitute destination)
  | download sources destination =>
    download (sources.map table.substitute) (table.substitute destination)

theorem needsConnection_substitute (table : Variables) (action : Action) :
    (action.substitute table).needsConnection = action.needsConnection := by
  cases action with
  | var key source => cases source <;> rfl
  | _ => rfl

end Action

structure Step where
  action : Action
  line : Nat
  deriving DecidableEq, Repr

end Rollout.Script

namespace Rollout

/-- The steps of a script, in the order in which they run. -/
structure Script where
  steps : List Script.Step
  deriving DecidableEq, Repr

end Rollout

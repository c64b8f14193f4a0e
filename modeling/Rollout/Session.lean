import Rollout.Failure
import Rollout.Text.Hidden

/-!
# Remote sessions

What is told to a remote host: where to connect, as whom and with which password, and the lines that its
shell is given. The password takes no part in how a target is shown. A command runs in a working directory
and with variables exported to it. Both become part of its line: the exports first, in the order of their
names, then a change of directory that must succeed before the command is tried.

Section 4.4 of the specification gives the line, for `RUN`.
-/

namespace Rollout.Shell

/-- Characters that mean nothing to a shell wherever they stand in an argument. -/
def isPlain (c : Char) : Bool :=
  c.isAlphanum || "/._-+:@%,=".toList.contains c

/-- A character as it stands in a word between single quotes: a single quote steps out of the quotes,
escapes itself and steps in again. -/
def quoteChar (c : Char) : List Char :=
  if c = '\'' then ['\'', '\\', '\'', '\''] else [c]

def quoteChars (word : List Char) : List Char :=
  if !word.isEmpty && word.all isPlain then word
  else '\'' :: word.flatMap quoteChar ++ ['\'']

def quote (word : String) : String :=
  String.ofList (quoteChars word.toList)

end Rollout.Shell

namespace Rollout.Session

structure Target where
  host : String
  port : UInt16
  username : String
  password : String
  deriving DecidableEq

def Target.display (target : Target) : String :=
  target.username ++ "@" ++ target.host ++ ":" ++ toString target.port.toNat

/-- The target for diagnostics, with a mark in place of the password. -/
def Target.diagnostic (target : Target) : String :=
  "ConnectTarget \x7b host: " ++ Text.escaped target.host ++ ", port: " ++
    toString target.port.toNat ++ ", username: " ++ Text.escaped target.username ++
    ", password: \"<redacted>\" \x7d"

def passwordQuestion : String := "Please type remote server's password"

def nobodyToAsk : IoError :=
  .unsupported "no password given and no terminal to ask for one"

/-- Values to export, in ascending order of their names. -/
abbrev Environment := List (String × String)

def Environment.set (name value : String) : Environment → Environment
  | [] => [(name, value)]
  | binding :: rest =>
    if name = binding.1 then (name, value) :: rest
    else if name < binding.1 then (name, value) :: binding :: rest
    else binding :: Environment.set name value rest

/-- Where a command runs and what is exported to it. Without a directory, or with an empty one, it
runs where the session starts. -/
structure Setting where
  directory : Option String := none
  environment : Environment := []
  deriving DecidableEq, Repr

/-- The command, tried only in its directory. -/
def inDirectory (command : String) : Option String → String
  | none => command
  | some directory =>
    if directory.isEmpty then command else "cd " ++ Shell.quote directory ++ " && " ++ command

/-- One export. The value stands in it as it is, without quotes of its own. -/
def exportOf (binding : String × String) : String :=
  "export " ++ binding.1 ++ "=" ++ binding.2 ++ ";"

/-- The line that the remote shell runs. -/
def commandLine (command : String) (setting : Setting) : String :=
  let command := inDirectory command setting.directory
  if setting.environment.isEmpty then command
  else " ".intercalate (setting.environment.map exportOf) ++ " " ++ command

end Rollout.Session

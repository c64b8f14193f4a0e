import Rollout.Script.Fault

/-!
# Failures

Everything that can stop a deployment, told apart by its cause. Each failure has a text for the
operator, a list of the texts of the causes behind it, and an exit code that says how far the program
got. The text of a failed remote command leaves the command out: it may hold secrets.

The kinds are those of section 7 of the specification, and the exit codes those of section 10.2.
-/

namespace Rollout

/-- The operating system's errors that matter here. -/
inductive OsError where
  | noEntry
  | permissionDenied
  | «exists»
  | notDirectory
  | isDirectory
  | nameTooLong
  | tooManyLinks
  | notExecutable
  | unreachable
  | refused
  deriving DecidableEq, Repr

namespace OsError

def code : OsError → Nat
  | noEntry => 2
  | permissionDenied => 13
  | «exists» => 17
  | notDirectory => 20
  | isDirectory => 21
  | nameTooLong => 36
  | tooManyLinks => 40
  | notExecutable => 8
  | unreachable => 101
  | refused => 111

def description : OsError → String
  | noEntry => "No such file or directory"
  | permissionDenied => "Permission denied"
  | «exists» => "File exists"
  | notDirectory => "Not a directory"
  | isDirectory => "Is a directory"
  | nameTooLong => "File name too long"
  | tooManyLinks => "Too many levels of symbolic links"
  | notExecutable => "Exec format error"
  | unreachable => "Network is unreachable"
  | refused => "Connection refused"

def message (error : OsError) : String :=
  error.description ++ " (os error " ++ toString error.code ++ ")"

end OsError

inductive IoError where
  | os (error : OsError)
  /-- Bytes that should have been text are not UTF-8. -/
  | invalidText
  /-- A writer accepted nothing of what was left to write. -/
  | nothingWritten
  /-- The operator broke off what was asked. -/
  | cancelled (text : String)
  /-- Nobody is there to be asked. -/
  | unsupported (text : String)
  | other (text : String)
  deriving DecidableEq, Repr

namespace IoError

def message : IoError → String
  | os error => error.message
  | invalidText => "stream did not contain valid UTF-8"
  | nothingWritten => "failed to write whole buffer"
  | cancelled text | unsupported text | other text => text

def isMissing (error : IoError) : Bool :=
  error = .os .noEntry

end IoError

inductive Layer where
  | session
  | sftp
  deriving DecidableEq, Repr

/-- An error of a secure connection, with the layer's number for it. -/
structure SshError where
  layer : Layer
  code : Int
  text : String
  deriving DecidableEq, Repr

namespace SshError

def message (error : SshError) : String :=
  let layer := match error.layer with
    | .session => "Session"
    | .sftp => "SFTP"
  "[" ++ layer ++ "(" ++ toString error.code ++ ")] " ++ error.text

/-- The number with which a file server says that a path does not exist. -/
def noSuchFile : Int := 2

def isMissing (error : SshError) : Bool :=
  error.layer = .sftp && error.code = noSuchFile

end SshError

inductive SessionError where
  | ssh (error : SshError)
  /-- The login was refused. -/
  | auth (user host : String)
  /-- A command ended with a status other than zero. -/
  | commandFailed (command : String) (status : Int)
  /-- A remote path does not exist. -/
  | notFound (path : String)
  | io (error : IoError)
  /-- The session's own worker broke down. -/
  | task (text : String)
  deriving DecidableEq, Repr

namespace SessionError

def message : SessionError → String
  | ssh error => "SSH error: " ++ error.message
  | auth user host => "authentication failed for " ++ user ++ "@" ++ host
  | commandFailed _ status => "remote command failed with exit status " ++ toString status
  | notFound path => "remote path not found: " ++ path
  | io error => "IO error: " ++ error.message
  | task text => "session task failed: " ++ text

def causes : SessionError → List String
  | ssh error => [error.message]
  | io error => [error.message]
  | _ => []

end SessionError

inductive TransferError where
  | localNotFound (path : String)
  | localIo (path : String) (error : IoError)
  | remote (error : SessionError)
  /-- Directories are nested deeper than a transfer goes. -/
  | nestedTooDeep (path : String)
  deriving DecidableEq, Repr

namespace TransferError

/-- A failed operation on a local path; a missing path is a cause of its own. -/
def onLocal (path : String) (error : IoError) : TransferError :=
  if error.isMissing then localNotFound path else localIo path error

def message : TransferError → String
  | localNotFound path => "local path not found: " ++ path
  | localIo path error => "local IO error on " ++ path ++ ": " ++ error.message
  | remote error => error.message
  | nestedTooDeep path => "directories nested too deep: " ++ path

def causes : TransferError → List String
  | localNotFound _ | nestedTooDeep _ => []
  | localIo _ error => [error.message]
  | remote error => error.causes

end TransferError

/-- What can go wrong with a local command. Commands are shown with their words joined by spaces. -/
inductive LocalError where
  | emptyCommand
  /-- The program could not be started. -/
  | spawn (command : String) (error : IoError)
  /-- The program ended with a code other than zero, or by a signal. -/
  | failed (command : String) (code : Option Int)
  | io (error : IoError)
  /-- Forwarding the output broke down. -/
  | task (text : String)
  deriving DecidableEq, Repr

namespace LocalError

def message : LocalError → String
  | emptyCommand => "empty command"
  | spawn command error => "failed to start `" ++ command ++ "`: " ++ error.message
  | failed command (some code) =>
    "local command `" ++ command ++ "` failed (exit code " ++ toString code ++ ")"
  | failed command none => "local command `" ++ command ++ "` failed (terminated by signal)"
  | io error => "IO error: " ++ error.message
  | task text => "output task failed: " ++ text

def causes : LocalError → List String
  | spawn _ error | io error => [error.message]
  | _ => []

end LocalError

inductive ActionError where
  /-- A remote action came before any connection. -/
  | notConnected
  /-- Connecting or logging in failed. -/
  | connection (error : SessionError)
  | remote (error : SessionError)
  | transfer (error : TransferError)
  | onLocal (error : LocalError)
  /-- The password could not be asked for. -/
  | prompt (error : IoError)
  deriving DecidableEq, Repr

namespace ActionError

def message : ActionError → String
  | notConnected => "you need to connect to a server first"
  | connection error => "connection failed: " ++ error.message
  | remote error => error.message
  | transfer error => error.message
  | onLocal error => error.message
  | prompt error => "password prompt failed: " ++ error.message

/-- The texts of the causes behind it. Where the failure has no text of its own, neither is its inner
error a cause of it. -/
def causes : ActionError → List String
  | notConnected => []
  | connection error => error.message :: error.causes
  | remote error => error.causes
  | transfer error => error.causes
  | onLocal error => error.causes
  | prompt error => [error.message]

end ActionError

/-- Why a script was refused or a run stopped. -/
inductive RunError where
  | grammar (error : Script.GrammarError)
  /-- The step of that number failed; it is shown as it stands in the script. -/
  | step (number : Nat) (shown : String) (cause : ActionError)
  | io (error : IoError)
  deriving DecidableEq, Repr

namespace RunError

def message : RunError → String
  | grammar error => error.message
  | step number shown cause =>
    "Step " ++ toString number ++ " failed (" ++ shown ++ "): " ++ cause.message
  | io error => "IO error: " ++ error.message

def causes : RunError → List String
  | grammar _ => []
  | step _ _ cause => cause.message :: cause.causes
  | io error => [error.message]

/-- The program's exit code: 2 for a script that was refused, 3 for a remote step before any
connection, 1 for any other failed step, 4 for trouble outside the steps. -/
def exitCode : RunError → Nat
  | grammar _ => 2
  | step _ _ .notConnected => 3
  | step _ _ _ => 1
  | io _ => 4

end RunError

end Rollout

import Rollout.Failure

/-!
# Status codes of a file server

A file server answers a request it does not carry out with a number. Each number has a fixed text.
-/

namespace Rollout.Sftp

abbrev Status := Nat

namespace Status

def noSuchFile : Status := 2

def failure : Status := 4

def text (status : Status) : String :=
  match status with
  | 1 => "end of file"
  | 2 => "no such file"
  | 3 => "permission denied"
  | 4 => "failure"
  | 5 => "bad message"
  | 6 => "no connection"
  | 7 => "connection lost"
  | 8 => "operation unsupported"
  | 9 => "invalid handle"
  | 10 => "no such path"
  | 11 => "file already exists"
  | 12 => "write protected"
  | 13 => "no media"
  | _ => "unknown error"

def error (status : Status) : SshError :=
  { layer := .sftp, code := status, text := text status }

end Status

end Rollout.Sftp

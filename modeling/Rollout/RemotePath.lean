import Rollout.Text.Split

/-!
# Remote paths

Paths on the remote host are texts with slashes, whatever the operator's machine is. Cleaning works on
the text alone: repeated slashes and `.` segments go away, and `..` takes the segment before it with
it. Above the root there is nothing, so `..` is dropped there; a relative path keeps the `..` that it
begins with.

Some remote directories are never deleted: the system directories every host has, and the paths that
the operator adds. Entries and candidates are compared in their clean form, so no spelling of a
protected path gets through.

Section 4.4 of the specification has both, for `CD` and for `DELETE`.
-/

namespace Rollout.RemotePath

open Rollout.Text

def isAbsolute (path : List Char) : Bool :=
  path.head? = some '/'

/-- The cleaned segments so far, last one first, after one more segment of a path. -/
def push (absolute : Bool) (stack : List (List Char)) (segment : List Char) : List (List Char) :=
  if segment = [] ∨ segment = ['.'] then stack
  else if segment = ['.', '.'] then
    match stack with
    | top :: below => if top ≠ ['.', '.'] then below else if absolute then stack else segment :: stack
    | [] => if absolute then [] else [segment]
  else segment :: stack

def parts (path : List Char) : List (List Char) :=
  ((splitOn '/' path).foldl (push (isAbsolute path)) []).reverse

def render (absolute : Bool) (parts : List (List Char)) : List Char :=
  if absolute then '/' :: joinWith '/' parts
  else if (joinWith '/' parts).isEmpty then ['.']
  else joinWith '/' parts

/-- The shortest text that names the same place, judged by the text alone. -/
def cleanChars (path : List Char) : List Char :=
  render (isAbsolute path) (parts path)

/-- The shortest text that names the same place, judged by the text alone. -/
def clean (path : String) : String :=
  String.ofList (cleanChars path.toList)

def join (base path : String) : String :=
  if base.isEmpty then clean path else clean (base ++ "/" ++ path)

/-- What `path` means in the directory `cwd`: an absolute path means itself. -/
def resolve (cwd path : String) : String :=
  if isAbsolute path.toList then clean path else join cwd path

/-- The last segment of the cleaned path; `/` and `.` stand for themselves. -/
def baseName (path : String) : String :=
  match (parts path.toList).getLast? with
  | some name => String.ofList name
  | none => if isAbsolute path.toList then "/" else "."

end Rollout.RemotePath

namespace Rollout

structure ProtectedPaths where
  extra : List String := []
  deriving DecidableEq, Repr

namespace ProtectedPaths

def builtIn : List String :=
  ["/", "/bin", "/boot", "/dev", "/etc", "/home", "/lib", "/lib32", "/lib64", "/lost+found",
    "/media", "/mnt", "/opt", "/proc", "/root", "/run", "/sbin", "/snap", "/srv", "/sys", "/tmp",
    "/usr", "/usr/bin", "/usr/include", "/usr/lib", "/usr/local", "/usr/local/bin", "/usr/sbin",
    "/usr/share", "/var", "/var/lib", "/var/log"]

/-- Whether the path, once cleaned, is a built-in entry or the clean form of an added one. -/
def contains (paths : ProtectedPaths) (path : String) : Bool :=
  let cleaned := RemotePath.clean path
  builtIn.contains cleaned || paths.extra.any fun entry => RemotePath.clean entry = cleaned

end ProtectedPaths

end Rollout

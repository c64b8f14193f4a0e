import Rollout.Text.Split

/-!
# Local paths

Paths on the operator's machine, as texts. Joining does not clean: `..` and `.` are left to the file
system, which knows where links lead. Segments that are empty or `.` do not count when a path is taken
apart, except for a `.` that begins a relative path.
-/

namespace Rollout.LocalPath

open Rollout.Text

def isAbsolute (path : String) : Bool :=
  path.toList.head? = some '/'

/-- `path` seen from `base`: an absolute path replaces the base, and an empty base adds nothing. -/
def join (base path : String) : String :=
  if isAbsolute path || base.isEmpty then path
  else if base.toList.getLast? = some '/' then base ++ path
  else base ++ "/" ++ path

/-- Segments that count wherever they stand. -/
def counts (segment : List Char) : Bool :=
  !(segment.isEmpty || segment = ['.'])

def components (path : String) : List (List Char) :=
  match splitOn '/' path.toList with
  | [] => []
  | first :: rest =>
    if first = ['.'] then first :: rest.filter counts else (first :: rest).filter counts

def fileName (path : String) : Option String :=
  match (components path).getLast? with
  | none => none
  | some last => if last = ['.'] ∨ last = ['.', '.'] then none else some (String.ofList last)

/-- The name under which a path is copied: its last segment, or the whole text if that is no name. -/
def baseName (path : String) : String :=
  (fileName path).getD path

/-- The path without its last segment; nothing is above the root or above the empty path. -/
def parent (path : String) : Option String :=
  match components path with
  | [] => none
  | segments =>
    let above := joinWith '/' segments.dropLast
    some (String.ofList (if isAbsolute path then '/' :: above else above))

end Rollout.LocalPath

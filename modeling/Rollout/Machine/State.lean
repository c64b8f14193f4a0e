import Rollout.Files
import Rollout.LocalPath

/-!
# The operator's machine

Its files, as the program's own user sees them, and the environment the program was started with. A
path is followed segment by segment: links are replaced by what they lead to, and only directories can
be walked through. The user owns the files, so the owner's permission bits decide.
-/

namespace Rollout

/-- The machine's files, the directory and environment of the program, and what waits on its standard
input. -/
structure Machine where
  files : Files
  directory : String
  environment : List (String × String) := []
  input : Bytes := []
  deriving DecidableEq, Repr

namespace Machine

/-- How many links a path may lead through. -/
def linkLimit : Nat := 40

def nameLimit : Nat := 255

def pathLimit : Nat := 4095

/-- Where a path leads: the place, and whether the path asks for a directory there by a slash at its
end. -/
structure Place where
  path : String
  asDirectory : Bool := false
  deriving DecidableEq, Repr

def segments (path : String) : List String :=
  (Text.splitOn '/' path.toList).map String.ofList

/-- Follows segments from a directory. The place they lead to need not exist, but everything before
it must. A link at the end is followed only if `follow` says so or more of the path comes. -/
def walk (files : Files) (follow : Bool) (links : Nat) (directory : String) (path : List String) :
    Except OsError Place :=
  match path with
  | [] => .ok { path := directory }
  | "" :: rest => walk files follow links directory rest
  | "." :: rest => walk files follow links directory rest
  | ".." :: rest => walk files follow links (Files.parent directory) rest
  | name :: rest =>
    if name.utf8ByteSize > nameLimit then .error .nameTooLong
    else
      let path := Files.child directory name
      match files.get? path with
      | none =>
        if rest.isEmpty then .ok { path }
        else if rest.all String.isEmpty then .ok { path, asDirectory := true }
        else .error .noEntry
      | some (.directory _) => walk files follow links path rest
      | some (.file ..) => if rest.isEmpty then .ok { path } else .error .notDirectory
      | some (.link target) =>
        if rest.isEmpty && !follow then .ok { path }
        else match links with
          | 0 => .error .tooManyLinks
          | links + 1 =>
            if target.isEmpty then .error .noEntry
            else
              let start := if target.toList.head? = some '/' then "/" else directory
              walk files follow links start (segments target ++ rest)
termination_by (links, path.length)

def locate (machine : Machine) (path : String) (follow : Bool := true) : Except OsError Place :=
  if path.isEmpty then .error .noEntry
  else if path.utf8ByteSize > pathLimit then .error .nameTooLong
  else
    let start := if path.toList.head? = some '/' then "/" else machine.directory
    walk machine.files follow linkLimit start (segments path)

/-- What stands where a path leads. -/
def node (machine : Machine) (path : String) : Except OsError Node :=
  match machine.locate path with
  | .error error => .error error
  | .ok place =>
    match machine.files.get? place.path with
    | none => .error .noEntry
    | some node => .ok node

def isDirectory (machine : Machine) (path : String) : Bool :=
  match machine.node path with
  | .ok node => node.isDirectory
  | .error _ => false

def mayRead (mode : Nat) : Bool := mode &&& 0o400 ≠ 0

/-- The owner's permission to write, and in a directory to create. -/
def mayWrite (mode : Nat) : Bool := mode &&& 0o200 ≠ 0

def mayExecute (mode : Nat) : Bool := mode &&& 0o100 ≠ 0

/-- Whether an entry can be made at a place where nothing is. -/
def admits (files : Files) (path : String) : Except OsError Unit :=
  match files.get? (Files.parent path) with
  | some (.directory mode) => if mayWrite mode then .ok () else .error .permissionDenied
  | some _ => .error .notDirectory
  | none => .error .noEntry

def contentAt (machine : Machine) (path : String) : Except OsError Bytes :=
  match machine.node path with
  | .error error => .error error
  | .ok (.file content mode) => if mayRead mode then .ok content else .error .permissionDenied
  | .ok _ => .error .isDirectory

/-- The reads that what a path leads to yields, once it is open. A directory can be opened but not read. -/
def readsAt (machine : Machine) (path : String) : Except OsError (List Copy.Read) :=
  match machine.node path with
  | .error error => .error error
  | .ok (.file content mode) =>
    if mayRead mode then .ok (Copy.readsOf content) else .error .permissionDenied
  | .ok _ => .ok [.failed (.os .isDirectory)]

/-- The file at a path emptied, or made anew if there was none, and the place where it stands. -/
def createFile (machine : Machine) (path : String) : Except OsError (String × Machine) :=
  match machine.locate path with
  | .error error => .error error
  | .ok place =>
    match machine.files.get? place.path with
    | some (.file _ mode) =>
      if mayWrite mode then
        .ok (place.path, { machine with files := machine.files.set place.path (.file [] mode) })
      else .error .permissionDenied
    | some _ => .error .isDirectory
    | none =>
      if place.asDirectory then .error .isDirectory
      else match admits machine.files place.path with
        | .error error => .error error
        | .ok () =>
          .ok (place.path, { machine with
            files := machine.files.set place.path (.file [] 0o644) })

/-- The machine with a file at a path, as it is or made anew, to which bytes can be added. -/
def ensureFile (machine : Machine) (path : String) : Except OsError Machine :=
  match machine.node path with
  | .ok (.file _ mode) => if mayWrite mode then .ok machine else .error .permissionDenied
  | .ok _ => .error .isDirectory
  | .error _ => (machine.createFile path).map (·.2)

def append (machine : Machine) (place : String) (content : Bytes) : Machine :=
  match machine.files.get? place with
  | some (.file old mode) =>
    { machine with files := machine.files.set place (.file (old ++ content) mode) }
  | _ => machine

def writeFile (machine : Machine) (path : String) (content : Bytes) : Except OsError Machine :=
  match machine.createFile path with
  | .error error => .error error
  | .ok (place, machine) => .ok (machine.append place content)

def makeDirectory (machine : Machine) (path : String) : Except OsError Machine :=
  match machine.locate path false with
  | .error error => .error error
  | .ok place =>
    if (machine.files.get? place.path).isSome then .error .exists
    else match admits machine.files place.path with
      | .error error => .error error
      | .ok () =>
        .ok { machine with files := machine.files.set place.path (.directory 0o755) }

/-- A directory and every parent that is missing, `depth` of them at most. -/
def makeDirectoriesWithin (machine : Machine) : Nat → String → Except OsError Machine
  | depth, path =>
    if path.isEmpty then .ok machine
    else match machine.makeDirectory path with
      | .ok machine => .ok machine
      | .error .noEntry =>
        match depth, LocalPath.parent path with
        | depth + 1, some above =>
          match machine.makeDirectoriesWithin depth above with
          | .error error => .error error
          | .ok machine =>
            match machine.makeDirectory path with
            | .ok machine => .ok machine
            | .error error => if machine.isDirectory path then .ok machine else .error error
        | _, _ => .error .noEntry
      | .error error => if machine.isDirectory path then .ok machine else .error error

def makeDirectories (machine : Machine) (path : String) : Except OsError Machine :=
  machine.makeDirectoriesWithin path.length path

def setMode (machine : Machine) (path : String) (mode : Nat) : Except OsError Machine :=
  match machine.locate path with
  | .error error => .error error
  | .ok place =>
    let mode := mode &&& 0o7777
    match machine.files.get? place.path with
    | none => .error .noEntry
    | some (.directory _) =>
      .ok { machine with files := machine.files.set place.path (.directory mode) }
    | some (.file content _) =>
      .ok { machine with files := machine.files.set place.path (.file content mode) }
    | some (.link _) => .ok machine

/-- The names in the directory that a path leads to, in ascending order. -/
def entries (machine : Machine) (path : String) : Except OsError (List String) :=
  match machine.locate path with
  | .error error => .error error
  | .ok place =>
    match machine.files.get? place.path with
    | none => .error .noEntry
    | some (.directory mode) =>
      if mayRead mode then
        .ok ((machine.files.children place.path).map fun entry => Files.name entry.1)
      else .error .permissionDenied
    | some _ => .error .notDirectory

def currentDirectory (machine : Machine) : Except OsError String :=
  if machine.files.isDirectory machine.directory then .ok machine.directory else .error .noEntry

def lookup (machine : Machine) (name : String) : Option String :=
  machine.environment.lookup name

/-- The nodes below a directory, in ascending order, with their paths seen from it. Every file among
them must be readable. -/
def listing (machine : Machine) (top : String) : Except OsError (List (String × Node)) :=
  let below := machine.files.nodes.filter fun entry => Files.isWithin top entry.1 && entry.1 ≠ top
  if below.all fun entry => match entry.2 with
      | .file _ mode => mayRead mode
      | _ => true
  then .ok (below.map fun entry =>
    (String.ofList (entry.1.toList.drop (Files.child top "").length), entry.2))
  else .error .permissionDenied

end Machine

end Rollout

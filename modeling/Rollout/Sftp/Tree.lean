import Rollout.Files
import Rollout.Sftp.Status

/-!
# The tree of a file server

How a file server carries requests out on its tree. Requests that follow links see what a link leads
to; the others see the link itself. Opening a file for writing empties it at once, and what is read
through an open handle is what the file holds by then.
-/

namespace Rollout.Sftp

/-- How deep links may be nested in links. -/
def nestingLimit : Nat := 8

def segments (path : String) : List String :=
  ((Text.splitOn '/' path.toList).map String.ofList).filter fun segment =>
    !(segment.isEmpty || segment = ".")

/-- Where a path leads, from a directory on. The place need not exist. A link at the end is followed
only if `follow` says so. -/
def walk (files : Files) (follow : Bool) : Nat → String → List String → Except Status String
  | _, directory, [] => .ok directory
  | nesting, directory, ".." :: rest => walk files follow nesting (Files.parent directory) rest
  | nesting, directory, name :: rest =>
    let path := Files.child directory name
    match files.get? path with
    | some (.link target) =>
      if rest.isEmpty && !follow then .ok path
      else match nesting with
        | 0 => .error Status.failure
        | nesting + 1 =>
          let start := if target.toList.head? = some '/' then "/" else directory
          match walk files true nesting start (segments target) with
          | .error status => .error status
          | .ok place => walk files follow (nesting + 1) place rest
    | _ => walk files follow nesting path rest
termination_by nesting _ rest => (nesting, rest.length)

def locate (files : Files) (follow : Bool) (path : String) : Except Status String :=
  walk files follow nestingLimit "/" (segments path)

/-- What a server tells of a node. A server that tells nothing gives neither. -/
structure Attributes where
  size : Option Nat := none
  /-- Permission bits with the bits for the kind of node. -/
  permissions : Option Nat := none
  deriving DecidableEq, Repr

/-- The bits that mark a kind of node. -/
def directoryBits : Nat := 0o040000

def fileBits : Nat := 0o100000

def linkBits : Nat := 0o120000

/-- The bits in which the kind of node is. -/
def kindMask : Nat := 0o170000

def modeMask : Nat := 0o7777

def attributesOf : Node → Attributes
  | .directory mode => { size := some 4096, permissions := some (mode ||| directoryBits) }
  | .file content mode => { size := some content.length, permissions := some (mode ||| fileBits) }
  | .link target =>
    { size := some target.utf8ByteSize, permissions := some (0o777 ||| linkBits) }

def Attributes.isDirectory (attributes : Attributes) : Bool :=
  (attributes.permissions.getD 0) &&& kindMask = directoryBits

def find (files : Files) (follow : Bool) (path : String) : Except Status (String × Node) := do
  let place ← locate files follow path
  match files.get? place with
  | some node => .ok (place, node)
  | none => .error Status.noSuchFile

/-- Whether a new entry can stand at a place. -/
def hasParent (files : Files) (place : String) : Bool :=
  files.isDirectory (Files.parent place)

def setMode (files : Files) (path : String) (mode : Nat) : Except Status Files := do
  let (place, node) ← find files true path
  let mode := mode &&& modeMask
  match node with
  | .directory _ => .ok (files.set place (.directory mode))
  | .file content _ => .ok (files.set place (.file content mode))
  | .link _ => .ok files

def openRead (files : Files) (path : String) : Except Status String := do
  match ← find files true path with
  | (place, .file ..) => .ok place
  | _ => .error Status.failure

/-- Opens a file for writing, emptied or made anew with the given mode, and gives its place. -/
def openWrite (files : Files) (path : String) (mode : Nat) : Except Status (String × Files) := do
  let place ← locate files true path
  match files.get? place with
  | some (.file _ old) => .ok (place, files.set place (.file [] old))
  | some _ => .error Status.failure
  | none =>
    if hasParent files place then .ok (place, files.set place (.file [] (mode &&& modeMask)))
    else .error Status.noSuchFile

def contentAt (files : Files) (place : String) : Bytes :=
  match files.get? place with
  | some (.file content _) => content
  | _ => []

/-- The file at a place with new content. -/
def fill (files : Files) (place : String) (content : Bytes) : Files :=
  match files.get? place with
  | some (.file _ mode) => files.set place (.file content mode)
  | _ => files

/-- The entries of a directory with their places, last first, after those for the directory itself and
the one above it. -/
def list (files : Files) (path : String) : Except Status (List (String × String × Node)) := do
  match ← find files true path with
  | (place, .directory mode) =>
    .ok ((".", place, .directory mode) :: ("..", Files.parent place, .directory mode) ::
      (files.children place).reverse.map fun entry => (Files.name entry.1, entry.1, entry.2))
  | _ => .error Status.failure

def makeDirectory (files : Files) (path : String) (mode : Nat) : Except Status Files := do
  let place ← locate files false path
  if (files.get? place).isSome then .error Status.failure
  else if hasParent files place then .ok (files.set place (.directory (mode &&& modeMask)))
  else .error Status.noSuchFile

def removeDirectory (files : Files) (path : String) : Except Status Files := do
  match ← find files false path with
  | (place, .directory _) =>
    if (files.children place).isEmpty then .ok (files.erase place) else .error Status.failure
  | _ => .error Status.failure

def removeFile (files : Files) (path : String) : Except Status Files := do
  match ← find files false path with
  | (_, .directory _) => .error Status.failure
  | (place, _) => .ok (files.erase place)

/-- The tree with everything at and below one path moved to another, where nothing may be. -/
def rename (files : Files) (source target : String) : Except Status Files := do
  let (source, _) ← find files false source
  let target ← locate files false target
  if !hasParent files target then .error Status.noSuchFile
  else if (files.get? target).isSome || Files.isWithin source target then .error Status.failure
  else .ok (files.rename source target)

end Rollout.Sftp

import Rollout.Json.Reader
import Rollout.Json.Text
import Rollout.Machine.State
import Rollout.RemotePath
import Rollout.Text.Decode

/-!
# Settings

What the operator can set for all runs, kept as JSON in a file below the home directory. Every field
may be missing. A file that cannot be read, or is not what it should be in any respect, counts as no
file: a run never fails for its settings.

This is section 10.4 of the specification.
-/

namespace Rollout

structure Settings where
  /-- How long to wait for a connection, in milliseconds. -/
  connectTimeout : UInt64 := 10000
  /-- Remote paths that are never deleted, beside those that never are. -/
  protectedPaths : List String := []
  deriving DecidableEq, Repr

namespace Settings

def location : String := ".skiff/config.json"

def timeoutKey : String := "connect_timeout_ms"

def pathsKey : String := "protected_paths"

def timeout? (value : Json.Syntactic) : Option UInt64 :=
  match value.natural? with
  | some value => if value < UInt64.size then some (UInt64.ofNat value) else none
  | none => none

def paths? : Json.Syntactic → Option (List String)
  | .array items => items.mapM Json.Syntactic.text?
  | _ => none

def decodeKeys (fields : List (List Char × Json.Syntactic)) :
    Option (List (String × Json.Syntactic)) :=
  fields.mapM fun (key, value) => (Json.decode? key).map (String.ofList ·, value)

/-- The value of a field that may be missing but must not come twice. -/
def field? {α : Type} (key : String) (read : Json.Syntactic → Option α) (default : α)
    (fields : List (String × Json.Syntactic)) : Option α :=
  match fields.filter (·.1 = key) with
  | [] => some default
  | [(_, value)] => read value
  | _ => none

/-- The settings that a value holds: an object with known fields and any others, or an array with the
timeout and the paths in this order, of which the last ones may be missing. -/
def ofJson? : Json.Syntactic → Option Settings
  | .object fields => do
    let fields ← decodeKeys fields
    let connectTimeout ← field? timeoutKey timeout? 10000 fields
    let protectedPaths ← field? pathsKey paths? [] fields
    return { connectTimeout, protectedPaths }
  | .array [] => some {}
  | .array [timeout] => do return { connectTimeout := ← timeout? timeout }
  | .array [timeout, paths] => do
    return { connectTimeout := ← timeout? timeout, protectedPaths := ← paths? paths }
  | _ => none

def ofBytes? (content : Bytes) : Option Settings := do
  ofJson? (← Json.read? (← Text.decode? content))

/-- The settings as they are saved. A list without paths is left out. -/
def json (settings : Settings) : Json :=
  .object ((timeoutKey, .number settings.connectTimeout.toNat) ::
    if settings.protectedPaths.isEmpty then []
    else [(pathsKey, .array (settings.protectedPaths.map .string))])

def loadFrom (machine : Machine) (path : String) : Settings :=
  match machine.contentAt path with
  | .error _ => {}
  | .ok content => (ofBytes? content).getD {}

/-- The settings in force. Without a home directory there is no file. -/
def load (machine : Machine) : Settings :=
  match machine.lookup "HOME" with
  | none => {}
  | some home => if home.isEmpty then {} else loadFrom machine (LocalPath.join home location)

def saveTo (settings : Settings) (machine : Machine) (path : String) : Except OsError Machine := do
  let machine ← match LocalPath.parent path with
    | none => pure machine
    | some above => machine.makeDirectories above
  machine.writeFile path settings.json.pretty.toUTF8.toList

def guarded (settings : Settings) : ProtectedPaths :=
  { extra := settings.protectedPaths }

def timeoutParts (settings : Settings) : UInt64 × UInt64 :=
  (settings.connectTimeout / 1000, settings.connectTimeout % 1000)

end Settings

end Rollout

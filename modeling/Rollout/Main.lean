import Rollout.CommandLine.Program

/-!
# The command line

Gathers what the program can see, carries it out in memory and shows what comes of it. No host can be
dialled from here, and what local commands change stays in memory, so a run is a rehearsal up to the
first connection.
-/

namespace Rollout.CommandLine

def environmentFile : String := "/proc/self/environ"

def environmentOf (text : String) : List (String × String) :=
  (Text.splitOn (Char.ofNat 0) text.toList).filterMap fun binding =>
    match cut binding with
    | (name, some value) => some (String.ofList name, String.ofList value)
    | (_, none) => none

def contentOf? (path : String) : IO (Option Bytes) := do
  try return some (← IO.FS.readBinFile path).toList
  catch _ => return none

/-- The machine with a file as it really is, if there is one. -/
def withFile (machine : Machine) (path : String) : IO Machine := do
  match ← contentOf? path with
  | none => return machine
  | some content =>
    let place := RemotePath.resolve machine.directory path
    return { machine with files := machine.files.put place (.file content 0o644) }

/-- Everything that waits on the standard input. -/
partial def readAll (stream : IO.FS.Stream) (taken : ByteArray) : IO ByteArray := do
  let more ← stream.read 65536
  if more.isEmpty then return taken else readAll stream (taken ++ more)

def gather (arguments : List String) : IO Machine := do
  let directory := (← IO.currentDir).toString
  let environment := environmentOf (Text.decodeLossy ((← contentOf? environmentFile).getD []))
  let files := Files.addDirectories {} directory
  let machine : Machine := { files, directory, environment }
  let settings := LocalPath.join ((machine.lookup "HOME").getD "") Settings.location
  let mut machine := machine
  for path in settings :: arguments do
    machine ← withFile machine path
  let stdin ← IO.getStdin
  let reads := match Request.ofArguments machine.lookup arguments with
    | .run arguments => arguments.script.isNone
    | _ => false
  if reads || !(← stdin.isTty) then
    return { machine with input := (← readAll stdin .empty).toList }
  return machine

end Rollout.CommandLine

open Rollout Rollout.CommandLine in
def main (arguments : List String) : IO UInt32 := do
  let machine ← gather arguments
  let stdout ← IO.getStdout
  let stderr ← IO.getStderr
  let console : Ssh.Console := { coloured := ← stdout.isTty, bars := ← stderr.isTty }
  let world : Ssh.World := { machine, reachable := false, console := some console }
  let (code, world) := execute world arguments
  stdout.write ⟨world.shown.out.toArray⟩
  stderr.write ⟨world.shown.err.toArray⟩
  return UInt32.ofNat code

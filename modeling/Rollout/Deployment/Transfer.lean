import Rollout.Deployment.Dialogue
import Rollout.LocalPath
import Rollout.RemotePath

/-!
# Transfers of files and directories

Uploads and downloads follow one rule of layout: a file lands in the destination directory under its
own name, and a directory is made anew there, under its own name, with everything in it. Permission
bits go along. Entries are taken in the order of their names, so a transfer does the same whatever
order a directory is listed in.

A host can list directories without an end, so a transfer is given a bound on how deep they are nested and
refuses to go below it. No answer is reported as that refusal.

Sections 4.4 and 11 of the specification give the rule, for `UPLOAD` and `DOWNLOAD`.
-/

namespace Rollout.Deployment

/-- The mode of a file whose mode is not known. -/
def fallbackMode : Nat := 0o644

def remotely (session : SessionId) (call : SessionCall) : Attempt TransferError call.Result :=
  (Attempt.session session call).failingAs .remote

def localMetadata (path : String) : Attempt TransferError Metadata :=
  Attempt.asking (.onLocal path) (Dialogue.request (.machine (.metadata path)))

def localEntries (path : String) : Attempt TransferError (List String) := do
  let names : List String ←
    Attempt.asking (.onLocal path) (Dialogue.request (.machine (.entries path)))
  return names.mergeSort fun a b => decide (a ≤ b)

def makeLocalDirectories (path : String) : Attempt TransferError Unit :=
  Attempt.asking (.onLocal path) (Dialogue.request (.machine (.makeDirectories path)))

def setLocalMode (path : String) (mode : Nat) : Attempt TransferError Unit :=
  Attempt.asking (.onLocal path) (Dialogue.request (.machine (.setMode path mode)))

def uploadFile (session : SessionId) (source : String) (metadata : Metadata) (directory : String) :
    Attempt TransferError Nat := do
  remotely session (.makeDirectories directory)
  let name := LocalPath.baseName source
  let target := RemotePath.join directory name
  let transfer : Transfer := { label := name, total := metadata.size }
  Attempt.report (.transfer transfer)
  let sent ← remotely session (.upload source target transfer)
  remotely session (.chmod target metadata.mode)
  return sent

/-- Sends a directory, nested at most `depth` deep, into a remote directory. -/
def uploadDirectory (session : SessionId) : Nat → String → String → Attempt TransferError Nat
  | 0, source, _ => throw (.nestedTooDeep source)
  | depth + 1, source, directory => do
    let target := RemotePath.join directory (LocalPath.baseName source)
    remotely session (.makeDirectories target)
    let names ← localEntries source
    Attempt.total (fun name => do
      let path := LocalPath.join source name
      let metadata ← localMetadata path
      if metadata.isDirectory then uploadDirectory session depth path target
      else uploadFile session path metadata target) names

/-- Sends a file or a directory into a remote directory and returns the number of bytes sent. -/
def upload (depth : Nat) (session : SessionId) (source directory : String) :
    Attempt TransferError Nat := do
  let metadata ← localMetadata source
  if metadata.isDirectory then uploadDirectory session depth source directory
  else uploadFile session source metadata directory

/-- Fetches one file into a local directory. A file that tells no mode gets the usual one. -/
def downloadFile (session : SessionId) (source : String) (metadata : Metadata) (directory : String) :
    Attempt TransferError Nat := do
  makeLocalDirectories directory
  let name := RemotePath.baseName source
  let target := LocalPath.join directory name
  let transfer : Transfer := { label := name, total := metadata.size }
  Attempt.report (.transfer transfer)
  let received ← remotely session (.download source target transfer)
  setLocalMode target (if metadata.mode = 0 then fallbackMode else metadata.mode)
  return received

/-- Fetches a directory, nested at most `depth` deep, into a local directory. -/
def downloadDirectory (session : SessionId) : Nat → String → String → Attempt TransferError Nat
  | 0, source, _ => throw (.nestedTooDeep source)
  | depth + 1, source, directory => do
    let target := LocalPath.join directory (RemotePath.baseName source)
    makeLocalDirectories target
    let entries ← remotely session (.list source)
    Attempt.total (fun (entry : Entry) => do
      let path := RemotePath.join source entry.name
      if entry.isDirectory then downloadDirectory session depth path target
      else
        let metadata ← remotely session (.stat path)
        downloadFile session path metadata target)
      (List.mergeSort entries fun (a b : Entry) => decide (a.name ≤ b.name))

/-- Fetches a file or a directory into a local directory and returns the number of bytes received. -/
def download (depth : Nat) (session : SessionId) (source directory : String) :
    Attempt TransferError Nat := do
  let metadata ← remotely session (.stat source)
  if metadata.isDirectory then downloadDirectory session depth source directory
  else downloadFile session source metadata directory

end Rollout.Deployment

import Rollout.Failure

/-!
# Copying with progress

Bytes are copied from a reader to a writer in chunks. Every read that succeeds is reported, the read
of nothing that ends the copy included; an interrupted read is tried again without a report. A chunk
is written whole or the copy fails, however little the writer accepts at a time. The transfer counts
as finished only after the writer was flushed.

Section 11 of the specification asks for the reports.
-/

namespace Rollout

abbrev Bytes := List UInt8

namespace Copy

/-- What one read yields. A chunk without bytes is the end. -/
inductive Read where
  | chunk (bytes : Bytes)
  | interrupted
  | failed (error : IoError)
  deriving DecidableEq, Repr

/-- How a writer behaves: how many bytes its nth call accepts at most or why it fails, how many bytes it
accepts in all, and whether flushing it fails. -/
structure Writer where
  accepts : Nat → Option Nat := fun _ => none
  error : Nat → Option IoError := fun _ => none
  limit : Option Nat := none
  flushError : Option IoError := none

def bounded (count : Nat) : Option Nat → Nat
  | none => count
  | some bound => min count bound

/-- What is told of a transfer: that so many more bytes were read, or that it is finished. -/
inductive Notice where
  | advance (bytes : Nat)
  | finish
  deriving DecidableEq, Repr

def Notice.bytes? : Notice → Option Nat
  | advance bytes => some bytes
  | finish => none

/-- What has happened so far: calls of the writer, bytes it has, and all that was told, in its order. -/
structure Progress where
  writes : Nat := 0
  written : Bytes := []
  notices : List Notice := []
  deriving DecidableEq, Repr

namespace Progress

def tell (progress : Progress) (notice : Notice) : Progress :=
  { progress with notices := progress.notices ++ [notice] }

@[simp] theorem tell_written (progress : Progress) (notice : Notice) :
    (progress.tell notice).written = progress.written := rfl

@[simp] theorem tell_notices (progress : Progress) (notice : Notice) :
    (progress.tell notice).notices = progress.notices ++ [notice] := rfl

def advances (progress : Progress) : List Nat :=
  progress.notices.filterMap Notice.bytes?

def finished (progress : Progress) : Nat :=
  progress.notices.count .finish

end Progress

def reported (advances : List Nat) : Nat :=
  advances.foldl (· + ·) 0

/-- How many of `count` bytes the writer's next call accepts. -/
def Writer.next (writer : Writer) (progress : Progress) (count : Nat) : Nat :=
  bounded (bounded count (writer.accepts progress.writes))
    (writer.limit.map (· - progress.written.length))

/-- Writes all of `bytes`, or fails when the writer fails or accepts nothing. -/
def Writer.writeAll (writer : Writer) (progress : Progress) (bytes : Bytes) :
    Except IoError Unit × Progress :=
  if bytes.isEmpty then (.ok (), progress)
  else match writer.error progress.writes with
    | some error => (.error error, { progress with writes := progress.writes + 1 })
    | none =>
      let taken := writer.next progress bytes.length
      let after := { progress with
        writes := progress.writes + 1
        written := progress.written ++ bytes.take taken }
      if taken = 0 then (.error .nothingWritten, after)
      else writer.writeAll after (bytes.drop taken)
termination_by bytes.length
decreasing_by
  have : bytes ≠ [] := by simpa using ‹¬bytes.isEmpty = true›
  have := List.length_pos_iff.2 this
  simp only [List.length_drop]
  omega

/-- The end of a copy of `copied` bytes: the read of nothing is reported, then the writer is
flushed, then the transfer is finished. -/
def Writer.close (writer : Writer) (progress : Progress) (copied : Nat) :
    Except IoError Nat × Progress :=
  let progress := progress.tell (.advance 0)
  match writer.flushError with
  | some error => (.error error, progress)
  | none => (.ok copied, progress.tell .finish)

/-- Goes on copying after `copied` bytes. No more reads is the end too. -/
def resume (writer : Writer) (progress : Progress) (copied : Nat) :
    List Read → Except IoError Nat × Progress
  | [] => writer.close progress copied
  | .interrupted :: rest => resume writer progress copied rest
  | .failed error :: _ => (.error error, progress)
  | .chunk [] :: _ => writer.close progress copied
  | .chunk bytes :: rest =>
    let progress := progress.tell (.advance bytes.length)
    match writer.writeAll progress bytes with
    | (.error error, progress) => (.error error, progress)
    | (.ok (), progress) => resume writer progress (copied + bytes.length) rest

/-- Copies everything the reads yield. -/
def run (writer : Writer) (reads : List Read) : Except IoError Nat × Progress :=
  resume writer {} 0 reads

def bufferSize : Nat := 8192

def readsOf (content : Bytes) : List Read :=
  if content.isEmpty then []
  else .chunk (content.take bufferSize) :: readsOf (content.drop bufferSize)
termination_by content.length
decreasing_by
  have : content ≠ [] := by simpa using ‹¬content.isEmpty = true›
  have := List.length_pos_iff.2 this
  simp only [List.length_drop, bufferSize]
  omega

end Copy

end Rollout

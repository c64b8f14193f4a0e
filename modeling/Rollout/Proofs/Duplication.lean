import Mathlib
import Rollout.Proofs.Exchanges
import Rollout.Proofs.Recall

/-!
# Remote copies

A `COPY` that succeeds is three calls: the source is looked at, its bytes are copied, and the target gets
its mode. On a file server this changes one place, the one the target leads to, and what stands there
then is known exactly. The file is under both paths, whole and with its permission bits, unless the
target leads to the very place of the source, which is emptied before it is read, or the server tells no
permissions of the source, which then count as none.
-/

namespace Rollout

namespace Sftp

variable {before after : Files}

/-- Under the path stands a file with the content and the permission bits. -/
def Shows (files : Files) (path : String) (content : Bytes) (bits : Nat) : Prop :=
  ∃ place mode, find files true path = .ok (place, .file content mode) ∧ mode &&& modeMask = bits

/-- The file is under both paths, with its content and its permission bits, and every other entry of the
tree is as it was. -/
structure Duplicated (before after : Files) (source target : String) (content : Bytes) (bits : Nat) :
    Prop where
  original : Shows after source content bits
  duplicate : Shows after target content bits
  others : ∀ place, locate before true target ≠ .ok place → after.get? place = before.get? place

/-- The tree differs from another by a file at a place, where no link is in either. -/
structure Rewritten (before after : Files) (place : String) (content : Bytes) (mode : Nat) : Prop where
  free : ∀ target, before.get? place ≠ some (.link target)
  get?_eq : ∀ other, after.get? other =
    if other = place then some (.file content mode) else before.get? other

namespace Rewritten

variable {place path : String} {content : Bytes} {mode : Nat}

theorem sameLinks (rewritten : Rewritten before after place content mode) : SameLinks before after := by
  intro other target
  rw [rewritten.get?_eq]
  by_cases here : other = place
  · simpa [here] using rewritten.free target
  · rw [if_neg here]

/-- All paths lead where they led. -/
theorem locate_eq (rewritten : Rewritten before after place content mode) (follow : Bool)
    (path : String) : locate after follow path = locate before follow path :=
  (locate_congr rewritten.sameLinks follow path).symm

/-- The file is what is found at its place. -/
theorem find_eq (rewritten : Rewritten before after place content mode)
    (leads : locate before true path = .ok place) :
    find after true path = .ok (place, .file content mode) := by
  refine find_eq_ok_iff.2 ⟨?_, ?_⟩
  · rw [rewritten.locate_eq, leads]
  · rw [rewritten.get?_eq, if_pos rfl]

/-- The file can be written once more. -/
theorem set (rewritten : Rewritten before after place content mode) (content' : Bytes) (mode' : Nat) :
    Rewritten before (after.set place (.file content' mode')) place content' mode' := by
  refine ⟨rewritten.free, fun other => ?_⟩
  rw [Files.get?_set, rewritten.get?_eq]
  by_cases here : other = place
  · rw [if_pos here, if_pos here]
  · rw [if_neg here, if_neg here, if_neg here]

/-- What is read of one file and written over another is a duplicate, unless both are one file that is
not empty, or the permission bits are not those of the source. -/
theorem duplicated_iff {source target reader : String} {told : Nat}
    (rewritten : Rewritten before after place (if reader = place then [] else content) told)
    (found : find before true source = .ok (reader, .file content mode))
    (leads : locate before true target = .ok place) (masked : told &&& modeMask = told) :
    Duplicated before after source target content (mode &&& modeMask) ↔
      (reader = place → content = []) ∧ told = mode &&& modeMask := by
  obtain ⟨leads', present⟩ := find_eq_ok_iff.1 found
  have duplicate := rewritten.find_eq leads
  constructor
  · intro duplicated
    obtain ⟨_, _, there, bits⟩ := duplicated.duplicate
    rw [duplicate] at there
    simp only [Except.ok.injEq, Prod.mk.injEq, Node.file.injEq] at there
    obtain ⟨rfl, whole, rfl⟩ := there
    refine ⟨fun same => ?_, masked.symm.trans bits⟩
    rw [← whole, if_pos same]
  · rintro ⟨empty, rfl⟩
    have whole : (if reader = place then [] else content) = content := by
      by_cases same : reader = place
      · rw [if_pos same, empty same]
      · rw [if_neg same]
    rw [whole] at duplicate
    refine ⟨?_, ⟨_, _, duplicate, masked⟩, fun other elsewhere => ?_⟩
    · by_cases same : reader = place
      · have here := rewritten.find_eq (same ▸ leads')
        rw [whole] at here
        exact ⟨_, _, here, masked⟩
      · refine ⟨reader, mode, find_eq_ok_iff.2 ⟨?_, ?_⟩, rfl⟩
        · rw [rewritten.locate_eq, leads']
        · rw [rewritten.get?_eq, if_neg same, present]
    · have apart : other ≠ place := by
        rintro rfl
        exact elsewhere leads
      rw [rewritten.get?_eq, if_neg apart]

end Rewritten

theorem rewritten_of_openWrite {path place : String} {mode : Nat}
    (opened : openWrite before path mode = .ok (place, after)) :
    locate before true path = .ok place ∧ ∃ bits, Rewritten before after place [] bits := by
  obtain ⟨leads, free, bits, rfl⟩ := emptied_of_openWrite opened
  exact ⟨leads, bits, free, fun other => Files.get?_set before place other _⟩

end Sftp

namespace Deployment

variable {setup : Setup} {context : Context} {transcript : Transcript} {outcome : Outcome}
  {source target : String}

/-- A copy that succeeds is three calls that succeed. -/
theorem executes_copy (executes : Executes setup context (.copy source target) transcript outcome)
    (succeeds : outcome.failure = none) : ∃ session metadata,
      transcript = [⟨.session session (.stat (context.remotePath source)), .ok metadata⟩,
        ⟨.session session (.copy (context.remotePath source) (context.remotePath target)), .ok ()⟩,
        ⟨.session session (.chmod (context.remotePath target) metadata.mode), .ok ()⟩] := by
  cases executes with
  | unconnected => cases succeeds
  | failed => cases succeeds
  | changed _ connected run =>
    obtain ⟨session, isOpen⟩ := Option.isSome_iff_exists.1 (connected rfl)
    have succeeded {call : SessionCall} {transcript : Transcript} {value : call.Result}
        (run : (onSession context call).run.Yields transcript (.ok value)) :
        transcript = [⟨.session session call, .ok value⟩] := by
      obtain ⟨answer, rfl, returned⟩ := onSession_of_yields isOpen run
      cases answer with
      | error error => cases returned
      | ok told =>
        cases returned
        rfl
    obtain ⟨whole, _, _, copied, returned, rfl⟩ := Attempt.yields_bind_ok run
    obtain ⟨rfl, _⟩ := Attempt.yields_pure_iff.1 returned
    obtain ⟨first, metadata, later, looked, rest, rfl⟩ := Attempt.yields_bind_ok copied
    obtain ⟨second, _, third, duplicated, changed, rfl⟩ := Attempt.yields_bind_ok rest
    rw [succeeded looked, succeeded duplicated, succeeded changed]
    exact ⟨session, metadata, rfl⟩

end Deployment

namespace Ssh

open Rollout.Deployment (Context Metadata Setup)

variable {world after : World} {source target reader : String} {content : Bytes} {mode : Nat}

/-- The permission bits that are learned of a file at a place: none if the host does not tell them. -/
def Host.toldBits (host : Host) (place : String) (mode : Nat) : Nat :=
  if host.bare.contains place then 0 else mode &&& Sftp.modeMask

theorem permissions_eq_toldBits (host : Host) (place : String) (content : Bytes) (mode : Nat) :
    ((host.attributes place (.file content mode)).permissions.getD 0) &&& Sftp.modeMask =
      host.toldBits place mode := by
  unfold Host.attributes Host.toldBits
  split
  · rfl
  · exact Sftp.permissions_masked mode

theorem toldBits_masked (host : Host) (place : String) (mode : Nat) :
    host.toldBits place mode &&& Sftp.modeMask = host.toldBits place mode := by
  unfold Host.toldBits
  split
  · rfl
  · exact Sftp.masked_masked mode

/-- The three calls of a copy rewrite the place of the target: with what the source held, or with nothing
if the source is there too. -/
theorem rewritten_of_calls {first second : World} {metadata : Metadata} {value value' : Unit}
    (found : Sftp.find world.host.files true source = .ok (reader, .file content mode))
    (looked : (stat source).Succeeds world metadata first)
    (copied : (copy source target).Succeeds first value second)
    (changed : (setMode target metadata.mode).Succeeds second value' after) :
    ∃ writer, Sftp.locate world.host.files true target = .ok writer ∧
      Sftp.Rewritten world.host.files after.host.files writer
        (if reader = writer then [] else content) (world.host.toldBits reader mode) := by
  obtain ⟨unchanged, place, node, there, told⟩ := succeeds_stat looked
  rw [found] at there
  cases there
  rw [permissions_eq_toldBits] at told
  obtain ⟨reader', writer, opened, opens, empties, host⟩ := succeeds_copy copied
  rw [unchanged] at opens empties
  obtain ⟨_, _, there⟩ := Sftp.file_of_openRead opens
  rw [found] at there
  cases there
  obtain ⟨leads, bits, emptied⟩ := Sftp.rewritten_of_openWrite empties
  obtain ⟨files, set, host'⟩ := succeeds_setMode changed
  -- What is read is what the source holds after the target was emptied.
  have held : Sftp.contentAt opened reader = if reader = writer then [] else content := by
    have before : world.host.files.get? reader = some (.file content mode) :=
      (Sftp.find_eq_ok_iff.1 found).2
    unfold Sftp.contentAt
    rw [emptied.get?_eq, before]
    by_cases here : reader = writer
    · rw [if_pos here, if_pos here]
    · rw [if_neg here, if_neg here]
  have present : opened.get? writer = some (.file [] bits) := by
    rw [emptied.get?_eq, if_pos rfl]
  rw [host, Sftp.fill_eq present, held] at set
  have filled := emptied.set (if reader = writer then [] else content) bits
  rw [Sftp.setMode_file (filled.find_eq leads), told, toldBits_masked] at set
  cases set
  rw [host']
  exact ⟨writer, leads, filled.set _ _⟩

/-- A copy of a file that succeeds leaves the file under both paths, and all else as it was, exactly if
the target does not lead to the place of the source, or the file is empty, and the host tells the file's
permissions, or there are none. -/
theorem copy_duplicates_iff (setup : Setup) (context : Context) (world : World)
    (found : Sftp.find world.host.files true (context.remotePath source) =
      .ok (reader, .file content mode))
    (succeeds : (world.carryOut (Deployment.execute setup context (.copy source target))).1.failure = none) :
    Sftp.Duplicated world.host.files
        (world.carryOut (Deployment.execute setup context (.copy source target))).2.host.files
        (context.remotePath source) (context.remotePath target) content (mode &&& Sftp.modeMask) ↔
      (Sftp.locate world.host.files true (context.remotePath target) = .ok reader → content = []) ∧
        (reader ∈ world.host.bare → mode &&& Sftp.modeMask = 0) := by
  obtain ⟨transcript, run, answered⟩ := world.carryOut_answers
    (Deployment.execute setup context (.copy source target))
  obtain ⟨session, metadata, rfl⟩ :=
    Deployment.executes_copy (Deployment.executes_of_yields run) succeeds
  obtain ⟨first, looked, answered⟩ := World.answers_call answered
  obtain ⟨second, copied, answered⟩ := World.answers_call answered
  obtain ⟨third, changed, answered⟩ := World.answers_call answered
  obtain rfl := World.answers_nil answered
  obtain ⟨writer, leads, rewritten⟩ := rewritten_of_calls found looked copied changed
  rw [rewritten.duplicated_iff found leads (toldBits_masked _ _ _), leads, Except.ok.injEq, eq_comm]
  have told : world.host.toldBits reader mode = mode &&& Sftp.modeMask ↔
      (reader ∈ world.host.bare → mode &&& Sftp.modeMask = 0) := by
    unfold Host.toldBits
    by_cases bare : reader ∈ world.host.bare
    · simp [bare, eq_comm]
    · simp [bare]
  rw [told]

def oneFile : World where
  machine := { files := {}, directory := "/" }
  host := {
    home := "/"
    files := { nodes := [("/", .directory 0o755), ("/a", .file [120] 0o700)] } }

def atRoot : Context := { session := some 0, remoteDirectory := "/" }

theorem copy_duplicates_beside :
    Sftp.find oneFile.host.files true (atRoot.remotePath "a") = .ok ("/a", .file [120] 0o700) ∧
    (oneFile.carryOut (Deployment.execute {} atRoot (.copy "a" "b"))).1.failure = none ∧
    Sftp.Duplicated oneFile.host.files
      (oneFile.carryOut (Deployment.execute {} atRoot (.copy "a" "b"))).2.host.files
      (atRoot.remotePath "a") (atRoot.remotePath "b") [120] (0o700 &&& Sftp.modeMask) := by
  have found : Sftp.find oneFile.host.files true (atRoot.remotePath "a") =
      .ok ("/a", .file [120] 0o700) := by cbv
  have succeeds :
      (oneFile.carryOut (Deployment.execute {} atRoot (.copy "a" "b"))).1.failure = none := by cbv
  have elsewhere : Sftp.locate oneFile.host.files true (atRoot.remotePath "b") = .ok "/b" := by cbv
  refine ⟨found, succeeds, (copy_duplicates_iff {} atRoot oneFile found succeeds).2 ⟨?_, ?_⟩⟩
  · intro same
    rw [elsewhere] at same
    exact absurd (Except.ok.inj same) (by decide)
  · exact fun bare => absurd bare List.not_mem_nil

def copyOntoItself : Script where
  steps := [⟨.connect { username := "u", host := "host", port := 22, password := some "p" }, 1⟩,
    ⟨.copy "a" "./a", 2⟩]

/-- The run ends well, and nothing is left of the file. -/
theorem copy_onto_itself_empties :
    Sftp.find oneFile.host.files true "/a" = .ok ("/a", .file [120] 0o700) ∧
    (oneFile.carryOut (Deployment.run { localDirectory := some "/" } copyOntoItself)).1.2 = .ok () ∧
    Sftp.find (oneFile.carryOut
      (Deployment.run { localDirectory := some "/" } copyOntoItself)).2.host.files true "/a" =
        .ok ("/a", .file [] 0o700) := by
  refine ⟨?_, ?_, ?_⟩
  · cbv
  · cbv
  · cbv

end Ssh

end Rollout

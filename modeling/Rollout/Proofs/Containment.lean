import Rollout.Proofs.Paths
import Rollout.Proofs.Reach

/-!
# Containment of downloads

A download puts its source into the destination directory as one new entry, and touches nothing of the
operator's files but that entry, what is below it, and the directories that lead to it. This takes names
for entries, which a remote host could refuse to give, and a source that has a name of its own, which
only the root has not: what is downloaded from there lands at the local root, wherever the destination
is.
-/

namespace Rollout.Deployment

open Rollout.LocalPath (Covers Enters)

/-- The entries have names of one segment that lead a level down. -/
def Named (entries : List Entry) : Prop :=
  ∀ entry ∈ entries, IsName entry.name.toList

/-- What is listed has names. -/
def NamesOnly : Exchange → Prop
  | ⟨.session _ (.list _), .ok entries⟩ => Named entries
  | _ => True

/-- What a request may touch of the operator's files while something is put into the directory as
`landing`. Creating a directory creates those above it that are missing; a program may touch anything. -/
def StaysIn (directory landing : String) : Request → Prop
  | .machine (.makeDirectories path) =>
    ∀ above, Covers above path → Covers above directory ∨ Covers landing above
  | .machine (.setMode path _) => Covers landing path
  | .session _ (.download _ target _) => Covers landing target
  | .machine (.run ..) | .machine (.capture ..) => False
  | _ => True

/-- The request that puts a directory or a file at a local path. -/
def PutsAt (landing : String) : Request → Prop
  | .machine (.makeDirectories path) => path = landing
  | .session _ (.download _ target _) => target = landing
  | _ => False

/-- Whatever is downloaded from the source into the directory, it lands there as one new entry. -/
structure LandsAs (source directory landing : String) : Prop where
  /-- The entry is the directory with exactly one more component, which is a name. -/
  enters : ∃ name, Enters directory name landing
  /-- Nothing is touched but the entry, what is below it, and the directories that lead to it. -/
  stays : ∀ depth session transcript result,
    (download depth session source directory).run.Yields transcript result →
      (∀ exchange ∈ transcript, NamesOnly exchange) →
        ∀ exchange ∈ transcript, StaysIn directory landing exchange.request
  /-- A download that succeeds has put something there. -/
  lands : ∀ depth session, (download depth session source directory).Performs (PutsAt landing)

/-- The terms of a download that puts its source into the directory as `landing`. -/
def containedTerms (directory landing : String) : Attempt.Terms TransferError :=
  transferTerms NamesOnly (StaysIn directory landing)

variable {session : SessionId} {source directory landing : String} {name : List Char}

/-- A directory at or below the entry can be made. -/
theorem staysIn_makeDirectories (enters : Enters directory name landing) {path : String}
    (inside : Covers landing path) : StaysIn directory landing (.machine (.makeDirectories path)) :=
  fun _ onWay => enters.above_or_below inside onWay

theorem contained_downloadFile {into : String} (metadata : Metadata)
    (made : StaysIn directory landing (.machine (.makeDirectories into)))
    (inside : Covers landing (LocalPath.join into (RemotePath.baseName source))) :
    (downloadFile session source metadata into).Observes (containedTerms directory landing)
      fun _ => True := by
  unfold downloadFile
  refine (observes_makeLocalDirectories made).andThen fun _ => ?_
  refine (Attempt.observes_report trivial).andThen fun _ => ?_
  refine (observes_remotely inside fun _ _ => trivial).andThen fun _ => ?_
  refine (observes_setLocalMode inside).andThen fun _ => ?_
  exact Attempt.observes_pure trivial

theorem contained_downloadDirectory (enters : Enters directory name landing) (depth : Nat)
    {into : String} (root : RemotePath.isAbsolute source.toList = true)
    (inside : Covers landing (LocalPath.join into (RemotePath.baseName source))) :
    (downloadDirectory session depth source into).Observes (containedTerms directory landing)
      fun _ => True := by
  induction depth generalizing source into with
  | zero => exact Attempt.observes_throw ⟨source, rfl⟩
  | succ depth ih =>
    unfold downloadDirectory
    have made := staysIn_makeDirectories enters inside
    refine (observes_makeLocalDirectories made).andThen fun _ => ?_
    refine (observes_remotely trivial fun _ listed => listed).bind fun entries listed => ?_
    refine Attempt.observes_total fun entry member => ?_
    have named : IsName entry.name.toList := listed entry (List.mem_mergeSort.1 member)
    obtain ⟨rooted, parts⟩ := RemotePath.join_name root named
    -- The name that is fetched is the name that was listed, so the path stays at or below the entry.
    have below : Covers landing (LocalPath.join (LocalPath.join into (RemotePath.baseName source))
        (RemotePath.baseName (RemotePath.join source entry.name))) := by
      rw [RemotePath.baseName_of_parts parts]
      exact inside.trans (LocalPath.enters_join _ named).covers
    dsimp only
    split
    · exact ih rooted below
    · refine (observes_remotely trivial fun _ _ => trivial).andThen fun metadata => ?_
      exact contained_downloadFile metadata made below

theorem contained_download (depth : Nat) (root : RemotePath.isAbsolute source.toList = true)
    (enters : Enters directory name (LocalPath.join directory (RemotePath.baseName source))) :
    (download depth session source directory).Observes
      (containedTerms directory (LocalPath.join directory (RemotePath.baseName source)))
      fun _ => True := by
  unfold download
  refine (observes_remotely trivial fun _ _ => trivial).andThen fun metadata => ?_
  split
  · exact contained_downloadDirectory enters depth root (LocalPath.covers_refl _)
  · exact contained_downloadFile metadata (fun _ onWay => .inl onWay) (LocalPath.covers_refl _)

theorem performs_download (depth : Nat) :
    (download depth session source directory).Performs
      (PutsAt (LocalPath.join directory (RemotePath.baseName source))) := by
  unfold download
  refine .after (fun metadata => ?_) _
  split
  · cases depth with
    | zero => exact Attempt.performs_throw
    | succ depth =>
      have made : (makeLocalDirectories (LocalPath.join directory (RemotePath.baseName source))).Performs
          (PutsAt (LocalPath.join directory (RemotePath.baseName source))) :=
        Attempt.performs_asking rfl
      exact made.before _
  · have fetched (transfer : Transfer) : (remotely session (.download source
        (LocalPath.join directory (RemotePath.baseName source)) transfer)).Performs
        (PutsAt (LocalPath.join directory (RemotePath.baseName source))) :=
      Attempt.performs_session rfl
    exact .after (fun _ => .after (fun _ => (fetched _).before _) _) _

/-- A source that is not the root lands under its own name. -/
theorem landsAs_baseName (root : RemotePath.isAbsolute source.toList = true)
    (below : RemotePath.clean source ≠ "/") :
    LandsAs source directory (LocalPath.join directory (RemotePath.baseName source)) := by
  have nonempty : RemotePath.parts source.toList ≠ [] :=
    fun nameless => below ((RemotePath.clean_eq_root_iff root).2 nameless)
  let last : String := .ofList ((RemotePath.parts source.toList).getLast nonempty)
  have split : RemotePath.parts source.toList =
      (RemotePath.parts source.toList).dropLast ++ [last.toList] := by
    rw [String.toList_ofList, List.dropLast_concat_getLast]
  have named : IsName last.toList := by
    rw [String.toList_ofList]
    exact RemotePath.parts_isName root _ (List.getLast_mem nonempty)
  have enters : Enters directory last.toList
      (LocalPath.join directory (RemotePath.baseName source)) := by
    rw [RemotePath.baseName_of_parts split]
    exact LocalPath.enters_join directory named
  refine ⟨⟨_, enters⟩, ?_, fun depth session => performs_download depth⟩
  intro depth session transcript result run listed
  exact (contained_download depth root enters transcript result run listed).1

/-- What a run of a download from the root says if one file is listed there. -/
def rootTranscript (source name : String) : Transcript :=
  let path := RemotePath.join source name
  let found : Metadata := { isDirectory := true, size := 0, mode := 0 }
  let file : Metadata := { isDirectory := false, size := 0, mode := 0 }
  let transfer : Transfer := { label := name, total := 0 }
  [⟨.session 0 (.stat source), .ok found⟩,
    ⟨.machine (.makeDirectories "/"), .ok ()⟩,
    ⟨.session 0 (.list source), .ok [({ name, isDirectory := false } : Entry)]⟩,
    ⟨.session 0 (.stat path), .ok file⟩,
    ⟨.machine (.makeDirectories "/"), .ok ()⟩,
    ⟨.report (.transfer transfer), ()⟩,
    ⟨.session 0 (.download path ("/" ++ name) transfer), .ok (0 : Nat)⟩,
    ⟨.machine (.setMode ("/" ++ name) fallbackMode), .ok ()⟩]

/-- A file that is listed at the root can be fetched to the local root, whatever the destination. -/
theorem fetch_from_root (root : RemotePath.isAbsolute source.toList = true)
    (top : RemotePath.parts source.toList = []) (directory : String) {name : String}
    (named : IsName name.toList) :
    (download 1 0 source directory).run.Yields (rootTranscript source name) (.ok 0) := by
  obtain ⟨_, parts⟩ := RemotePath.join_name root named
  have nameless : RemotePath.baseName source = "/" := by simp [RemotePath.baseName, top, root]
  have fetched : (downloadFile 0 (RemotePath.join source name)
      { isDirectory := false, size := 0, mode := 0 } "/").run.Yields
      ((rootTranscript source name).drop 4) (.ok 0) := by
    unfold downloadFile
    dsimp only
    rw [RemotePath.baseName_of_parts parts, LocalPath.root_join named]
    refine Attempt.yields_then (Attempt.yields_answer rfl) ?_
    refine Attempt.yields_then (Attempt.yields_report_iff.2 ⟨rfl, rfl⟩) ?_
    refine Attempt.yields_then (Attempt.yields_call _) ?_
    refine Attempt.yields_then (Attempt.yields_answer rfl) ?_
    exact Attempt.yields_pure_iff.2 ⟨rfl, rfl⟩
  unfold download
  refine Attempt.yields_then (Attempt.yields_call _) ?_
  rw [if_pos rfl]
  unfold downloadDirectory
  rw [nameless, LocalPath.join_root]
  refine Attempt.yields_then (Attempt.yields_answer rfl) ?_
  refine Attempt.yields_then (Attempt.yields_call _) ?_
  rw [List.mergeSort_singleton]
  have taken : ((do
      let metadata ← remotely 0 (.stat (RemotePath.join source name))
      downloadFile 0 (RemotePath.join source name) metadata "/") :
        Attempt TransferError Nat).run.Yields ((rootTranscript source name).drop 3) (.ok 0) :=
    Attempt.yields_then (Attempt.yields_call _) fetched
  exact Attempt.yields_then taken (Attempt.yields_pure_iff.2 ⟨rfl, rfl⟩)

theorem namesOnly_rootTranscript (source : String) {name : String} (named : IsName name.toList) :
    ∀ exchange ∈ rootTranscript source name, NamesOnly exchange := by
  simp [rootTranscript, NamesOnly, Named, named]

/-- A source lands in every directory as one new entry exactly if it is not the root. -/
theorem download_lands_iff (root : RemotePath.isAbsolute source.toList = true) (directory : String) :
    (∃ landing, LandsAs source directory landing) ↔ RemotePath.clean source ≠ "/" := by
  constructor
  · rintro ⟨landing, ⟨name, enters⟩, stays, _⟩ atRoot
    have top := (RemotePath.clean_eq_root_iff root).1 atRoot
    have reached {file : String} (named : IsName file.toList) : name = file.toList := by
      have run := fetch_from_root root top directory named
      have inside := stays 1 0 _ _ run (namesOnly_rootTranscript source named)
        ⟨.session 0 (.download (RemotePath.join source file) ("/" ++ file)
          { label := file, total := 0 }), .ok (0 : Nat)⟩ (by simp [rootTranscript])
      exact enters.eq_of_root_covers named inside
    have a : name = "a".toList := reached ⟨by decide, by decide, by decide, by decide⟩
    have b : name = "b".toList := reached ⟨by decide, by decide, by decide, by decide⟩
    rw [a] at b
    exact absurd b (by decide)
  · exact fun below => ⟨_, landsAs_baseName root below⟩

theorem download_lands_var_log : RemotePath.isAbsolute "/var/log".toList = true ∧
    ∃ landing, LandsAs "/var/log" "/home/op/out" landing :=
  ⟨by decide, (download_lands_iff (by decide) _).2 (by decide)⟩

/-- What is listed at the root is written over the operator's own files. -/
theorem root_download_escapes : RemotePath.clean "/" = "/" ∧
    ∃ transcript, (download 1 0 "/" "/home/op/out").run.Yields transcript (.ok 0) ∧
      (∀ exchange ∈ transcript, NamesOnly exchange) ∧
      ∃ exchange ∈ transcript, ∃ path transfer,
        exchange.request = .session 0 (.download path "/a" transfer) ∧
          ¬ Covers "/home/op/out" "/a" ∧ ¬ Covers "/a" "/home/op/out" := by
  have named : IsName "a".toList := ⟨by decide, by decide, by decide, by decide⟩
  refine ⟨by decide, rootTranscript "/" "a", ?_, namesOnly_rootTranscript "/" named, ?_⟩
  · exact fetch_from_root (by decide) (by decide) "/home/op/out" named
  · refine ⟨⟨.session 0 (.download (RemotePath.join "/" "a") "/a" { label := "a", total := 0 }),
      .ok (0 : Nat)⟩, by simp [rootTranscript], _, _, rfl, ?_, ?_⟩
    · rintro ⟨_, short⟩
      exact absurd short (by decide)
    · rintro ⟨_, short⟩
      exact absurd short (by decide)

end Rollout.Deployment

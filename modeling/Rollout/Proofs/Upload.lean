import Rollout.Proofs.Store

/-!
# An upload mirrors its source

In a world that does as it is documented to, a file or a directory of any depth and width is sent whole:
what is on the host afterwards is what was there, the directories on the way to the destination, and the
source under its own name, with the content and the mode of every file. The requests to the session are
those of a walk over the source in the order of names, whatever order its directories are listed in.
-/

namespace Rollout.Deployment

open Rollout.LocalPath (visited place baseName)
open Rollout.RemotePath (pathTo)

/-- The requests by which a tree is sent from a local path into a remote directory. -/
def uploadRequests (session : SessionId) (source directory : String) : Tree → List Request
  | .file content mode =>
    let name := baseName source
    let target := RemotePath.join directory name
    [.session session (.makeDirectories directory),
      .session session (.upload source target { label := name, total := content.length }),
      .session session (.chmod target mode)]
  | .directory entries =>
    let target := RemotePath.join directory (baseName source)
    .session session (.makeDirectories target) ::
      entries.flatMap fun entry => uploadRequests session (LocalPath.join source entry.1) target entry.2
termination_by tree => tree
decreasing_by exact Tree.sizeOf_lt_directory ‹_›

/-- The tree can be sent from a local path into a directory of the host: it is there, it is one that can
be sent, and nothing on the host stands in its way. -/
structure Sendable (here : Place) (sides : Sides) (source : String) (tree : Tree) (top : Place) : Prop where
  leads : LeadsTo here sides.files source tree.standing
  stands : tree.StandsAt sides.files (place here source)
  proper : tree.Proper
  named : ∀ part ∈ top, IsEntry part
  entry : IsEntry (baseName source).toList
  free : sides.remote.Free top.inits
  admits : (sides.remote.withDirectories top.inits).Admits (top ++ [(baseName source).toList])
    (tree.seen id)

/-- Both sides after a tree was sent into a directory under a name. -/
def sent (sides : Sides) (tree : Tree) (top : Place) (name : String) : Sides :=
  { sides with
    remote := (sides.remote.withDirectories top.inits).graft (top ++ [name.toList]) (tree.seen id) }

section Upload

variable {behaviour : Behaviour} {sees : Transcript → Sides} {session : SessionId} {here : Place}
  {sides : Sides} {source : String} {tree : Tree} {top : Place}

theorem Sendable.join_eq (sendable : Sendable here sides source tree top) :
    RemotePath.join (pathTo top) (baseName source) = pathTo (top ++ [(baseName source).toList]) :=
  RemotePath.join_pathTo (fun part member => (sendable.named part member).toIsName)
    sendable.entry.toIsName

theorem Sendable.named_target (sendable : Sendable here sides source tree top) :
    ∀ part ∈ top ++ [(baseName source).toList], IsEntry part :=
  List.forall_mem_append.2 ⟨sendable.named, by simpa using sendable.entry⟩

/-- Wherever an upload of nesting at most `depth` can send the tree, it does. -/
def Sends (behaviour : Behaviour) (sees : Transcript → Sides) (session : SessionId) (here : Place)
    (depth : Nat) (tree : Tree) : Prop :=
  ∀ sides source top, Sendable here sides source tree top →
    Achieves behaviour sees sides (upload depth session source (pathTo top))
      (Exactly tree.size (sent sides tree top (baseName source))
        (uploadRequests session source (pathTo top) tree))

/-- Both sides after an entry was sent into a directory that is there. -/
def entrySent (target : Place) (sides : Sides) (entry : String × Tree) : Sides :=
  { sides with remote := sides.remote.graft (target ++ [entry.1.toList]) (entry.2.seen id) }

theorem foldl_entrySent (target : Place) (sides : Sides) (entries : List (String × Tree)) :
    entries.foldl (entrySent target) sides = { sides with
      remote := entries.foldl (fun layout entry =>
        layout.graft (target ++ [entry.1.toList]) (entry.2.seen id)) sides.remote } := by
  induction entries generalizing sides with
  | nil => rfl
  | cons entry rest ih => rw [List.foldl_cons, ih]; rfl

/-- While a directory is sent to a place: the machine is as it was, and the host can take the entries that
are still to come. -/
structure Sending (sides : Sides) (entries : List (String × Tree)) (target : Place) (now : Sides)
    (rest : List (String × Tree)) : Prop where
  same : now.files = sides.files
  among : ∀ entry ∈ rest, entry ∈ entries
  awaits : Tree.Awaits now.remote target.inits target id rest

section Sending

variable {entries rest : List (String × Tree)} {now : Sides} {entry : String × Tree}

theorem Sending.start (sendable : Sendable here sides source (.directory entries) top) :
    let target := top ++ [(baseName source).toList]
    Sending sides entries target { sides with remote := sides.remote.withDirectories target.inits }
      entries := by
  refine ⟨rfl, fun _ member => member, ?_⟩
  rw [inits_concat]
  exact .start sendable.free sendable.admits rfl (Tree.distinct_of_ordered sendable.proper.ordered)

theorem Sending.next {target : Place} (sending : Sending sides entries target now (entry :: rest)) :
    Sending sides entries target (entrySent target now entry) rest :=
  ⟨sending.same, (List.forall_mem_cons.1 sending.among).2, sending.awaits.next⟩

/-- While a directory is sent, each entry that is still to come can be. -/
theorem Sendable.ofEntry (sendable : Sendable here sides source (.directory entries) top)
    (sending : Sending sides entries (top ++ [(baseName source).toList]) now (entry :: rest)) :
    Sendable here now (LocalPath.join source entry.1) entry.2 (top ++ [(baseName source).toList]) ∧
      sent now entry.2 (top ++ [(baseName source).toList]) (baseName (LocalPath.join source entry.1)) =
        entrySent (top ++ [(baseName source).toList]) now entry := by
  have member := sending.among entry (List.mem_cons_self ..)
  cases sendable.proper with
  | directory named ordered proper =>
    have under := sendable.stands.entry (Tree.distinct_of_ordered ordered) member
    have name : baseName (LocalPath.join source entry.1) = entry.1 :=
      LocalPath.baseName_join (named entry member).toIsName
    have room := Layout.withDirectories_of_made sending.awaits.made
    refine ⟨⟨?_, ?_, proper entry member, sendable.named_target, ?_, sending.awaits.made.free, ?_⟩, ?_⟩
    · rw [sending.same]
      exact sendable.leads.join (named entry member) under.here
    · rwa [sending.same, LocalPath.place_join (named entry member).toIsName]
    · rw [name]
      exact named entry member
    · rw [name, room]
      exact sending.awaits.admits entry (List.mem_cons_self ..)
    · rw [sent, name, room]
      rfl

end Sending

/-- The entries of a directory that was made are sent one after the other, if these can be sent. -/
theorem achieves_uploadEntries {depth : Nat} {entries : List (String × Tree)}
    (sendable : Sendable here sides source (.directory entries) top)
    (inner : ∀ entry ∈ entries, Sends behaviour sees session here depth entry.2) :
    let target := top ++ [(baseName source).toList]
    Achieves behaviour sees { sides with remote := sides.remote.withDirectories target.inits }
      (Attempt.total (fun name => upload depth session (LocalPath.join source name) (pathTo target))
        (entries.map Prod.fst))
      (Exactly (Tree.directory entries).size (sent sides (.directory entries) top (baseName source))
        (entries.flatMap fun entry =>
          uploadRequests session (LocalPath.join source entry.1) (pathTo target) entry.2)) := by
  intro target
  have element : ∀ now first rest, Sending sides entries target now (first :: rest) →
      Achieves behaviour sees now (upload depth session (LocalPath.join source first.1) (pathTo target))
        (Exactly first.2.size (entrySent target now first)
          (uploadRequests session (LocalPath.join source first.1) (pathTo target) first.2)) ∧
        Sending sides entries target (entrySent target now first) rest := by
    intro now first rest sending
    obtain ⟨possible, leaves⟩ := sendable.ofEntry sending
    have member := sending.among first (List.mem_cons_self ..)
    exact ⟨leaves ▸ inner first member _ _ _ possible, sending.next⟩
  rw [total_map]
  refine (achieves_total element entries (.start sendable)).mono ?_
  rintro _ _ _ ⟨rfl, rfl, rfl⟩
  refine ⟨?_, ?_, rfl⟩
  · rw [Tree.size]
  · rw [foldl_entrySent, sent, ← Tree.foldl_graft sendable.free sendable.admits rfl
      (Tree.distinct_of_ordered sendable.proper.ordered), ← inits_concat]

variable (faithful : Faithful behaviour sees session here)

include faithful

/-- A file arrives with its content, and its mode is set at once, whatever mode it arrives with. -/
theorem achieves_uploadThenChmod {path : String} {content : Bytes} {mode : Nat} {name : List Char}
    (transfer : Transfer) (leads : LeadsTo here sides.files path (.file content mode))
    (bits : mode < 0o10000) (named : ∀ part ∈ top ++ [name], IsEntry part)
    (made : sides.remote.Made top.inits)
    (vacant : ∀ standing, sides.remote (top ++ [name]) = some standing → standing ≠ .directory) :
    Achieves behaviour sees sides (do
        let count ← remotely session (.upload path (pathTo (top ++ [name])) transfer)
        remotely session (.chmod (pathTo (top ++ [name])) mode)
        return count)
      (Exactly content.length
        { sides with remote := sides.remote.set (top ++ [name]) (.file content mode) }
        [.session session (.upload path (pathTo (top ++ [name])) transfer),
          .session session (.chmod (pathTo (top ++ [name])) mode)]) := by
  refine (faithful.achieves_upload transfer leads named made vacant).bind ?_
  rintro _ _ _ ⟨rfl, ⟨arrived, rfl⟩, rfl⟩
  let arrival : Sides :=
    { sides with remote := sides.remote.set (top ++ [name]) (.file content arrived) }
  have stands : arrival.remote (top ++ [name]) = some (.file content arrived) := Layout.set_self ..
  have changed := faithful.achieves_chmod named stands bits
  rw [Layout.set_set] at changed
  refine changed.andThen ((achieves_pure _).mono ?_)
  rintro _ _ _ ⟨rfl, rfl, rfl⟩
  exact ⟨rfl, rfl, rfl⟩

/-- A file is sent in three requests. -/
theorem achieves_uploadFile {content : Bytes} {mode : Nat}
    (sendable : Sendable here sides source (.file content mode) top) {metadata : Metadata}
    (describes : metadata.Describes (.file content mode)) :
    Achieves behaviour sees sides (uploadFile session source metadata (pathTo top))
      (Exactly (Tree.file content mode).size (sent sides (.file content mode) top (baseName source))
        (uploadRequests session source (pathTo top) (.file content mode))) := by
  obtain rfl : metadata = _ := describes
  let opened : Sides := { sides with remote := sides.remote.withDirectories top.inits }
  have leads : LeadsTo here opened.files source (.file content mode) := sendable.leads
  have made : opened.remote.Made top.inits := Layout.made_withDirectories sendable.free
  have opens := faithful.achieves_makeDirectories sendable.named sendable.free
  have arrives (transfer : Transfer) := achieves_uploadThenChmod faithful transfer leads
    sendable.proper.bits sendable.named_target made (sendable.admits.vacant rfl)
  unfold uploadFile
  dsimp only
  rw [sendable.join_eq]
  refine opens.andThen ((faithful.achieves_report _).andThen ((arrives _).mono ?_))
  rintro _ _ _ ⟨rfl, rfl, rfl⟩
  refine ⟨?_, ?_, ?_⟩
  · rw [Tree.size]
  · rw [sent, Tree.seen_file]
    rfl
  · rw [uploadRequests, sendable.join_eq]
    rfl

/-- A directory is sent by making it and sending its entries, if these can be sent. -/
theorem achieves_uploadDirectory {depth : Nat} {entries : List (String × Tree)}
    (sendable : Sendable here sides source (.directory entries) top)
    (inner : ∀ entry ∈ entries, Sends behaviour sees session here depth entry.2) :
    Achieves behaviour sees sides (uploadDirectory session (depth + 1) source (pathTo top))
      (Exactly (Tree.directory entries).size (sent sides (.directory entries) top (baseName source))
        (uploadRequests session source (pathTo top) (.directory entries))) := by
  let target := top ++ [(baseName source).toList]
  let opened : Sides := { sides with remote := sides.remote.withDirectories target.inits }
  have free : sides.remote.Free target.inits := by
    rw [inits_concat]
    exact sendable.free.append (sendable.admits.free rfl).of_withDirectories
  have leads : LeadsTo here opened.files source .directory := sendable.leads
  have listed := faithful.achieves_localEntries leads sendable.stands sendable.proper.ordered
  unfold uploadDirectory
  dsimp only
  rw [sendable.join_eq]
  refine (faithful.achieves_makeDirectories sendable.named_target free).andThen (listed.andThen ?_)
  refine (achieves_uploadEntries sendable inner).mono ?_
  rintro _ _ _ ⟨rfl, rfl, rfl⟩
  refine ⟨rfl, rfl, ?_⟩
  rw [uploadRequests, sendable.join_eq]
  rfl

/-- A tree that can be sent is sent, if it is not nested too deep. -/
theorem sends_of_fitsIn {depth : Nat} (fits : tree.FitsIn depth) :
    Sends behaviour sees session here depth tree := by
  induction depth generalizing tree with
  | zero =>
    intro sides source top sendable
    refine (faithful.achieves_localMetadata sendable.leads).bind ?_
    rintro metadata _ _ ⟨describes, rfl, rfl⟩
    rw [describes.isDirectory_eq]
    cases tree with
    | file content mode => exact achieves_uploadFile faithful sendable describes
    | directory entries => exact fits.elim
  | succ depth ih =>
    intro sides source top sendable
    refine (faithful.achieves_localMetadata sendable.leads).bind ?_
    rintro metadata _ _ ⟨describes, rfl, rfl⟩
    rw [describes.isDirectory_eq]
    cases tree with
    | file content mode => exact achieves_uploadFile faithful sendable describes
    | directory entries =>
      exact achieves_uploadDirectory faithful sendable fun entry member => ih (fits entry member)

end Upload

/-- A source that ends in a name, a file or a directory of any depth and width, is sent to a directory of
the host whole: the upload returns the sum of the sizes of all files; on the host there is afterwards what
was there, the directories on the way, and the source under its name; on the machine nothing changes; and
the requests to the session are those that the source itself calls for. -/
theorem upload_mirrors {behaviour : Behaviour} {sees : Transcript → Sides} {session : SessionId}
    {here : Place} (faithful : Faithful behaviour sees session here) {past : Transcript} {depth : Nat}
    {source base directory : String} {tree : Tree}
    (named : LocalPath.fileName source = some base)
    (leads : LeadsTo here (sees past).files source tree.standing)
    (stands : tree.StandsAt (sees past).files (place here source))
    (proper : tree.Proper) (fits : tree.FitsIn depth)
    (root : RemotePath.isAbsolute directory.toList = true) (noNul : Char.ofNat 0 ∉ directory.toList)
    (free : (sees past).remote.Free (RemotePath.parts directory.toList).inits)
    (admits : (sees past).remote.Admits (RemotePath.parts directory.toList ++ [base.toList]) tree.at?) :
    let run := (upload depth session source (RemotePath.clean directory)).run.under behaviour past
    let top := RemotePath.parts directory.toList
    run.2 = .ok tree.size ∧
      (sees (past ++ run.1)).remote =
        ((sees past).remote.withDirectories top.inits).graft (top ++ [base.toList]) tree.at? ∧
      (sees (past ++ run.1)).files = (sees past).files ∧
      sessionRequests run.1 = uploadRequests session source (RemotePath.clean directory) tree := by
  have name : baseName source = base := by simp [baseName, named]
  obtain ⟨isName, within⟩ := LocalPath.fileName_isName named
  have sendable : Sendable here (sees past) source tree (RemotePath.parts directory.toList) := by
    refine ⟨leads, stands, proper, fun part member => ?_, ?_, free, ?_⟩
    · have segment := RemotePath.mem_splitOn_of_mem_parts member
      exact ⟨RemotePath.parts_isName root part member,
        fun nul => noNul (Text.mem_of_mem_splitOn segment nul)⟩
    · rw [name]
      exact ⟨isName, fun nul => leads.noNul (within _ nul)⟩
    · rw [name, Tree.seen_id]
      exact Layout.Admits.below admits
  obtain ⟨_, returned, rfl, after, requests⟩ :=
    sends_of_fitsIn faithful fits (sees past) source _ sendable past rfl
  rw [← RemotePath.clean_eq_pathTo root] at returned after requests
  refine ⟨returned, ?_, ?_, requests⟩
  · rw [after, sent, name, Tree.seen_id]
  · rw [after, sent]

/-- The sample is sent to a directory that is not there yet. -/
theorem upload_mirrors_sample :
    let sees := bothSides.sees [['w']]
    let directory := RemotePath.clean "/srv/app"
    let top := ["srv".toList, "app".toList]
    let run := (upload 2 0 "d" directory).run.under (bothSides.behaviour [['w']]) []
    run.2 = .ok 3 ∧
      (sees run.1).remote = ((sees []).remote.withDirectories top.inits).graft
        (top ++ ["d".toList]) sample.at? ∧
      (sees run.1).files = (sees []).files ∧
      sessionRequests run.1 = uploadRequests 0 "d" directory sample := by
  have size : sample.size = 3 := by simp [sample, Tree.size]
  have stands : sample.StandsAt (bothSides.sees [['w']] []).files (place [['w']] "d") :=
    Table.standsAt_ofTree proper_sample (by decide)
  have leads : LeadsTo [['w']] (bothSides.sees [['w']] []).files "d" .directory :=
    ⟨by decide, by decide, List.forall_mem_singleton.2 rfl, stands.here, fun file => absurd rfl file⟩
  have remote (place : Place) (apart : ¬ [['d']] <+: place) :
      (bothSides.sees [['w']] []).remote place = if place = [] then some .directory else none := by
    refine (Table.layout_append_ofTree [([], .directory)] apart).trans ?_
    cases place <;> rfl
  have free : (bothSides.sees [['w']] []).remote.Free (RemotePath.parts "/srv/app".toList).inits := by
    intro place member standing
    have apart : ∀ place ∈ (RemotePath.parts "/srv/app".toList).inits, ¬ [['d']] <+: place := by decide
    rw [remote place (apart place member)]
    grind
  have admits : (bothSides.sees [['w']] []).remote.Admits
      (RemotePath.parts "/srv/app".toList ++ ["d".toList]) sample.at? := by
    have target : RemotePath.parts "/srv/app".toList ++ ["d".toList] =
        ["srv".toList, "app".toList, "d".toList] := by decide
    intro rest coming there _ stands
    rw [target, List.cons_append, remote _ (by simp), if_neg (by simp)] at stands
    cases stands
  rw [← size]
  exact upload_mirrors (bothSides.faithful [['w']] 0) (by decide) leads stands proper_sample
    (by simp [sample, Tree.FitsIn]) (by decide) (by decide) free admits

end Rollout.Deployment

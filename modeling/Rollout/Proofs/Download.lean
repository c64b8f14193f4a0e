import Rollout.Proofs.Store
import Rollout.Rehearsal.World

/-!
# A download mirrors its source

In a world that does as it is documented to, a file or a directory of any depth and width is fetched whole:
what is on the machine afterwards is what was there, the directories on the way to the destination, and the
source under its own name, with the content and the mode of every file, or the usual mode if the host tells
none. The requests to the session are those of a walk over the source in the order of names, whatever order
its directories are listed in. One destination is beyond a download of a single file: a directory that has
yet to be made and is written with a dot at its end.
-/

namespace Rollout.Deployment

open Rollout.LocalPath (visited place start EndsInDot)
open Rollout.RemotePath (pathTo)

/-- How the machine keeps what is fetched: a file that tells no mode gets the usual one. -/
def landed : Standing → Standing
  | .directory => .directory
  | .file content mode => .file content (if mode = 0 then fallbackMode else mode)

theorem isDirectory_landed (standing : Standing) :
    (landed standing).isDirectory = standing.isDirectory := by
  cases standing <;> rfl

/-- The requests by which a tree is fetched from a remote path into a local directory, once it is known
whether it is a file or a directory. -/
def fetchRequests (session : SessionId) (source directory : String) : Tree → List Request
  | .file content _ =>
    let name := RemotePath.baseName source
    [.session session (.download source (LocalPath.join directory name)
      { label := name, total := content.length })]
  | .directory entries =>
    let target := LocalPath.join directory (RemotePath.baseName source)
    .session session (.list source) :: entries.flatMap fun entry =>
      let path := RemotePath.join source entry.1
      (if entry.2.isDirectory then [] else [.session session (.stat path)]) ++
        fetchRequests session path target entry.2
termination_by tree => tree
decreasing_by exact Tree.sizeOf_lt_directory ‹_›

/-- The requests by which a tree is fetched from a remote path into a local directory. -/
def downloadRequests (session : SessionId) (source directory : String) (tree : Tree) : List Request :=
  .session session (.stat source) :: fetchRequests session source directory tree

/-- The tree can be fetched from under a name on the host into a local directory: it is there, it is one
that can be fetched, and nothing on the machine stands in its way. -/
structure Fetchable (here : Place) (sides : Sides) (above : Place) (name : String) (tree : Tree)
    (directory : String) : Prop where
  stands : tree.StandsAt sides.remote (above ++ [name.toList])
  named : ∀ part ∈ above, IsEntry part
  entry : IsEntry name.toList
  proper : tree.Proper
  noNul : Char.ofNat 0 ∉ directory.toList
  starts : sides.files (start here directory) = some .directory
  free : sides.files.Free (visited here directory)
  dotted : tree.isDirectory = false → EndsInDot directory →
    sides.files (place here directory) = some .directory
  admits : (sides.files.withDirectories (visited here directory)).Admits
    (place here directory ++ [name.toList]) (tree.seen landed)

/-- Both sides after a tree was fetched into a local directory under a name. -/
def fetched (here : Place) (sides : Sides) (tree : Tree) (directory name : String) : Sides :=
  { sides with
    files := (sides.files.withDirectories (visited here directory)).graft
      (place here directory ++ [name.toList]) (tree.seen landed) }

section Download

variable {behaviour : Behaviour} {sees : Transcript → Sides} {session : SessionId} {here : Place}
  {sides : Sides} {above : Place} {name directory : String} {tree : Tree}

theorem Fetchable.named_source (fetchable : Fetchable here sides above name tree directory) :
    ∀ part ∈ above ++ [name.toList], IsEntry part :=
  List.forall_mem_append.2 ⟨fetchable.named, by simpa using fetchable.entry⟩

theorem Fetchable.baseName_eq (fetchable : Fetchable here sides above name tree directory) :
    RemotePath.baseName (pathTo (above ++ [name.toList])) = name :=
  RemotePath.baseName_pathTo (fun part member => (fetchable.named part member).toIsName)
    fetchable.entry.toIsName

theorem Fetchable.place_eq (fetchable : Fetchable here sides above name tree directory) :
    place here (LocalPath.join directory name) = place here directory ++ [name.toList] :=
  LocalPath.place_join fetchable.entry.toIsName

theorem Fetchable.noNul_target (fetchable : Fetchable here sides above name tree directory) :
    Char.ofNat 0 ∉ (LocalPath.join directory name).toList :=
  LocalPath.not_mem_join fetchable.entry.toIsName fetchable.noNul fetchable.entry.noNul (by decide)

/-- Wherever a download of nesting at most `depth` can fetch the entries of a directory, it does. -/
def Fetches (behaviour : Behaviour) (sees : Transcript → Sides) (session : SessionId) (here : Place)
    (depth : Nat) (entries : List (String × Tree)) : Prop :=
  ∀ sides above name directory, Fetchable here sides above name (.directory entries) directory →
    Achieves behaviour sees sides
      (downloadDirectory session depth (pathTo (above ++ [name.toList])) directory)
      (Exactly (Tree.directory entries).size (fetched here sides (.directory entries) directory name)
        (fetchRequests session (pathTo (above ++ [name.toList])) directory (.directory entries)))

/-- Both sides after an entry was fetched into a directory that is there. -/
def entryFetched (target : Place) (sides : Sides) (entry : String × Tree) : Sides :=
  { sides with files := sides.files.graft (target ++ [entry.1.toList]) (entry.2.seen landed) }

theorem foldl_entryFetched (target : Place) (sides : Sides) (entries : List (String × Tree)) :
    entries.foldl (entryFetched target) sides = { sides with
      files := entries.foldl (fun layout entry =>
        layout.graft (target ++ [entry.1.toList]) (entry.2.seen landed)) sides.files } := by
  induction entries generalizing sides with
  | nil => rfl
  | cons entry rest ih => rw [List.foldl_cons, ih]; rfl

/-- While a directory is fetched to the end of a path: the host is as it was, and the machine can take the
entries that are still to come. -/
structure Fetching (here : Place) (sides : Sides) (entries : List (String × Tree)) (target : String)
    (now : Sides) (rest : List (String × Tree)) : Prop where
  same : now.remote = sides.remote
  among : ∀ entry ∈ rest, entry ∈ entries
  awaits : Tree.Awaits now.files (visited here target) (place here target) landed rest

section Fetching

variable {entries rest : List (String × Tree)} {now : Sides} {entry : String × Tree}

theorem Fetchable.visited_eq (fetchable : Fetchable here sides above name tree directory) :
    visited here (LocalPath.join directory name) =
      visited here directory ++ [place here (LocalPath.join directory name)] :=
  LocalPath.visited_join fetchable.entry.toIsName

theorem Fetchable.admits_target (fetchable : Fetchable here sides above name tree directory) :
    (sides.files.withDirectories (visited here directory)).Admits
      (place here (LocalPath.join directory name)) (tree.seen landed) := by
  rw [fetchable.place_eq]
  exact fetchable.admits

theorem Fetching.start (fetchable : Fetchable here sides above name (.directory entries) directory) :
    let target := LocalPath.join directory name
    Fetching here sides entries target
      { sides with files := sides.files.withDirectories (visited here target) } entries := by
  refine ⟨rfl, fun _ member => member, ?_⟩
  rw [fetchable.visited_eq]
  exact .start fetchable.free fetchable.admits_target rfl
    (Tree.distinct_of_ordered fetchable.proper.ordered)

theorem Fetching.next {target : String} (fetching : Fetching here sides entries target now (entry :: rest)) :
    Fetching here sides entries target (entryFetched (place here target) now entry) rest :=
  ⟨fetching.same, (List.forall_mem_cons.1 fetching.among).2, fetching.awaits.next⟩

/-- While a directory is fetched, each entry that is still to come can be. -/
theorem Fetchable.ofEntry
    (fetchable : Fetchable here sides above name (.directory entries) directory)
    (fetching : Fetching here sides entries (LocalPath.join directory name) now (entry :: rest)) :
    Fetchable here now (above ++ [name.toList]) entry.1 entry.2 (LocalPath.join directory name) ∧
      fetched here now entry.2 (LocalPath.join directory name) entry.1 =
        entryFetched (place here (LocalPath.join directory name)) now entry := by
  have member := fetching.among entry (List.mem_cons_self ..)
  have made := fetching.awaits.made
  cases fetchable.proper with
  | directory named ordered proper =>
    have room := Layout.withDirectories_of_made made
    refine ⟨⟨?_, fetchable.named_source, named entry member, proper entry member,
      fetchable.noNul_target, made _ LocalPath.start_mem_visited, made.free, ?_, ?_⟩, ?_⟩
    · rw [fetching.same]
      exact fetchable.stands.entry (Tree.distinct_of_ordered ordered) member
    · exact fun _ _ => made _ LocalPath.place_mem_visited
    · rw [room]
      exact fetching.awaits.admits entry (List.mem_cons_self ..)
    · rw [fetched, room]
      rfl

end Fetching

def fetchEntry (session : SessionId) (depth : Nat) (source target : String) (entry : Entry) :
    Attempt TransferError Nat := do
  let path := RemotePath.join source entry.name
  if entry.isDirectory then downloadDirectory session depth path target
  else
    let metadata ← remotely session (.stat path)
    downloadFile session path metadata target

def entryRequests (session : SessionId) (source target : String) (entry : String × Tree) :
    List Request :=
  let path := RemotePath.join source entry.1
  (if entry.2.isDirectory then [] else [.session session (.stat path)]) ++
    fetchRequests session path target entry.2

variable (faithful : Faithful behaviour sees session here)

include faithful

/-- A file arrives with its content, and its mode is set at once, whatever mode it arrives with. -/
theorem achieves_downloadThenSetMode {path : String} {content : Bytes} {told mode : Nat} {top : Place}
    (transfer : Transfer) (named : ∀ part ∈ top, IsEntry part)
    (stands : sides.remote top = some (.file content told)) (opens : Opens here sides.files path)
    (nonempty : path ≠ "") (bits : mode < 0o10000) :
    Achieves behaviour sees sides (do
        let count ← remotely session (.download (pathTo top) path transfer)
        setLocalMode path mode
        return count)
      (Exactly content.length
        { sides with files := sides.files.set (place here path) (.file content mode) }
        [.session session (.download (pathTo top) path transfer)]) := by
  refine (faithful.achieves_download transfer named stands opens).bind ?_
  rintro _ _ _ ⟨rfl, ⟨arrived, rfl⟩, rfl⟩
  let arrival : Sides :=
    { sides with files := sides.files.set (place here path) (.file content arrived) }
  have leads : LeadsTo here arrival.files path (.file content arrived) :=
    ⟨nonempty, opens.noNul, opens.through.set opens.vacant _, Layout.set_self .., fun _ => opens.ends⟩
  have changed := faithful.achieves_setLocalMode leads bits
  rw [Layout.set_set] at changed
  refine changed.andThen ((achieves_pure _).mono ?_)
  rintro _ _ _ ⟨rfl, rfl, rfl⟩
  exact ⟨rfl, rfl, rfl⟩

/-- A file is fetched by one request to the session, between two to the machine. -/
theorem achieves_downloadFile {content : Bytes} {mode : Nat}
    (fetchable : Fetchable here sides above name (.file content mode) directory) {metadata : Metadata}
    (describes : metadata.Describes (.file content mode)) :
    Achieves behaviour sees sides
      (downloadFile session (pathTo (above ++ [name.toList])) metadata directory)
      (Exactly (Tree.file content mode).size (fetched here sides (.file content mode) directory name)
        (fetchRequests session (pathTo (above ++ [name.toList])) directory (.file content mode))) := by
  obtain rfl : metadata = _ := describes
  have bits : (if mode = 0 then fallbackMode else mode) < 0o10000 := by
    split
    · decide
    · exact fetchable.proper.bits
  let opened : Sides := { sides with files := sides.files.withDirectories (visited here directory) }
  have made : opened.files.Made (visited here directory) := Layout.made_withDirectories fetchable.free
  have stands : opened.remote (above ++ [name.toList]) = some (.file content mode) :=
    fetchable.stands.here
  have opens : Opens here opened.files (LocalPath.join directory name) :=
    ⟨fetchable.noNul_target, made_dropLast_join fetchable.entry.toIsName made,
      fetchable.admits_target.vacant rfl, LocalPath.endsInName_join fetchable.entry.toIsName⟩
  have paves : Paves here sides.files directory :=
    ⟨fetchable.noNul, fetchable.starts, fetchable.free, fetchable.dotted rfl⟩
  have arrives (transfer : Transfer) := achieves_downloadThenSetMode faithful transfer
    fetchable.named_source stands opens (LocalPath.join_ne_empty fetchable.entry.toIsName) bits
  unfold downloadFile
  dsimp only
  rw [fetchable.baseName_eq]
  refine (faithful.achieves_makeLocalDirectories paves).andThen
    ((faithful.achieves_report _).andThen ((arrives _).mono ?_))
  rintro _ _ _ ⟨rfl, rfl, rfl⟩
  refine ⟨?_, ?_, ?_⟩
  · rw [Tree.size]
  · rw [fetched, Tree.seen_file, landed, ← fetchable.place_eq]
  · rw [fetchRequests, fetchable.baseName_eq]
    rfl

theorem achieves_fetchEntry {depth : Nat}
    (fetchable : Fetchable here sides above name tree directory)
    (inner : ∀ entries, tree = .directory entries → Fetches behaviour sees session here depth entries) :
    Achieves behaviour sees sides
      (fetchEntry session depth (pathTo above) directory { name, isDirectory := tree.isDirectory })
      (Exactly tree.size (fetched here sides tree directory name)
        (entryRequests session (pathTo above) directory (name, tree))) := by
  have path : RemotePath.join (pathTo above) name = pathTo (above ++ [name.toList]) :=
    RemotePath.join_pathTo (fun part member => (fetchable.named part member).toIsName)
      fetchable.entry.toIsName
  unfold fetchEntry entryRequests
  dsimp only
  rw [path]
  cases tree with
  | file content mode =>
    refine (faithful.achieves_stat fetchable.named_source fetchable.stands.here).bind ?_
    rintro metadata _ _ ⟨describes, rfl, rfl⟩
    refine (achieves_downloadFile faithful fetchable describes).mono ?_
    rintro _ _ _ ⟨rfl, rfl, rfl⟩
    exact ⟨rfl, rfl, rfl⟩
  | directory entries => exact inner entries rfl _ _ _ _ fetchable

/-- The entries of a directory are fetched one after the other, if these can be fetched. -/
theorem achieves_fetchEntries {depth : Nat} {entries : List (String × Tree)}
    (fetchable : Fetchable here sides above name (.directory entries) directory)
    (inner : ∀ entry ∈ entries, ∀ nested, entry.2 = .directory nested →
      Fetches behaviour sees session here depth nested) :
    let source := pathTo (above ++ [name.toList])
    let target := LocalPath.join directory name
    Achieves behaviour sees
      { sides with files := sides.files.withDirectories (visited here target) }
      (Attempt.total (fetchEntry session depth source target) (Tree.listing entries))
      (Exactly (Tree.directory entries).size (fetched here sides (.directory entries) directory name)
        (entries.flatMap (entryRequests session source target))) := by
  intro source target
  have element : ∀ now first rest, Fetching here sides entries target now (first :: rest) →
      Achieves behaviour sees now (fetchEntry session depth source target
          { name := first.1, isDirectory := first.2.isDirectory })
        (Exactly first.2.size (entryFetched (place here target) now first)
          (entryRequests session source target first)) ∧
        Fetching here sides entries target (entryFetched (place here target) now first) rest := by
    intro now first rest fetching
    obtain ⟨possible, leaves⟩ := fetchable.ofEntry fetching
    have member := fetching.among first (List.mem_cons_self ..)
    have fetches := achieves_fetchEntry faithful possible (inner first member)
    rw [leaves] at fetches
    exact ⟨fetches, fetching.next⟩
  rw [Tree.listing, total_map]
  refine (achieves_total element entries (.start fetchable)).mono ?_
  rintro _ _ _ ⟨rfl, rfl, rfl⟩
  refine ⟨?_, ?_, rfl⟩
  · rw [Tree.size]
  · rw [foldl_entryFetched, fetched, ← fetchable.place_eq, fetchable.visited_eq,
      ← Tree.foldl_graft fetchable.free fetchable.admits_target rfl
        (Tree.distinct_of_ordered fetchable.proper.ordered)]

/-- A directory is fetched by making it and fetching its entries, if these can be fetched. -/
theorem achieves_downloadDirectory {depth : Nat} {entries : List (String × Tree)}
    (inner : ∀ entry ∈ entries, ∀ nested, entry.2 = .directory nested →
      Fetches behaviour sees session here depth nested) :
    Fetches behaviour sees session here (depth + 1) entries := by
  intro sides above name directory fetchable
  let target := LocalPath.join directory name
  let opened : Sides := { sides with files := sides.files.withDirectories (visited here target) }
  have paves : Paves here sides.files target := by
    refine ⟨fetchable.noNul_target, ?_, ?_, ?_⟩
    · rw [LocalPath.start_join fetchable.entry.toIsName]
      exact fetchable.starts
    · rw [fetchable.visited_eq]
      exact fetchable.free.append (fetchable.admits_target.free rfl).of_withDirectories
    · exact fun dotted => absurd dotted (LocalPath.not_endsInDot_join fetchable.entry.toIsName)
  have stands : (Tree.directory entries).StandsAt opened.remote (above ++ [name.toList]) :=
    fetchable.stands
  have lists := faithful.achieves_list fetchable.named_source stands fetchable.proper.ordered
  unfold downloadDirectory
  dsimp only
  rw [fetchable.baseName_eq]
  refine (faithful.achieves_makeLocalDirectories paves).andThen (lists.bind ?_)
  rintro listed _ _ ⟨same, rfl, rfl⟩
  rw [same]
  refine (achieves_fetchEntries faithful fetchable inner).mono ?_
  rintro _ _ _ ⟨rfl, rfl, rfl⟩
  refine ⟨rfl, rfl, ?_⟩
  rw [fetchRequests, fetchable.baseName_eq]
  rfl

/-- Entries that can be fetched are fetched, if they are not nested too deep. -/
theorem fetches_of_fitsIn {depth : Nat} {entries : List (String × Tree)}
    (fits : (Tree.directory entries).FitsIn depth) :
    Fetches behaviour sees session here depth entries := by
  induction depth generalizing entries with
  | zero => exact fits.elim
  | succ depth ih =>
    refine achieves_downloadDirectory faithful fun entry member nested same => ih ?_
    exact same ▸ fits entry member

/-- A tree that can be fetched is fetched, if it is not nested too deep. -/
theorem achieves_download {depth : Nat} (fits : tree.FitsIn depth)
    (fetchable : Fetchable here sides above name tree directory) :
    Achieves behaviour sees sides (download depth session (pathTo (above ++ [name.toList])) directory)
      (Exactly tree.size (fetched here sides tree directory name)
        (downloadRequests session (pathTo (above ++ [name.toList])) directory tree)) := by
  refine (faithful.achieves_stat fetchable.named_source fetchable.stands.here).bind ?_
  rintro metadata _ _ ⟨describes, rfl, rfl⟩
  rw [describes.isDirectory_eq]
  cases tree with
  | file content mode =>
    refine (achieves_downloadFile faithful fetchable describes).mono ?_
    rintro _ _ _ ⟨rfl, rfl, rfl⟩
    exact ⟨rfl, rfl, rfl⟩
  | directory entries =>
    refine (fetches_of_fitsIn faithful fits _ _ _ _ fetchable).mono ?_
    rintro _ _ _ ⟨rfl, rfl, rfl⟩
    exact ⟨rfl, rfl, rfl⟩

end Download

/-- A source other than the root, a file or a directory of any depth and width, is fetched into a local
directory whole, unless it is a file and the directory is yet to be made and written with a dot at its end:
the download returns the sum of the sizes of all files; on the machine there is afterwards what was there,
the directories on the way, and the source under its name; on the host nothing changes; and the requests to
the session are those that the source itself calls for. -/
theorem download_mirrors {behaviour : Behaviour} {sees : Transcript → Sides} {session : SessionId}
    {here : Place} (faithful : Faithful behaviour sees session here) {past : Transcript} {depth : Nat}
    {source directory : String} {tree : Tree}
    (root : RemotePath.isAbsolute source.toList = true) (below : RemotePath.clean source ≠ "/")
    (sourceNoNul : Char.ofNat 0 ∉ source.toList) (noNul : Char.ofNat 0 ∉ directory.toList)
    (stands : tree.StandsAt (sees past).remote (RemotePath.parts source.toList))
    (proper : tree.Proper) (fits : tree.FitsIn depth)
    (starts : (sees past).files (start here directory) = some .directory)
    (free : (sees past).files.Free (visited here directory))
    (admits : ((sees past).files.withDirectories (visited here directory)).Admits
      (place here directory ++ [(RemotePath.baseName source).toList]) tree.at?)
    (dotted : tree.isDirectory = false → EndsInDot directory →
      (sees past).files (place here directory) = some .directory) :
    let run := (download depth session (RemotePath.clean source) directory).run.under behaviour past
    run.2 = .ok tree.size ∧
      (sees (past ++ run.1)).files = ((sees past).files.withDirectories (visited here directory)).graft
        (place here directory ++ [(RemotePath.baseName source).toList]) (tree.seen landed) ∧
      (sees (past ++ run.1)).remote = (sees past).remote ∧
      sessionRequests run.1 = downloadRequests session (RemotePath.clean source) directory tree := by
  obtain ⟨above, name, split⟩ : ∃ above, ∃ name : String,
      RemotePath.parts source.toList = above ++ [name.toList] := by
    rcases List.eq_nil_or_concat (RemotePath.parts source.toList) with empty | ⟨above, last, split⟩
    · exact absurd ((RemotePath.clean_eq_root_iff root).2 empty) below
    · exact ⟨above, String.ofList last, by rw [split, List.concat_eq_append, String.toList_ofList]⟩
  have entries : ∀ part ∈ above ++ [name.toList], IsEntry part := by
    intro part member
    rw [← split] at member
    have segment := RemotePath.mem_splitOn_of_mem_parts member
    exact ⟨RemotePath.parts_isName root part member,
      fun nul => sourceNoNul (Text.mem_of_mem_splitOn segment nul)⟩
  rw [RemotePath.baseName_of_parts split] at admits ⊢
  rw [split] at stands
  have fetchable : Fetchable here (sees past) above name tree directory :=
    ⟨stands, fun part member => entries part (List.mem_append_left _ member), entries _ (by simp),
      proper, noNul, starts, free, dotted, Tree.admits_seen isDirectory_landed admits⟩
  obtain ⟨_, returned, rfl, after, requests⟩ := achieves_download faithful fits fetchable past rfl
  rw [← split, ← RemotePath.clean_eq_pathTo root] at returned after requests
  refine ⟨returned, ?_, ?_, requests⟩
  · rw [after, fetched]
  · rw [after, fetched]

/-- The sample is fetched to a directory that is not there yet. -/
theorem download_mirrors_sample :
    let sees := bothSides.sees [['w']]
    let logs := [['w'], "logs".toList]
    let run := (download 2 0 (RemotePath.clean "/d") "logs").run.under (bothSides.behaviour [['w']]) []
    run.2 = .ok 3 ∧
      (sees run.1).files = ((sees []).files.withDirectories [[['w']], logs]).graft
        (logs ++ ["d".toList]) (sample.seen landed) ∧
      (sees run.1).remote = (sees []).remote ∧
      sessionRequests run.1 = downloadRequests 0 (RemotePath.clean "/d") "logs" sample := by
  have size : sample.size = 3 := by simp [sample, Tree.size]
  have stands : sample.StandsAt (bothSides.sees [['w']] []).remote (RemotePath.parts "/d".toList) :=
    Table.standsAt_ofTree proper_sample (by decide)
  have absent (rest : Place) :
      (bothSides.sees [['w']] []).files (['w'] :: "logs".toList :: rest) = none := by
    have apart : ¬ [['w'], ['d']] <+: ['w'] :: "logs".toList :: rest := by simp
    exact Table.layout_append_ofTree [([], .directory), ([['w']], .directory)] apart
  have visits : visited [['w']] "logs" = [[['w']], [['w'], "logs".toList]] := by decide
  have free : (bothSides.sees [['w']] []).files.Free (visited [['w']] "logs") := by
    rw [visits]
    refine List.forall_mem_cons.2 ⟨fun standing stands => (Option.some.inj stands).symm, ?_⟩
    refine List.forall_mem_singleton.2 fun standing stands => ?_
    rw [absent []] at stands
    cases stands
  have admits : ((bothSides.sees [['w']] []).files.withDirectories (visited [['w']] "logs")).Admits
      (place [['w']] "logs" ++ [(RemotePath.baseName "/d").toList]) sample.at? := by
    have target : place [['w']] "logs" ++ [(RemotePath.baseName "/d").toList] =
        [['w'], "logs".toList, ['d']] := by decide
    intro rest coming there _ stands
    rw [target, visits, Layout.withDirectories_apply_of_not_mem (by simp)] at stands
    rw [List.cons_append, List.cons_append, absent] at stands
    cases stands
  rw [← size]
  exact download_mirrors (bothSides.faithful [['w']] 0) (by decide) (by decide) (by decide) (by decide)
    stands proper_sample (by simp [sample, Tree.FitsIn]) rfl free admits (fun file => by cases file)

def bare : Machine := { files := { nodes := [("/", .directory 0o755)] }, directory := "/" }

theorem locate_logs_dot (follow : Bool) : bare.locate "logs/." follow = .error .noEntry := by
  have missing : bare.files.get? (Files.child "/" "logs") = none := by decide
  change (if _ then _ else if _ then _ else
    Machine.walk bare.files follow Machine.linkLimit "/" ["logs", "."]) = _
  rw [if_neg (by decide), if_neg (by decide), Machine.walk, if_neg (by decide)]
  · dsimp only
    rw [missing]
    rfl
  all_goals simp

/-- A directory is not made under a name that ends in a dot. -/
theorem makeDirectories_logs_dot : bare.makeDirectories "logs/." = .error .noEntry := by
  have above : LocalPath.parent "logs/." = some "" := by decide
  have refused : bare.makeDirectory "logs/." = .error .noEntry := by
    rw [Machine.makeDirectory, locate_logs_dot]
  have absent : bare.isDirectory "logs/." = false := by
    rw [Machine.isDirectory, Machine.node, locate_logs_dot]
  have nothing (depth : Nat) : bare.makeDirectoriesWithin depth "" = .ok bare := by
    unfold Machine.makeDirectoriesWithin
    rfl
  have length : "logs/.".length = 5 + 1 := by decide
  rw [Machine.makeDirectories, length]
  unfold Machine.makeDirectoriesWithin
  rw [if_neg (by decide), refused, above]
  simp [nothing, refused, absent]

/-- Nothing is in the way of a file, and it is not fetched, as its directory is written with a dot at the
end. -/
theorem dotted_download_fails :
    let world : Rehearsal.World :=
      { remote := { nodes := [("/", .directory 0o755), ("/a", .file [1] 0o644)] }
        home := "/"
        machine := bare
        sessions := ["host"] }
    (world.carryOut (download 1 0 "/a" "logs/.").run).1 = .error (.localNotFound "logs/.") := by
  intro world
  let asked := world.note (.called (.stat "/a"))
  have refused : (asked.answer (.machine (.makeDirectories "logs/."))).2 =
      (.error (.os .noEntry) : Except IoError Unit) := by
    change (bare.changed (Machine.forPath "logs/." (bare.makeDirectories "logs/."))).2 = _
    rw [makeDirectories_logs_dot]
    rfl
  let answer := asked.answer (.machine (.makeDirectories "logs/."))
  change (answer.1.carryOut (ExceptT.bindCont _
    (Except.mapError (TransferError.onLocal "logs/.") answer.2))).1 = _
  rw [refused]
  rfl

end Rollout.Deployment

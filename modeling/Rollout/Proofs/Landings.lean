import Mathlib
import Rollout.Proofs.CleanPaths
import Rollout.Proofs.Trees

/-!
# Where an uploaded directory lands

A directory lands on the host under the last segment of the path that names it. Where no links are on the
machine that is the directory's own name, if the path ends in a name at all. A path that ends in `..` has no
last name, so its whole text takes the place of one: the directory lands under its own name only if the
text happens to lead there.
-/

namespace Rollout

open Rollout.Text
open RemotePath (pathTo)

namespace LocalPath

variable {place : Place} {segment : List Char}

theorem enter_named (named : ∀ part ∈ place, IsName part) (counted : counts segment = true)
    (single : '/' ∉ segment) : ∀ part ∈ enter place segment, IsName part := by
  unfold enter
  split
  · exact named
  next notHere =>
    split
    · exact fun part member => named part (List.mem_of_mem_dropLast member)
    next notAbove =>
      have nonempty : segment ≠ [] := by
        rintro rfl
        simp [counts] at counted
      refine List.forall_mem_append.2 ⟨named, List.forall_mem_singleton.2 ?_⟩
      exact ⟨nonempty, notHere, notAbove, single⟩

/-- An absolute path has all segments that count as components. -/
theorem components_absolute {path : String} (absolute : isAbsolute path = true) :
    components path = (splitOn '/' path.toList).filter counts := by
  obtain ⟨rest, text⟩ := List.head?_eq_some_iff.1 (by simpa [isAbsolute] using absolute)
  rw [components_eq, text, splitOn, if_pos rfl, kept, if_neg (by simp)]

/-- What is joined to an absolute path is absolute. -/
theorem isAbsolute_join {base : String} (absolute : isAbsolute base = true) (path : String) :
    isAbsolute (join base path) = true := by
  obtain ⟨rest, text⟩ := List.head?_eq_some_iff.1 (by simpa [isAbsolute] using absolute)
  unfold join
  split
  next whole =>
    rcases Bool.or_eq_true_iff.1 whole with rooted | empty
    · exact rooted
    · rw [String.isEmpty_iff.1 empty] at text
      cases text
  next =>
    split
    · simp [isAbsolute, text]
    · simp [isAbsolute, text]

end LocalPath

namespace Machine

variable {files : Files} {follow : Bool} {links : Nat} {found : Place} {top : Rollout.Place}
  {segments : List (List Char)}

/-- A name leads to the entry of that name, and there the walk goes on, unless only slashes are left. -/
theorem walk_name {segment : List Char} (plain : files.Plain) (named : ∀ part ∈ top, IsName part)
    (nonempty : segment ≠ []) (notHere : segment ≠ ['.']) (notAbove : segment ≠ ['.', '.'])
    (leads : walk files follow links (pathTo top) ((segment :: segments).map String.ofList) = .ok found) :
    (found.path = pathTo (top ++ [segment]) ∧ ∀ part ∈ segments, part = []) ∨
      walk files follow links (pathTo (top ++ [segment])) (segments.map String.ofList) = .ok found := by
  have text {other : List Char} (different : segment ≠ other) :
      String.ofList segment ≠ String.ofList other :=
    fun same => different (String.ofList_injective same)
  rw [List.map_cons, walk] at leads
  · rw [RemotePath.child_pathTo named] at leads
    split at leads
    · cases leads
    dsimp only at leads
    split at leads
    next =>
      -- Nothing is there, and nothing but slashes may follow.
      split at leads
      next last =>
        cases leads
        exact .inl ⟨rfl, by simp_all⟩
      next =>
        split at leads
        next slashes =>
          cases leads
          exact .inl ⟨rfl, by simpa using slashes⟩
        next => cases leads
    next => exact .inr leads
    next =>
      split at leads
      next last =>
        cases leads
        exact .inl ⟨rfl, by simp_all⟩
      next => cases leads
    next target there => exact absurd there (plain _ target)
  · exact text nonempty
  · exact text notHere
  · exact text notAbove

/-- Where there are no links, segments lead to the place that their texts say. -/
theorem walk_plain (plain : files.Plain) (named : ∀ part ∈ top, IsName part)
    (single : ∀ segment ∈ segments, '/' ∉ segment)
    (leads : walk files follow links (pathTo top) (segments.map String.ofList) = .ok found) :
    ∃ place, (∀ part ∈ place, IsName part) ∧ found.path = pathTo place ∧
      place = (segments.filter LocalPath.counts).foldl LocalPath.enter top := by
  induction segments generalizing top with
  | nil =>
    rw [List.map_nil, walk, Except.ok.injEq] at leads
    exact ⟨top, named, by rw [← leads], rfl⟩
  | cons segment rest ih =>
    obtain ⟨here, later⟩ := List.forall_mem_cons.1 single
    by_cases empty : segment = []
    · subst empty
      rw [List.map_cons, String.ofList_nil, walk] at leads
      exact ih named later leads
    by_cases dot : segment = ['.']
    · subst dot
      rw [List.map_cons, walk] at leads
      exact ih named later leads
    have counted : LocalPath.counts segment = true := by simp [LocalPath.counts, empty, dot]
    rw [List.filter_cons_of_pos counted, List.foldl_cons]
    have onward := LocalPath.enter_named named counted here
    by_cases above : segment = ['.', '.']
    · subst above
      rw [List.map_cons, walk, RemotePath.parent_pathTo_dropLast named] at leads
      exact ih onward later leads
    have entered : LocalPath.enter top segment = top ++ [segment] := by
      rw [LocalPath.enter, if_neg dot, if_neg above]
    rcases walk_name plain named empty dot above leads with ⟨path, slashes⟩ | goesOn
    · have nothing : rest.filter LocalPath.counts = [] :=
        List.filter_eq_nil_iff.2 fun part member => by simp [slashes part member, LocalPath.counts]
      exact ⟨_, onward, by rw [path, entered], by rw [nothing]; rfl⟩
    · rw [← entered] at goesOn
      exact ih onward later goesOn

/-- Where there are no links, an absolute path leads to the place that its text says. -/
theorem place_of_locate {machine : Machine} {path : String} (plain : machine.files.Plain)
    (absolute : LocalPath.isAbsolute path = true) (leads : machine.locate path = .ok found) :
    (∀ part ∈ LocalPath.place [] path, IsName part) ∧ found.path = pathTo (LocalPath.place [] path) := by
  unfold locate at leads
  split at leads
  · cases leads
  split at leads
  · cases leads
  have rooted : path.toList.head? = some '/' := by simpa [LocalPath.isAbsolute] using absolute
  rw [if_pos rooted] at leads
  have walked : walk machine.files true linkLimit (pathTo []) ((splitOn '/' path.toList).map String.ofList) =
      .ok found := leads
  obtain ⟨place, named, same, rfl⟩ := walk_plain plain (by simp) (fun _ => not_mem_of_mem_splitOn) walked
  have whole : LocalPath.place [] path =
      ((splitOn '/' path.toList).filter LocalPath.counts).foldl LocalPath.enter [] := by
    rw [LocalPath.place, LocalPath.start, if_pos absolute, LocalPath.components_absolute absolute]
  rw [whole]
  exact ⟨named, same⟩

/-- The names that the machine lists are names of entries. -/
theorem isName_of_entries {machine : Machine} {path : String} {names : List String}
    (clean : machine.files.Clean) (listed : machine.entries path = .ok names) :
    ∀ name ∈ names, IsName name.toList := by
  unfold entries at listed
  split at listed
  · cases listed
  split at listed
  · cases listed
  · split at listed
    · cases listed
      intro name member
      obtain ⟨entry, among, rfl⟩ := List.mem_map.1 member
      exact clean.isName among
    · cases listed
  · cases listed

end Machine

namespace LocalPath

/-- Where a path ends in a name, the place that it leads to has that name. -/
theorem place_of_fileName {path base : String} (here : Place) (ends : fileName path = some base) :
    ∃ above, place here path = above ++ [base.toList] := by
  have named := (fileName_isName ends).1
  unfold fileName at ends
  cases last : (components path).getLast? with
  | none => simp [last] at ends
  | some segment =>
    simp only [last, Option.ite_none_left_eq_some, Option.some.injEq] at ends
    obtain ⟨_, rfl⟩ := ends
    obtain ⟨before, split⟩ := List.getLast?_eq_some_iff.1 last
    rw [String.toList_ofList] at named ⊢
    refine ⟨before.foldl enter (start here path), ?_⟩
    rw [place, split, List.foldl_append, List.foldl_cons, List.foldl_nil, enter_name named]

end LocalPath

namespace Deployment

/-- What the machine tells in a run, as long as nothing changes it. -/
def ToldBy (machine : Machine) : Exchange → Prop
  | ⟨.machine call, answer⟩ => answer = (machine.answer call).2.2
  | _ => True

/-- The call can bring something new to the place. -/
def SessionCall.CanMake (place : Place) : SessionCall → Prop
  | .makeDirectories path => place <+: RemotePath.parts path.toList
  | .upload _ target _ | .copy _ target => place = RemotePath.parts target.toList
  | .rename _ target => RemotePath.parts target.toList <+: place
  | .run .. | .capture .. => True
  | _ => False

/-- Whatever the request makes on the host is on the way to the top or at or below the landing. -/
def MakesWithin (top landing : Place) : Request → Prop
  | .session _ call => ∀ place, call.CanMake place → place <+: top ∨ landing <+: place
  | _ => True

/-- However deep the directories are nested and whatever the host answers, an upload makes nothing on the host
but what is on the way to the destination, and what is at or below the landing. -/
def LandsWithin (machine : Machine) (source directory : String) (landing : Place) : Prop :=
  ∀ depth session transcript result,
    (upload depth session source directory).run.Yields transcript result →
    (∀ exchange ∈ transcript, ToldBy machine exchange) →
    ∀ exchange ∈ transcript, MakesWithin (RemotePath.parts directory.toList) landing exchange.request

variable {machine : Machine} {session : SessionId} {source directory : String} {top landing : Place}
  {name : List Char}

/-- A directory at or below the landing can be made: what is above the landing is on the way to the top. -/
theorem makesWithin_makeDirectories {path : String} (inside : top ++ [name] <+: RemotePath.parts path.toList) :
    MakesWithin top (top ++ [name]) (.session session (.makeDirectories path)) := by
  intro place onWay
  rcases List.prefix_or_prefix_of_prefix onWay inside with short | long
  · rcases List.prefix_concat_iff.1 short with rfl | above
    · exact .inr (List.prefix_refl _)
    · exact .inl above
  · exact .inr long

/-- What the machine says, and nothing made apart from the landing. -/
def landingTerms (machine : Machine) (top landing : Place) : Attempt.Terms TransferError :=
  transferTerms (ToldBy machine) (MakesWithin top landing)

/-- What is asked of the machine comes back as the machine tells it. -/
theorem lands_asking {α : Type} {path : String} {call : MachineCall} {read : call.Answer → Except IoError α}
    (blamed : ∀ answer error, read answer = .error error →
      TransferBlame ⟨.machine call, answer⟩ (.onLocal path error))
    (heard : ∀ answer, Exchange.Fails ⟨.machine call, answer⟩ → ∃ error, read answer = .error error := by
      rintro (_ | _) fails <;> first | exact ⟨_, rfl⟩ | exact fails.elim) :
    (Attempt.asking (TransferError.onLocal path)
        (.ask (.machine call) fun answer => .done (read answer))).Observes (landingTerms machine top landing)
      fun value => read (machine.answer call).2.2 = .ok value := by
  intro transcript result run told
  have keeps : (Attempt.asking (TransferError.onLocal path)
      (.ask (.machine call) fun answer => .done (read answer))).Observes (landingTerms machine top landing)
      fun _ => True := Attempt.observes_asking trivial blamed heard
  obtain ⟨asked, ends, heeded⟩ := keeps transcript result run told
  refine ⟨asked, ?_, heeded⟩
  obtain ⟨inner, ran, rfl⟩ := Attempt.yields_asking_iff.1 run
  cases inner with
  | error error => exact ends
  | ok value =>
    cases ran with
    | ask answer rest =>
      obtain rfl : answer = (machine.answer call).2.2 := told _ (List.mem_cons_self ..)
      exact (Dialogue.yields_pure_iff.1 rest).2.symm

theorem lands_uploadFile (metadata : Metadata) (root : RemotePath.isAbsolute directory.toList = true)
    (inside : top ++ [name] <+: RemotePath.parts directory.toList)
    (named : IsName (LocalPath.baseName source).toList) :
    (uploadFile session source metadata directory).Observes (landingTerms machine top (top ++ [name]))
      fun _ => True := by
  unfold uploadFile
  obtain ⟨_, parts⟩ := RemotePath.join_name root named
  have sends (transfer : Transfer) : MakesWithin top (top ++ [name]) (.session session
      (.upload source (RemotePath.join directory (LocalPath.baseName source)) transfer)) := by
    rintro place rfl
    rw [parts]
    exact .inr (inside.trans (List.prefix_append ..))
  refine (observes_remotely (makesWithin_makeDirectories inside) fun _ _ => trivial).andThen fun _ => ?_
  refine (Attempt.observes_report trivial).andThen fun _ => ?_
  refine (observes_remotely (sends _) fun _ _ => trivial).andThen fun _ => ?_
  refine (observes_remotely (fun _ => nofun) fun _ _ => trivial).andThen fun _ => ?_
  exact Attempt.observes_pure trivial

theorem lands_localMetadata (path : String) :
    (localMetadata path).Observes (landingTerms machine top landing)
      fun metadata => (machine.answer (.metadata path)).2.2 = .ok metadata :=
  lands_asking fun _ error failed => failed ▸ .metadata path error

theorem lands_localEntries (clean : machine.files.Clean) (path : String) :
    (localEntries path).Observes (landingTerms machine top landing)
      fun names => ∀ name ∈ names, IsName name.toList := by
  have listed : (Attempt.asking (TransferError.onLocal path)
      (Dialogue.request (.machine (.entries path)))).Observes (landingTerms machine top landing)
      fun names => (machine.answer (.entries path)).2.2 = .ok names :=
    lands_asking fun _ error failed => failed ▸ .entries path error
  refine listed.bind fun names told => Attempt.observes_pure fun name member => ?_
  have answered : Machine.forPath path (machine.entries path) = .ok names := told
  unfold Machine.forPath at answered
  split at answered
  · cases answered
  · cases entries : machine.entries path with
    | error error =>
      rw [entries] at answered
      cases answered
    | ok listed =>
      rw [entries] at answered
      cases answered
      exact Machine.isName_of_entries clean entries name (List.mem_mergeSort.1 member)

theorem lands_uploadDirectory (clean : machine.files.Clean) (depth : Nat)
    (root : RemotePath.isAbsolute directory.toList = true)
    (inside : top ++ [name] <+:
      RemotePath.parts (RemotePath.join directory (LocalPath.baseName source)).toList) :
    (uploadDirectory session depth source directory).Observes (landingTerms machine top (top ++ [name]))
      fun _ => True := by
  induction depth generalizing source directory with
  | zero => exact Attempt.observes_throw ⟨source, rfl⟩
  | succ depth ih =>
    unfold uploadDirectory
    have rooted : RemotePath.isAbsolute
        (RemotePath.join directory (LocalPath.baseName source)).toList = true :=
      RemotePath.rooted_iff.1 (RemotePath.isClean_join (RemotePath.rooted_iff.2 root) _).rooted
    refine (observes_remotely (makesWithin_makeDirectories inside) fun _ _ => trivial).andThen fun _ => ?_
    refine (lands_localEntries clean source).bind fun names named => ?_
    refine Attempt.observes_total fun entry member => ?_
    have base : LocalPath.baseName (LocalPath.join source entry) = entry :=
      LocalPath.baseName_join (named entry member)
    refine (lands_localMetadata _).andThen fun metadata => ?_
    split
    · refine ih rooted ?_
      rw [base, (RemotePath.join_name rooted (named entry member)).2]
      exact inside.trans (List.prefix_append ..)
    · exact lands_uploadFile metadata rooted inside (by rw [base]; exact named entry member)

theorem lands_upload (clean : machine.files.Clean) (depth : Nat)
    (root : RemotePath.isAbsolute directory.toList = true) {metadata : Metadata}
    (told : (machine.answer (.metadata source)).2.2 = .ok metadata)
    (isDirectory : metadata.isDirectory = true)
    (inside : top ++ [name] <+:
      RemotePath.parts (RemotePath.join directory (LocalPath.baseName source)).toList) :
    (upload depth session source directory).Observes (landingTerms machine top (top ++ [name]))
      fun _ => True := by
  unfold upload
  refine (lands_localMetadata source).bind fun found same => ?_
  obtain rfl : metadata = found := Except.ok.inj (told.symm.trans same)
  rw [if_pos isDirectory]
  exact lands_uploadDirectory clean depth root inside

theorem lands_of_inside (clean : machine.files.Clean) (root : RemotePath.isAbsolute directory.toList = true)
    {metadata : Metadata} (told : (machine.answer (.metadata source)).2.2 = .ok metadata)
    (isDirectory : metadata.isDirectory = true)
    (inside : RemotePath.parts directory.toList ++ [name] <+:
      RemotePath.parts (RemotePath.join directory (LocalPath.baseName source)).toList) :
    LandsWithin machine source directory (RemotePath.parts directory.toList ++ [name]) :=
  fun depth _ transcript result run honest =>
    (lands_upload clean depth root told isDirectory inside transcript result run honest).1

def machineAlone (machine : Machine) : Behaviour
  | _, .machine call => (machine.answer call).2.2
  | _, .session .. | _, .dial _ => .error (.io Session.nobodyToAsk)
  | _, .askPassword _ => .error Session.nobodyToAsk
  | _, .report _ => ()

theorem toldBy_machineAlone (machine : Machine) (past : Transcript) (request : Request) :
    ToldBy machine ⟨request, machineAlone machine past request⟩ := by
  cases request with
  | machine call => rfl
  | _ => trivial

/-- However an attempt has begun, it can go on as the machine answers. -/
theorem exists_onward {ε α β : Type} (machine : Machine) {attempt : Attempt ε α} {next : α → Attempt ε β}
    {first : Transcript} {value : α} (passed : attempt.run.Yields first (.ok value)) :
    ∃ second result, (attempt >>= next).run.Yields (first ++ second) result ∧
      ∀ exchange ∈ second, ToldBy machine exchange :=
  ⟨_, _, Attempt.yields_then passed (Dialogue.yields_under (machineAlone machine) [] _),
    Dialogue.forall_under (toldBy_machineAlone machine) _ _⟩

/-- What is sent as a directory is made at the place to which its last name leads, or its whole text. -/
theorem landing_made {landing : Place} {metadata : Metadata}
    (told : (machine.answer (.metadata source)).2.2 = .ok metadata)
    (isDirectory : metadata.isDirectory = true) (lands : LandsWithin machine source directory landing) :
    let target := RemotePath.parts (RemotePath.join directory (LocalPath.baseName source)).toList
    target <+: RemotePath.parts directory.toList ∨ landing <+: target := by
  intro target
  let made : Exchange :=
    ⟨.session 0 (.makeDirectories (RemotePath.join directory (LocalPath.baseName source))), .ok ()⟩
  obtain ⟨rest, result, sends, honest⟩ : ∃ rest result,
      (uploadDirectory 0 1 source directory).run.Yields ([made] ++ rest) result ∧
      ∀ exchange ∈ rest, ToldBy machine exchange := by
    unfold uploadDirectory
    exact exists_onward machine (Attempt.yields_failingAs_iff.2 ⟨.ok (), Attempt.yields_session_iff.2 rfl, rfl⟩)
  have run : (upload 1 0 source directory).run.Yields
      ([⟨.machine (.metadata source), .ok metadata⟩] ++ ([made] ++ rest)) result := by
    unfold upload
    refine Attempt.yields_then (Attempt.yields_answer rfl) ?_
    rwa [if_pos isDirectory]
  exact lands 1 0 _ result run
    (List.forall_mem_cons.2 ⟨told.symm, List.forall_mem_cons.2 ⟨trivial, honest⟩⟩) made (by simp) target
    (List.prefix_refl _)

/-- The directory that a path leads to is sent under its own name if the path ends in a name. If it does not,
its whole text is joined to the destination, and it is sent under its own name only if it happens to be below
there. -/
theorem upload_lands_under_name {working text : String} {metadata : Metadata} {found : Machine.Place}
    (plain : machine.files.Plain) (clean : machine.files.Clean)
    (absolute : LocalPath.isAbsolute working = true)
    (root : RemotePath.isAbsolute directory.toList = true)
    (told : (machine.answer (.metadata (LocalPath.join working text))).2.2 = .ok metadata)
    (isDirectory : metadata.isDirectory = true)
    (leads : machine.locate (LocalPath.join working text) = .ok found) :
    let source := LocalPath.join working text
    let landing := RemotePath.parts directory.toList ++ [(Files.name found.path).toList]
    (LocalPath.fileName source ≠ none → LandsWithin machine source directory landing ∧
      RemotePath.join directory (LocalPath.baseName source) = pathTo landing) ∧
    (LocalPath.fileName source = none →
      ¬ RemotePath.parts (RemotePath.join directory source).toList <+: RemotePath.parts directory.toList →
      (LandsWithin machine source directory landing ↔
        landing <+: RemotePath.parts (RemotePath.join directory source).toList)) := by
  intro source landing
  refine ⟨fun ends => ?_, fun nameless apart => ?_⟩
  · obtain ⟨base, ends⟩ := Option.ne_none_iff_exists'.1 ends
    have entry := (LocalPath.fileName_isName ends).1
    have own : LocalPath.baseName source = base := by rw [LocalPath.baseName, ends, Option.getD_some]
    have name : Files.name found.path = base := by
      obtain ⟨named, path⟩ := Machine.place_of_locate plain (LocalPath.isAbsolute_join absolute text) leads
      obtain ⟨above, place⟩ := LocalPath.place_of_fileName [] ends
      rw [place] at named path
      rw [path, RemotePath.name_pathTo named, String.ofList_toList]
    have target : RemotePath.parts (RemotePath.join directory base).toList = landing := by
      rw [(RemotePath.join_name root entry).2, ← name]
    rw [own]
    refine ⟨lands_of_inside clean root told isDirectory ?_, ?_⟩
    · rw [own, target]
    · rw [RemotePath.join_eq_pathTo root, target]
  · have own : LocalPath.baseName source = source := by rw [LocalPath.baseName, nameless, Option.getD_none]
    constructor
    · intro lands
      have made := landing_made told isDirectory lands
      rw [own] at made
      exact made.resolve_left apart
    · intro inside
      exact lands_of_inside clean root told isDirectory (by rwa [own])

section Examples

def nested : Machine where
  directory := "/"
  files := {
    nodes := [("/", .directory 0o755), ("/a", .directory 0o755), ("/a/b", .directory 0o755),
      ("/a/b/c", .directory 0o755), ("/a/b/f", .file [120] 0o644)] }

theorem nested_plain : nested.files.Plain :=
  Files.plain_of_nodes (by simp [nested])

theorem nested_clean : nested.files.Clean := by
  unfold Files.Clean nested
  decide

theorem told_of_metadata {path : String} {metadata : Metadata} (noNul : Char.ofNat 0 ∉ path.toList)
    (found : machine.metadata path = .ok metadata) :
    (machine.answer (.metadata path)).2.2 = .ok metadata := by
  change Machine.forPath path (machine.metadata path) = _
  rw [Machine.forPath, if_neg (by simpa using noNul), found]
  rfl

/-- A directory is sent under its own name, however the way to it is spelled. -/
theorem upload_lands_under_name_spelled :
    nested.files.Plain ∧ nested.files.Clean ∧ LocalPath.isAbsolute "/a" = true ∧
      RemotePath.isAbsolute "/up".toList = true ∧
      (nested.answer (.metadata (LocalPath.join "/a" "b/.././/b/."))).2.2 =
        .ok { isDirectory := true, size := 0, mode := 0o755 } ∧
      nested.locate (LocalPath.join "/a" "b/.././/b/.") = .ok { path := "/a/b" } ∧
      LocalPath.fileName (LocalPath.join "/a" "b/.././/b/.") ≠ none ∧
      LandsWithin nested (LocalPath.join "/a" "b/.././/b/.") "/up" ["up".toList, "b".toList] ∧
      RemotePath.join "/up" (LocalPath.baseName (LocalPath.join "/a" "b/.././/b/.")) = "/up/b" := by
  have text : LocalPath.join "/a" "b/.././/b/." = "/a/b/.././/b/." := by decide
  have leads : nested.locate "/a/b/.././/b/." = .ok { path := "/a/b" } := by cbv
  have found : nested.metadata "/a/b/.././/b/." = .ok { isDirectory := true, size := 0, mode := 0o755 } := by
    cbv
  have told := told_of_metadata (by decide) found
  have ends : LocalPath.fileName "/a/b/.././/b/." ≠ none := by decide
  rw [← text] at leads told ends
  have landing : RemotePath.parts "/up".toList ++ [(Files.name "/a/b").toList] = ["up".toList, "b".toList] := by
    decide
  have lands := upload_lands_under_name nested_plain nested_clean (by decide)
    (by decide : RemotePath.isAbsolute "/up".toList = true) told rfl leads
  rw [landing] at lands
  exact ⟨nested_plain, nested_clean, by decide, by decide, told, leads, ends,
    (lands.1 ends).1, (lands.1 ends).2.trans (by decide)⟩

/-- A directory whose path ends in two dots is made under the whole text of the path. -/
theorem upload_lands_under_text :
    nested.files.Plain ∧ nested.files.Clean ∧
      (nested.answer (.metadata "/a/b/c/..")).2.2 = .ok { isDirectory := true, size := 0, mode := 0o755 } ∧
      nested.locate "/a/b/c/.." = .ok { path := "/a/b" } ∧
      ¬ LandsWithin nested "/a/b/c/.." "/up" ["up".toList, "b".toList] := by
  have found : nested.metadata "/a/b/c/.." = .ok { isDirectory := true, size := 0, mode := 0o755 } := by cbv
  have told := told_of_metadata (by decide) found
  refine ⟨nested_plain, nested_clean, told, by cbv, fun lands => ?_⟩
  have made := landing_made told rfl lands
  have target : RemotePath.parts (RemotePath.join "/up" (LocalPath.baseName "/a/b/c/..")).toList =
      ["up".toList, "a".toList, "b".toList] := by decide
  rw [target] at made
  exact absurd made (by decide)

end Examples

end Deployment

end Rollout

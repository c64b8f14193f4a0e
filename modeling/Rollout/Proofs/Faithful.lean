import Mathlib.Data.List.Infix
import Mathlib.Data.List.Nodup
import Rollout.Deployment.Transfer
import Rollout.Proofs.Transcript
import Rollout.Proofs.Ways

/-!
# Both sides of a transfer

What a transfer counts on: the operator's machine and an open session answer as they are documented to, as
long as nothing stands in the way. Everything said so far decides what stands on both sides. A session
lists a directory in any order, and gives a file that arrives any mode, until it is told which.

`Achieves` states of an attempt, in a world like that, that it succeeds, with what value, with what on both
sides afterwards, and by which requests to sessions; there is a rule for each way in which attempts are put
together and for each request of a transfer.
-/

namespace Rollout.Deployment

open Rollout.LocalPath (visited place start EndsInName EndsInDot)
open Rollout.RemotePath (pathTo)

/-- What stands on the operator's machine and on the remote host. -/
structure Sides where
  files : Layout
  remote : Layout

/-- A path leads from a directory through directories to what stands at its end. A path to a file ends in
the file's name. -/
structure LeadsTo (here : Place) (layout : Layout) (path : String) (standing : Standing) : Prop where
  nonempty : path ≠ ""
  noNul : Char.ofNat 0 ∉ path.toList
  through : layout.Made (visited here path).dropLast
  stands : layout (place here path) = some standing
  ends : standing ≠ .directory → EndsInName path

section LeadsTo

variable {here : Place} {layout : Layout} {path name : String} {standing : Standing}

/-- All places on the way to a directory are directories, the last one too. -/
theorem LeadsTo.made (leads : LeadsTo here layout path .directory) : layout.Made (visited here path) := by
  intro other member
  rcases LocalPath.mem_visited_iff.1 member with within | rfl
  · exact leads.through other within
  · exact leads.stands

theorem made_dropLast_join (named : IsName name.toList) (made : layout.Made (visited here path)) :
    layout.Made (visited here (LocalPath.join path name)).dropLast := by
  rwa [LocalPath.visited_join named, List.dropLast_concat]

/-- From a directory a name leads to what stands under it. -/
theorem LeadsTo.join (leads : LeadsTo here layout path .directory) (named : IsEntry name.toList)
    (stands : layout (place here path ++ [name.toList]) = some standing) :
    LeadsTo here layout (LocalPath.join path name) standing where
  nonempty := LocalPath.join_ne_empty named.toIsName
  noNul := LocalPath.not_mem_join named.toIsName leads.noNul named.noNul (by decide)
  through := made_dropLast_join named.toIsName leads.made
  stands := by rwa [LocalPath.place_join named.toIsName]
  ends _ := LocalPath.endsInName_join named.toIsName

end LeadsTo

/-- A file can be written at the end of a path. -/
structure Opens (here : Place) (layout : Layout) (path : String) : Prop where
  noNul : Char.ofNat 0 ∉ path.toList
  through : layout.Made (visited here path).dropLast
  vacant : ∀ standing, layout (place here path) = some standing → standing ≠ .directory
  ends : EndsInName path

/-- The directories on a path can be made. If the path ends in a dot, they have to be there: a directory
is not made under that name. -/
structure Paves (here : Place) (layout : Layout) (path : String) : Prop where
  noNul : Char.ofNat 0 ∉ path.toList
  starts : layout (start here path) = some .directory
  free : layout.Free (visited here path)
  dotted : EndsInDot path → layout (place here path) = some .directory

/-- The metadata of what stands somewhere. A directory may have any size and mode. -/
def Metadata.Describes (metadata : Metadata) : Standing → Prop
  | .directory => metadata.isDirectory = true
  | .file content mode => metadata = { isDirectory := false, size := content.length, mode }

theorem Metadata.Describes.isDirectory_eq {metadata : Metadata} {standing : Standing}
    (describes : metadata.Describes standing) : metadata.isDirectory = standing.isDirectory := by
  cases standing with
  | directory => exact describes
  | file content mode => rw [show metadata = _ from describes]; rfl

/-- The names are those of what stands directly in a directory, each once, in any order. -/
def NamesIn (names : List String) (layout : Layout) (top : Place) : Prop :=
  names.Nodup ∧ ∀ name, name ∈ names ↔ (layout (top ++ [name.toList])).isSome = true

/-- The entries are those of a directory, each once, in any order. -/
def EntriesIn (entries : List Entry) (layout : Layout) (top : Place) : Prop :=
  (entries.map Entry.name).Nodup ∧ ∀ entry, entry ∈ entries ↔
    ∃ standing, layout (top ++ [entry.name.toList]) = some standing ∧
      entry.isDirectory = standing.isDirectory

section World

variable (behaviour : Behaviour) (sees : Transcript → Sides)

/-- After all that was said the request gets the answer, and this is what stands on both sides then. -/
def Gives (past : Transcript) (request : Request) (answer : request.Answer) (after : Sides) : Prop :=
  behaviour past request = answer ∧ sees (past ++ [⟨request, answer⟩]) = after

/-- A world in which the machine, seen from a directory, and a session do as they are documented to. -/
structure Faithful (session : SessionId) (here : Place) : Prop where
  report (past : Transcript) (report : Report) :
    Gives behaviour sees past (.report report) () (sees past)
  metadata {past : Transcript} {path : String} {standing : Standing}
    (leads : LeadsTo here (sees past).files path standing) :
    ∃ metadata : Metadata, metadata.Describes standing ∧
      Gives behaviour sees past (.machine (.metadata path)) (.ok metadata) (sees past)
  entries {past : Transcript} {path : String} (leads : LeadsTo here (sees past).files path .directory) :
    ∃ names : List String, NamesIn names (sees past).files (place here path) ∧
      Gives behaviour sees past (.machine (.entries path)) (.ok names) (sees past)
  pave {past : Transcript} {path : String} (paves : Paves here (sees past).files path) :
    Gives behaviour sees past (.machine (.makeDirectories path)) (.ok ())
      { sees past with files := (sees past).files.withDirectories (visited here path) }
  setMode {past : Transcript} {path : String} {content : Bytes} {old mode : Nat}
    (leads : LeadsTo here (sees past).files path (.file content old)) (bits : mode < 0o10000) :
    Gives behaviour sees past (.machine (.setMode path mode)) (.ok ())
      { sees past with files := (sees past).files.set (place here path) (.file content mode) }
  stat {past : Transcript} {top : Place} {standing : Standing} (named : ∀ part ∈ top, IsEntry part)
    (stands : (sees past).remote top = some standing) :
    ∃ metadata : Metadata, metadata.Describes standing ∧
      Gives behaviour sees past (.session session (.stat (pathTo top))) (.ok metadata) (sees past)
  list {past : Transcript} {top : Place} (named : ∀ part ∈ top, IsEntry part)
    (stands : (sees past).remote top = some .directory) :
    ∃ entries : List Entry, EntriesIn entries (sees past).remote top ∧
      Gives behaviour sees past (.session session (.list (pathTo top))) (.ok entries) (sees past)
  makeDirectories {past : Transcript} {top : Place} (named : ∀ part ∈ top, IsEntry part)
    (free : (sees past).remote.Free top.inits) :
    Gives behaviour sees past (.session session (.makeDirectories (pathTo top))) (.ok ())
      { sees past with remote := (sees past).remote.withDirectories top.inits }
  upload {past : Transcript} {path : String} {content : Bytes} {mode : Nat} {top : Place}
    {name : List Char} (transfer : Transfer)
    (leads : LeadsTo here (sees past).files path (.file content mode))
    (named : ∀ part ∈ top ++ [name], IsEntry part) (made : (sees past).remote.Made top.inits)
    (vacant : ∀ standing, (sees past).remote (top ++ [name]) = some standing → standing ≠ .directory) :
    ∃ arrived, Gives behaviour sees past
      (.session session (.upload path (pathTo (top ++ [name])) transfer)) (.ok content.length)
      { sees past with remote := (sees past).remote.set (top ++ [name]) (.file content arrived) }
  chmod {past : Transcript} {content : Bytes} {old mode : Nat} {top : Place}
    (named : ∀ part ∈ top, IsEntry part) (stands : (sees past).remote top = some (.file content old))
    (bits : mode < 0o10000) :
    Gives behaviour sees past (.session session (.chmod (pathTo top) mode)) (.ok ())
      { sees past with remote := (sees past).remote.set top (.file content mode) }
  download {past : Transcript} {path : String} {content : Bytes} {mode : Nat} {top : Place}
    (transfer : Transfer) (named : ∀ part ∈ top, IsEntry part)
    (stands : (sees past).remote top = some (.file content mode))
    (opens : Opens here (sees past).files path) :
    ∃ arrived, Gives behaviour sees past (.session session (.download (pathTo top) path transfer))
      (.ok content.length)
      { sees past with files := (sees past).files.set (place here path) (.file content arrived) }

/-- The requests to sessions, in the order in which they were made. -/
def sessionRequests (transcript : Transcript) : List Request :=
  (transcript.map Exchange.request).filter fun request =>
    match request with
    | .session .. => true
    | _ => false

theorem sessionRequests_append (first second : Transcript) :
    sessionRequests (first ++ second) = sessionRequests first ++ sessionRequests second := by
  simp [sessionRequests]

variable {ε ε' α β : Type}

/-- From what stands on both sides the attempt succeeds, and what is said of its value, of both sides
afterwards and of its requests to sessions holds. -/
def Achieves (before : Sides) (attempt : Attempt ε α)
    (post : α → Sides → List Request → Prop) : Prop :=
  ∀ past, sees past = before → ∃ value, (attempt.run.under behaviour past).2 = .ok value ∧
    post value (sees (past ++ (attempt.run.under behaviour past).1))
      (sessionRequests (attempt.run.under behaviour past).1)

/-- This value, this on both sides, and these requests. -/
def Exactly (value : α) (after : Sides) (requests : List Request) :
    α → Sides → List Request → Prop :=
  fun value' after' requests' => value' = value ∧ after' = after ∧ requests' = requests

end World

theorem Attempt.under_bind_of_ok {ε α β : Type} {behaviour : Behaviour} {past : Transcript}
    {attempt : Attempt ε α} {next : α → Attempt ε β} {value : α}
    (passed : (attempt.run.under behaviour past).2 = .ok value) :
    let first := attempt.run.under behaviour past
    let second := (next value).run.under behaviour (past ++ first.1)
    (attempt >>= next).run.under behaviour past = (first.1 ++ second.1, second.2) := by
  intro first second
  refine (Dialogue.under_bind behaviour past attempt.run (ExceptT.bindCont next)).trans ?_
  change (first.1 ++ (Dialogue.under _ _ (ExceptT.bindCont next first.2)).1,
    (Dialogue.under _ _ (ExceptT.bindCont next first.2)).2) = _
  rw [passed]
  rfl

section Rules

variable {behaviour : Behaviour} {sees : Transcript → Sides} {ε ε' α β : Type} {before : Sides}

theorem Achieves.mono {attempt : Attempt ε α} {post post' : α → Sides → List Request → Prop}
    (achieves : Achieves behaviour sees before attempt post)
    (weaker : ∀ value after requests, post value after requests → post' value after requests) :
    Achieves behaviour sees before attempt post' := by
  intro past now
  obtain ⟨value, returned, holds⟩ := achieves past now
  exact ⟨value, returned, weaker _ _ _ holds⟩

theorem achieves_pure (value : α) :
    Achieves behaviour sees before (pure value : Attempt ε α) (Exactly value before []) := by
  intro past now
  refine ⟨value, rfl, rfl, ?_, rfl⟩
  rw [← now]
  exact congrArg sees (List.append_nil past)

/-- The second attempt starts from what the first one leaves. -/
theorem Achieves.bind {attempt : Attempt ε α} {next : α → Attempt ε β}
    {middle : α → Sides → List Request → Prop} {post : β → Sides → List Request → Prop}
    (first : Achieves behaviour sees before attempt middle)
    (second : ∀ value between requests, middle value between requests →
      Achieves behaviour sees between (next value)
        fun value after more => post value after (requests ++ more)) :
    Achieves behaviour sees before (attempt >>= next) post := by
  intro past now
  obtain ⟨value, passed, holds⟩ := first past now
  obtain ⟨result, returned, ends⟩ := second _ _ _ holds _ rfl
  rw [Attempt.under_bind_of_ok passed]
  refine ⟨result, returned, ?_⟩
  rw [List.append_assoc] at ends
  rwa [sessionRequests_append]

/-- After an attempt of which all is known the next one is tried. -/
theorem Achieves.andThen {attempt : Attempt ε α} {next : α → Attempt ε β} {value : α} {between : Sides}
    {requests : List Request} {post : β → Sides → List Request → Prop}
    (first : Achieves behaviour sees before attempt (Exactly value between requests))
    (second : Achieves behaviour sees between (next value)
      fun value after more => post value after (requests ++ more)) :
    Achieves behaviour sees before (attempt >>= next) post := by
  refine first.bind ?_
  rintro _ _ _ ⟨rfl, rfl, rfl⟩
  exact second

/-- A request that is answered well. -/
theorem achieves_asking {wrap : ε' → ε} {request : Request} {read : request.Answer → Except ε' α}
    {post : α → Sides → List Request → Prop}
    (answers : ∀ past, sees past = before → ∃ answer after value,
      Gives behaviour sees past request answer after ∧ read answer = .ok value ∧
        post value after (sessionRequests [⟨request, answer⟩])) :
    Achieves behaviour sees before
      (Attempt.asking wrap (.ask request fun answer => .done (read answer))) post := by
  intro past now
  obtain ⟨answer, after, value, ⟨rfl, rfl⟩, reads, holds⟩ := answers past now
  refine ⟨value, ?_, holds⟩
  change (read _).mapError wrap = .ok value
  rw [reads]
  rfl

/-- The sum of what an attempt returns for each element, where each step is known and gets the rest
ready. -/
theorem achieves_total {attempt : β → Attempt ε Nat} {count : β → Nat} {step : Sides → β → Sides}
    {asked : β → List Request} {ready : Sides → List β → Prop}
    (element : ∀ sides first rest, ready sides (first :: rest) →
      Achieves behaviour sees sides (attempt first)
        (Exactly (count first) (step sides first) (asked first)) ∧ ready (step sides first) rest)
    (elements : List β) (starts : ready before elements) :
    Achieves behaviour sees before (Attempt.total attempt elements)
      (Exactly (elements.map count).sum (elements.foldl step before) (elements.flatMap asked)) := by
  induction elements generalizing before with
  | nil => exact achieves_pure 0
  | cons first rest ih =>
    obtain ⟨achieved, later⟩ := element before first rest starts
    refine achieved.andThen ((ih later).andThen ((achieves_pure _).mono ?_))
    rintro _ _ _ ⟨rfl, rfl, rfl⟩
    refine ⟨?_, rfl, ?_⟩
    · rw [List.map_cons, List.sum_cons]
    · rw [List.append_nil, List.flatMap_cons]

theorem total_map {γ : Type} (attempt : β → Attempt ε Nat) (read : γ → β) (elements : List γ) :
    Attempt.total attempt (elements.map read) =
      Attempt.total (fun element => attempt (read element)) elements := by
  induction elements with
  | nil => rfl
  | cons first rest ih => rw [List.map_cons, Attempt.total, Attempt.total, ih]

end Rules

/-- Sorting by keys that are all different comes to the one list in the order of the keys. -/
theorem mergeSort_eq_of_ordered {β : Type} (key : β → String) {listed sorted : List β}
    (once : (listed.map key).Nodup)
    (ordered : sorted.Pairwise fun first second => key first < key second)
    (same : ∀ element, element ∈ listed ↔ element ∈ sorted) :
    listed.mergeSort (fun first second => decide (key first ≤ key second)) = sorted := by
  have distinct : sorted.Nodup := ordered.imp fun less same => String.ne_of_lt less (congrArg key same)
  have perm : listed.Perm sorted :=
    (List.perm_ext_iff_of_nodup (List.Nodup.of_map key once) distinct).2 same
  let before (first second : β) : Bool := decide (key first ≤ key second)
  have sorts : (listed.mergeSort before).Pairwise fun first second => before first second = true :=
    List.pairwise_mergeSort (by simpa [before] using fun _ _ _ => String.le_trans)
      (by simpa [before] using fun _ _ => String.le_total _ _) listed
  refine List.Perm.eq_of_pairwise ?_ sorts
    (ordered.imp fun less => decide_eq_true (Std.le_of_lt less)) ((List.mergeSort_perm _ _).trans perm)
  intro first second among among' less more
  have keys : key first = key second :=
    String.le_antisymm (of_decide_eq_true less) (of_decide_eq_true more)
  exact List.inj_on_of_nodup_map once (List.mem_mergeSort.1 among) ((same second).2 among') keys

section Requests

variable {behaviour : Behaviour} {sees : Transcript → Sides} {session : SessionId} {here : Place}
  {before : Sides}

namespace Faithful

variable (faithful : Faithful behaviour sees session here)

include faithful

theorem achieves_report {ε : Type} (report : Report) :
    Achieves behaviour sees before (Attempt.report report : Attempt ε Unit) (Exactly () before []) := by
  intro past now
  refine ⟨(), rfl, rfl, ?_, rfl⟩
  exact (faithful.report past report).2.trans now

theorem achieves_localMetadata {path : String} {standing : Standing}
    (leads : LeadsTo here before.files path standing) :
    Achieves behaviour sees before (localMetadata path) fun metadata after requests =>
      metadata.Describes standing ∧ after = before ∧ requests = [] := by
  refine achieves_asking fun past now => ?_
  subst now
  obtain ⟨metadata, describes, gives⟩ := faithful.metadata leads
  exact ⟨_, _, metadata, gives, rfl, describes, rfl, rfl⟩

theorem achieves_makeLocalDirectories {path : String} (paves : Paves here before.files path) :
    Achieves behaviour sees before (makeLocalDirectories path) (Exactly ()
      { before with files := before.files.withDirectories (visited here path) } []) := by
  refine achieves_asking fun past now => ?_
  subst now
  exact ⟨_, _, (), faithful.pave paves, rfl, rfl, rfl, rfl⟩

theorem achieves_setLocalMode {path : String} {content : Bytes} {old mode : Nat}
    (leads : LeadsTo here before.files path (.file content old)) (bits : mode < 0o10000) :
    Achieves behaviour sees before (setLocalMode path mode) (Exactly ()
      { before with files := before.files.set (place here path) (.file content mode) } []) := by
  refine achieves_asking fun past now => ?_
  subst now
  exact ⟨_, _, (), faithful.setMode leads bits, rfl, rfl, rfl, rfl⟩

theorem achieves_localEntries {path : String} {entries : List (String × Tree)}
    (leads : LeadsTo here before.files path .directory)
    (stands : (Tree.directory entries).StandsAt before.files (place here path))
    (ordered : entries.Pairwise fun first second => first.1 < second.1) :
    Achieves behaviour sees before (localEntries path) (Exactly (entries.map Prod.fst) before []) := by
  have listed : Achieves behaviour sees before (Attempt.asking (TransferError.onLocal path)
      (Dialogue.request (.machine (.entries path)))) fun (names : List String) after requests =>
        NamesIn names before.files (place here path) ∧ after = before ∧ requests = [] := by
    refine achieves_asking fun past now => ?_
    subst now
    obtain ⟨names, within, gives⟩ := faithful.entries leads
    exact ⟨_, _, names, gives, rfl, within, rfl, rfl⟩
  refine listed.bind ?_
  rintro names _ _ ⟨⟨once, within⟩, rfl, rfl⟩
  have same : names.mergeSort (fun first second => decide (first ≤ second)) = entries.map Prod.fst := by
    refine mergeSort_eq_of_ordered id (by simpa using once) (List.pairwise_map.2 ordered) fun name => ?_
    exact (within name).trans (stands.mem_names_iff (Tree.distinct_of_ordered ordered)).symm
  rw [same]
  exact achieves_pure _

end Faithful

/-- A call of the session that is answered well. -/
theorem achieves_remotely {call : SessionCall} {post : call.Result → Sides → List Request → Prop}
    (answers : ∀ past, sees past = before → ∃ value after,
      Gives behaviour sees past (.session session call) (.ok value) after ∧
        post value after [.session session call]) :
    Achieves behaviour sees before (remotely session call) post := by
  refine achieves_asking fun past now => ?_
  obtain ⟨value, after, gives, holds⟩ := answers past now
  exact ⟨_, after, value, gives, rfl, holds⟩

/-- What a listing shows of the entries of a directory, in the order of their names. -/
def Tree.listing (entries : List (String × Tree)) : List Entry :=
  entries.map fun entry => { name := entry.1, isDirectory := entry.2.isDirectory }

namespace Faithful

variable (faithful : Faithful behaviour sees session here)

include faithful

theorem achieves_stat {top : Place} {standing : Standing} (named : ∀ part ∈ top, IsEntry part)
    (stands : before.remote top = some standing) :
    Achieves behaviour sees before (remotely session (.stat (pathTo top)))
      fun metadata after requests => metadata.Describes standing ∧ after = before ∧
        requests = [.session session (.stat (pathTo top))] := by
  refine achieves_remotely fun past now => ?_
  subst now
  obtain ⟨metadata, describes, gives⟩ := faithful.stat named stands
  exact ⟨metadata, _, gives, describes, rfl, rfl⟩

theorem achieves_list {top : Place} {entries : List (String × Tree)}
    (named : ∀ part ∈ top, IsEntry part)
    (stands : (Tree.directory entries).StandsAt before.remote top)
    (ordered : entries.Pairwise fun first second => first.1 < second.1) :
    Achieves behaviour sees before (remotely session (.list (pathTo top)))
      fun (listed : List Entry) after requests =>
        listed.mergeSort (fun first second => decide (first.name ≤ second.name)) =
            Tree.listing entries ∧
          after = before ∧ requests = [.session session (.list (pathTo top))] := by
  have distinct := Tree.distinct_of_ordered ordered
  refine achieves_remotely fun past now => ?_
  subst now
  obtain ⟨listed, ⟨once, within⟩, gives⟩ := faithful.list named stands.here
  refine ⟨listed, _, gives, ?_, rfl, rfl⟩
  refine mergeSort_eq_of_ordered Entry.name once (List.pairwise_map.2 ordered) fun entry => ?_
  rw [within, Tree.listing, List.mem_map]
  constructor
  · rintro ⟨standing, found, kind⟩
    obtain ⟨tree, member, rfl⟩ := (stands.child_iff distinct).1 found
    exact ⟨_, member, by rw [Tree.isDirectory, ← kind]⟩
  · rintro ⟨⟨_, tree⟩, member, rfl⟩
    exact ⟨_, (stands.child_iff distinct).2 ⟨tree, member, rfl⟩, rfl⟩

theorem achieves_makeDirectories {top : Place} (named : ∀ part ∈ top, IsEntry part)
    (free : before.remote.Free top.inits) :
    Achieves behaviour sees before (remotely session (.makeDirectories (pathTo top)))
      (Exactly () { before with remote := before.remote.withDirectories top.inits }
        [.session session (.makeDirectories (pathTo top))]) := by
  refine achieves_remotely fun past now => ?_
  subst now
  exact ⟨(), _, faithful.makeDirectories named free, rfl, rfl, rfl⟩

theorem achieves_upload {path : String} {content : Bytes} {mode : Nat} {top : Place}
    {name : List Char} (transfer : Transfer)
    (leads : LeadsTo here before.files path (.file content mode))
    (named : ∀ part ∈ top ++ [name], IsEntry part) (made : before.remote.Made top.inits)
    (vacant : ∀ standing, before.remote (top ++ [name]) = some standing → standing ≠ .directory) :
    Achieves behaviour sees before
      (remotely session (.upload path (pathTo (top ++ [name])) transfer))
      fun count after requests => count = content.length ∧
        (∃ arrived, after = { before with
          remote := before.remote.set (top ++ [name]) (.file content arrived) }) ∧
        requests = [.session session (.upload path (pathTo (top ++ [name])) transfer)] := by
  refine achieves_remotely fun past now => ?_
  subst now
  obtain ⟨arrived, gives⟩ := faithful.upload transfer leads named made vacant
  exact ⟨_, _, gives, rfl, ⟨arrived, rfl⟩, rfl⟩

theorem achieves_chmod {content : Bytes} {old mode : Nat} {top : Place}
    (named : ∀ part ∈ top, IsEntry part) (stands : before.remote top = some (.file content old))
    (bits : mode < 0o10000) :
    Achieves behaviour sees before (remotely session (.chmod (pathTo top) mode))
      (Exactly () { before with remote := before.remote.set top (.file content mode) }
        [.session session (.chmod (pathTo top) mode)]) := by
  refine achieves_remotely fun past now => ?_
  subst now
  exact ⟨(), _, faithful.chmod named stands bits, rfl, rfl, rfl⟩

theorem achieves_download {path : String} {content : Bytes} {mode : Nat} {top : Place}
    (transfer : Transfer) (named : ∀ part ∈ top, IsEntry part)
    (stands : before.remote top = some (.file content mode)) (opens : Opens here before.files path) :
    Achieves behaviour sees before (remotely session (.download (pathTo top) path transfer))
      fun count after requests => count = content.length ∧
        (∃ arrived, after = { before with
          files := before.files.set (place here path) (.file content arrived) }) ∧
        requests = [.session session (.download (pathTo top) path transfer)] := by
  refine achieves_remotely fun past now => ?_
  subst now
  obtain ⟨arrived, gives⟩ := faithful.download transfer named stands opens
  exact ⟨_, _, gives, rfl, ⟨arrived, rfl⟩, rfl⟩

end Faithful

end Requests

end Rollout.Deployment

import Rollout.Proofs.Download
import Rollout.Proofs.Fetching
import Rollout.Proofs.Trees

/-!
# Downloads entry by entry

A directory that is downloaded is made, and its entries are fetched into it. Each is fetched as it would be
by its own path, files and directories of any depth and links to files, but for one kind: a link to a
directory. The listing tells of the link, so it is fetched as a file, and that fails; named itself, it is
looked at with links followed, and is fetched as the directory that it leads to.
-/

namespace Rollout

open Rollout.Text
open RemotePath (pathTo IsClean)

namespace Sftp

variable {files : Files} {nesting : Nat} {directory place source name : String} {more : List String}

/-- Where links are followed to the end, a path is followed part by part. -/
theorem walk_append {first : List String} (leads : walk files true nesting directory first = .ok place)
    (more : List String) :
    walk files true nesting directory (first ++ more) = walk files true nesting place more := by
  generalize follows : true = follow at leads
  fun_induction walk files follow nesting directory first with
  | case1 =>
    cases leads
    rfl
  | case2 follow nesting directory rest ih =>
    rw [List.cons_append, walk]
    exact ih follows leads
  | case3 follow nesting directory name rest below path target there ends =>
    simp [← follows] at ends
  | case4 follow directory name rest below path target there goes => cases leads
  | case5 follow directory name rest below path target there goes nesting start status aims ih => cases leads
  | case6 follow directory name rest below path target there goes nesting start middle aims _ ih =>
    rw [List.cons_append, walk, there]
    · dsimp only
      rw [if_neg (by simp [← follows])]
      have aims' : walk files true nesting
        (if target.toList.head? = some '/' then "/" else directory) (segments target) = .ok middle := aims
      rw [aims']
      exact ih follows leads
    · simpa using below
  | case7 follow nesting directory name rest below path none ih =>
    rw [List.cons_append, walk]
    · cases here : files.get? path with
      | none => exact ih follows leads
      | some node =>
        cases node with
        | link target => exact absurd here (none target)
        | _ => exact ih follows leads
    · simpa using below

/-- An entry of a directory is found from the directory on. -/
theorem locate_join (isClean : IsClean source) (named : IsName name.toList)
    (leads : locate files true source = .ok place) :
    locate files true (RemotePath.join source name) = walk files true nestingLimit place [name] := by
  obtain ⟨above, names, rfl⟩ := isClean.exists_pathTo
  have inner : ∀ part ∈ above ++ [name.toList], IsName part :=
    List.forall_mem_append.2 ⟨names, by simpa using named⟩
  have onward := walk_append leads [name]
  rw [RemotePath.join_pathTo names named, locate, segments_pathTo inner, List.map_append,
    ← segments_pathTo names]
  simpa using onward

/-- An entry that is no link is found where it stands. -/
theorem find_entry {node : Node} (isClean : IsClean source) (named : IsName name.toList)
    (leads : locate files true source = .ok place)
    (there : files.get? (Files.child place name) = some node) (plain : ∀ target, node ≠ .link target) :
    find files true (RemotePath.join source name) = .ok (Files.child place name, node) := by
  refine find_eq_ok_iff.2 ⟨?_, there⟩
  have down : name ≠ ".." := by
    rintro rfl
    exact named.notAbove rfl
  rw [locate_join isClean named leads, walk, there]
  · cases node with
    | link target => exact absurd rfl (plain target)
    | _ => rw [walk]
  · exact down

end Sftp

namespace Ssh

open Rollout.Deployment (Attempt Belongs Dialogue Metadata Entry SessionId SessionCall downloadDirectory
  downloadFile fetchEntry makeLocalDirectories remotely reach reachTerms)

variable {α : Type} {session : SessionId} {host : Host}

/-- What a download asks for is fetched. -/
theorem onlyFetches_of_observes (session : SessionId) {attempt : Attempt Rollout.TransferError α}
    {returns : α → Prop}
    (observed : attempt.Observes
      (reachTerms (fun _ => True) { session := some session } (.download [] "")) returns) :
    OnlyFetches attempt.run := by
  intro transcript result run exchange member
  have asked := (observed transcript result run fun _ _ => trivial).asked exchange member
  obtain ⟨request, answer⟩ := exchange
  cases request with
  | session id call =>
    obtain ⟨_, own, _⟩ := asked
    cases call with
    | stat | list | download => trivial
    | _ => exact own.elim
  | machine call => trivial
  | report report => trivial
  | askPassword | dial => exact asked.elim

/-- What a look at a path, with links followed, comes to. -/
def Host.metadata? (host : Host) (path : String) : Except SessionError Metadata :=
  match host.look true path with
  | .ok attributes => .ok {
      isDirectory := attributes.isDirectory
      size := attributes.size.getD 0
      mode := (attributes.permissions.getD 0) &&& Sftp.modeMask }
  | .error status => .error (if status.error.isMissing then .notFound path else .ssh status.error)

theorem exchange_stat (world : World) (path : String) :
    world.exchange (stat path) = (world.note (.requested (.stat path)), world.host.metadata? path) := by
  unfold stat Exchange.naming Host.metadata?
  rw [Exchange.exchange_bind, Exchange.exchange_tryCatch, exchange_attributes]
  cases world.host.look true path with
  | ok attributes => rfl
  | error status =>
    dsimp only [Except.mapError]
    by_cases missing : status.error.isMissing = true
    · rw [if_pos missing, if_pos missing]
      rfl
    · rw [if_neg missing, if_neg missing]
      rfl

/-- What the listing of a directory tells of its entries. -/
def Host.listed (host : Host) (place : String) : List Entry :=
  (host.files.children place).reverse.map fun entry =>
    { name := Files.name entry.1, isDirectory := (host.attributes entry.1 entry.2).isDirectory }

/-- The server lists a directory with itself and the one above it; the rest are its entries. -/
theorem listed_eq {files : Files} (clean : files.Clean) (tell : String → Node → Sftp.Attributes)
    (place above : String) (mode : Nat) :
    (((".", place, Node.directory mode) :: ("..", above, Node.directory mode) ::
        (files.children place).reverse.map fun entry => (Files.name entry.1, entry.1, entry.2)).filter
          fun entry => entry.1 ≠ "." && entry.1 ≠ "..").map
        (fun entry => ({ name := entry.1, isDirectory := (tell entry.2.1 entry.2.2).isDirectory } : Entry)) =
      (files.children place).reverse.map fun entry =>
        ({ name := Files.name entry.1, isDirectory := (tell entry.1 entry.2).isDirectory } : Entry) := by
  rw [List.filter_cons_of_neg (by simp), List.filter_cons_of_neg (by simp), List.filter_eq_self.2, List.map_map]
  · rfl
  · intro entry member
    obtain ⟨child, among, rfl⟩ := List.mem_map.1 member
    have named := clean.isName (List.mem_reverse.1 among)
    have here : Files.name child.1 ≠ "." := fun same => named.notHere (by rw [same]; rfl)
    have above : Files.name child.1 ≠ ".." := fun same => named.notAbove (by rw [same]; rfl)
    simp [here, above]

def Host.listing? (host : Host) (path : String) : Except SessionError (List Entry) :=
  match host.fault? (.openDirectory path), Sftp.find host.files true path with
  | some status, _ | none, .error status => .error (.ssh status.error)
  | none, .ok (place, .directory _) => .ok (host.listed place)
  | none, .ok _ => .error (.ssh Sftp.Status.failure.error)

theorem exchange_list (world : World) (clean : world.host.files.Clean) (path : String) :
    world.exchange (list path) =
      (world.note (.requested (.openDirectory path)), world.host.listing? path) := by
  unfold list Host.listing?
  rw [Exchange.exchange_bind, exchange_request]
  cases world.host.fault? (.openDirectory path) with
  | some status => rfl
  | none =>
    dsimp only
    rw [exchange_get]
    have same : (world.note (.requested (.openDirectory path))).host = world.host := rfl
    rw [same, Exchange.exchange_bind, Sftp.list]
    cases Sftp.find world.host.files true path with
    | error status => rfl
    | ok found =>
      obtain ⟨place, node⟩ := found
      cases node with
      | directory mode =>
        change (world.note _, Except.ok _) = (world.note _, Except.ok _)
        rw [listed_eq clean]
        rfl
      | _ => rfl

theorem carryOut_remotely (world : World) (session : SessionId) (call : SessionCall) :
    world.carryOut (remotely session call).run =
      ((world.exchange (Ssh.call call)).2.mapError .remote, (world.exchange (Ssh.call call)).1) :=
  rfl

theorem passes_stat {path : String} {metadata : Metadata} (told : host.metadata? path = .ok metadata) :
    Passes host (remotely session (.stat path)) metadata := by
  intro world same
  refine ⟨.requested (.stat path) :: world.notes, ?_⟩
  rw [carryOut_remotely]
  change ((world.exchange (stat path)).2.mapError _, (world.exchange (stat path)).1) = _
  rw [exchange_stat, same, told]
  rfl

theorem passes_list {path : String} {entries : List Entry} (clean : host.files.Clean)
    (told : host.listing? path = .ok entries) : Passes host (remotely session (.list path)) entries := by
  rintro world rfl
  refine ⟨.requested (.openDirectory path) :: world.notes, ?_⟩
  rw [carryOut_remotely]
  change ((world.exchange (list path)).2.mapError _, (world.exchange (list path)).1) = _
  rw [exchange_list world clean, told]
  rfl

theorem metadata_of_returns {path : String} {metadata : Metadata}
    (returned : Returns host (remotely session (.stat path)) metadata) :
    host.metadata? path = .ok metadata := by
  obtain ⟨world, rfl, run⟩ := returned
  rw [carryOut_remotely] at run
  change (world.exchange (stat path)).2.mapError _ = _ at run
  rw [exchange_stat] at run
  cases told : world.host.metadata? path with
  | error error =>
    rw [told] at run
    cases run
  | ok found =>
    rw [told] at run
    cases run
    rfl

theorem listing_of_returns {path : String} {entries : List Entry} (clean : host.files.Clean)
    (returned : Returns host (remotely session (.list path)) entries) :
    host.listing? path = .ok entries := by
  obtain ⟨world, rfl, run⟩ := returned
  rw [carryOut_remotely] at run
  change (world.exchange (list path)).2.mapError _ = _ at run
  rw [exchange_list world clean] at run
  cases told : world.host.listing? path with
  | error error =>
    rw [told] at run
    cases run
  | ok found =>
    rw [told] at run
    cases run
    rfl

section Only

theorem onlyFetches_remotely {call : SessionCall} (own : Deployment.sessionCalls (.download [] "") call)
    (silent : call.directory? = none := by rfl) : OnlyFetches (remotely session call).run := by
  have belongs : Belongs (fun _ => True) { session := some session } (.download [] "") call :=
    ⟨own, fun _ _ => trivial, by simp [silent]⟩
  exact onlyFetches_of_observes session (Deployment.observes_remotely_reach rfl belongs)

theorem onlyFetches_report (report : Deployment.Report) :
    OnlyFetches (Attempt.report report : Attempt Rollout.TransferError Unit).run := by
  intro transcript result run
  obtain ⟨rfl, _⟩ := Attempt.yields_report_iff.1 run
  exact List.forall_mem_singleton.2 trivial

theorem onlyFetches_makeLocalDirectories (path : String) : OnlyFetches (makeLocalDirectories path).run :=
  onlyFetches_of_observes 0 (Deployment.observes_makeLocalDirectories trivial)

theorem onlyFetches_downloadFile (source directory : String) (metadata : Metadata) :
    OnlyFetches (downloadFile session source metadata directory).run :=
  onlyFetches_of_observes session (Deployment.observes_downloadFile rfl trivial metadata directory)

theorem onlyFetches_downloadDirectory (depth : Nat) (source directory : String) :
    OnlyFetches (downloadDirectory session depth source directory).run :=
  onlyFetches_of_observes session (Deployment.observes_downloadDirectory rfl (fun _ _ _ => trivial) depth trivial directory)

theorem onlyFetches_fetchEntry (depth : Nat) (source target : String) (entry : Entry) :
    OnlyFetches (fetchEntry session depth source target entry).run := by
  unfold fetchEntry
  dsimp only
  split
  · exact onlyFetches_downloadDirectory depth _ _
  · refine OnlyFetches.bind ?_ fun metadata => onlyFetches_downloadFile _ _ metadata
    exact onlyFetches_remotely trivial

end Only

section Entries

/-- The attributes of a directory tell of one, and no others do. -/
theorem Host.isDirectory_attributes {place : String} {node : Node}
    (told : (host.attributes place node).isDirectory = true) : ∃ mode, node = .directory mode := by
  unfold Host.attributes at told
  split at told
  · exact absurd told (by decide)
  · cases node with
    | directory mode => exact ⟨mode, rfl⟩
    | link target =>
      exact absurd told (show ¬ Sftp.Attributes.isDirectory { permissions := some _ } = true by decide)
    | file content mode =>
      have kind : (mode ||| Sftp.fileBits) &&& Sftp.kindMask = Sftp.directoryBits := of_decide_eq_true told
      -- The mark of a file is the fifteenth bit, which the mark of a directory has not.
      have bit := congrArg (Nat.testBit · 15) kind
      have marked : Sftp.fileBits.testBit 15 = true := by decide
      have unmarked : Sftp.directoryBits.testBit 15 = false := by decide
      rw [Nat.testBit_and, Nat.testBit_or, marked, unmarked, Bool.or_true] at bit
      exact absurd bit (by decide)

theorem succeeds_beforeTransfer {transfer : Deployment.Transfer} {exchange : Exchange α} {world after : World}
    {value : α} (run : (beforeTransfer transfer exchange).Succeeds world value after) :
    exchange.Succeeds world value after := by
  unfold Exchange.Succeeds beforeTransfer at run
  rw [Exchange.exchange_tryCatch] at run
  unfold Exchange.Succeeds
  generalize world.exchange exchange = done at run ⊢
  obtain ⟨between, error | found⟩ := done
  · cases run
  · exact run

/-- What is fetched can be read. -/
theorem succeeds_download {source target : String} {transfer : Deployment.Transfer} {world after : World}
    {count : Nat} (run : (download source target transfer).Succeeds world count after) :
    ∃ place, Sftp.openRead world.host.files source = .ok place := by
  obtain ⟨_, _, opening, _⟩ := Exchange.succeeds_bind_iff.1 run
  obtain ⟨place, _, opened, _⟩ := Exchange.succeeds_bind_iff.1 (succeeds_beforeTransfer opening)
  exact ⟨place, (succeeds_openRead opened).2⟩

/-- What a look tells of is what the path leads to. -/
theorem exists_of_metadata {path : String} {metadata : Metadata} (told : host.metadata? path = .ok metadata) :
    ∃ place node, Sftp.find host.files true path = .ok (place, node) ∧
      metadata.isDirectory = (host.attributes place node).isDirectory := by
  unfold Host.metadata? Host.look at told
  cases fault : host.fault? (.stat path) with
  | some status =>
    rw [if_pos rfl, fault] at told
    cases told
  | none =>
    rw [if_pos rfl, fault] at told
    cases found : Sftp.find host.files true path with
    | error status =>
      rw [found] at told
      cases told
    | ok result =>
      rw [found] at told
      cases told
      exact ⟨result.1, result.2, rfl, rfl⟩

/-- What is fetched as a file, though it is a directory that is looked at, cannot be read. -/
theorem fails_download {path : String} {metadata : Metadata} (told : host.metadata? path = .ok metadata)
    (isDirectory : metadata.isDirectory = true) (target : String) (transfer : Deployment.Transfer) :
    Fails host (remotely session (.download path target transfer)) := by
  rintro world rfl
  rw [carryOut_remotely]
  change ∃ error, (world.exchange (download path target transfer)).2.mapError _ = _
  rcases run : world.exchange (download path target transfer) with ⟨after, error | count⟩
  · exact ⟨_, rfl⟩
  · obtain ⟨place, opened⟩ := succeeds_download run
    obtain ⟨content, mode, file⟩ := Sftp.file_of_openRead opened
    obtain ⟨there, node, found, same⟩ := exists_of_metadata told
    rw [file] at found
    cases found
    rw [same] at isDirectory
    obtain ⟨_, impossible⟩ := Host.isDirectory_attributes isDirectory
    cases impossible

/-- A look at what is found tells of it. -/
theorem metadata_of_find {path place : String} {node : Node} (honest : host.fault? (.stat path) = none)
    (found : Sftp.find host.files true path = .ok (place, node)) :
    host.metadata? path = .ok {
      isDirectory := (host.attributes place node).isDirectory
      size := (host.attributes place node).size.getD 0
      mode := ((host.attributes place node).permissions.getD 0) &&& Sftp.modeMask } := by
  have look : host.look true path = .ok (host.attributes place node) := by
    unfold Host.look
    rw [if_pos rfl, honest, found]
    rfl
  rw [Host.metadata?, look]

variable {source place : String} {child : String × Node}

/-- The child of the directory is a link, and a look at its path tells of a directory. -/
def LinksDirectory (host : Host) (source : String) (child : String × Node) : Prop :=
  (∃ target, child.2 = .link target) ∧ ∃ metadata,
    host.metadata? (RemotePath.join source (Files.name child.1)) = .ok metadata ∧ metadata.isDirectory = true

/-- What the listing of a directory tells of a child. -/
def Host.tells (host : Host) (child : String × Node) : Entry :=
  { name := Files.name child.1, isDirectory := (host.attributes child.1 child.2).isDirectory }

/-- A child that is no link is found by its path. -/
theorem find_child (table : host.files.Table) (isClean : IsClean source)
    (leads : Sftp.locate host.files true source = .ok place) (member : child ∈ host.files.children place)
    (plain : ∀ target, child.2 ≠ .link target) :
    Sftp.find host.files true (RemotePath.join source (Files.name child.1)) = .ok child := by
  have there : host.files.get? (Files.child place (Files.name child.1)) = some child.2 := by
    rw [← Files.eq_child member]
    exact table.get?_of_mem (List.mem_filter.1 member).1
  rw [Sftp.find_entry isClean (table.clean.isName member) leads there plain, ← Files.eq_child member]

/-- A child that is no link is told of in the same way by the listing and by a look at its path. -/
theorem metadata_of_child (table : host.files.Table) (isClean : IsClean source)
    (leads : Sftp.locate host.files true source = .ok place) (member : child ∈ host.files.children place)
    (honest : ∀ path, host.fault? (.stat path) = none) (plain : ∀ target, child.2 ≠ .link target) :
    ∃ metadata, host.metadata? (RemotePath.join source (Files.name child.1)) = .ok metadata ∧
      metadata.isDirectory = (host.tells child).isDirectory := by
  have found := find_child table isClean leads member plain
  exact ⟨_, metadata_of_find (honest _) found, rfl⟩

/-- The listing tells of no link as a directory. -/
theorem not_isDirectory_of_link {target : String} (link : child.2 = .link target) :
    ¬ (host.tells child).isDirectory = true := by
  intro directory
  obtain ⟨mode, same⟩ := Host.isDirectory_attributes directory
  rw [link] at same
  cases same

/-- Unless a child is a link to a directory, a look at its path tells the same kind as the listing. -/
theorem isDirectory_of_apart (table : host.files.Table) (isClean : IsClean source)
    (leads : Sftp.locate host.files true source = .ok place) (member : child ∈ host.files.children place)
    (honest : ∀ path, host.fault? (.stat path) = none) (apart : ¬ LinksDirectory host source child)
    {metadata : Metadata}
    (told : host.metadata? (RemotePath.join source (Files.name child.1)) = .ok metadata) :
    metadata.isDirectory = (host.tells child).isDirectory := by
  by_cases link : ∃ target, child.2 = .link target
  · obtain ⟨target, aim⟩ := link
    rw [Bool.eq_false_iff.2 (not_isDirectory_of_link aim), Bool.eq_false_iff]
    exact fun directory => apart ⟨⟨target, aim⟩, metadata, told, directory⟩
  · obtain ⟨other, told', same⟩ :=
      metadata_of_child table isClean leads member honest fun target same => link ⟨target, same⟩
    rw [told] at told'
    cases told'
    exact same

/-- A child is fetched as it is by its own path, unless it is a link to a directory. -/
theorem alike_fetchEntry (table : host.files.Table) (isClean : IsClean source)
    (leads : Sftp.locate host.files true source = .ok place) (member : child ∈ host.files.children place)
    (honest : ∀ path, host.fault? (.stat path) = none) (apart : ¬ LinksDirectory host source child)
    (depth : Nat) (target : String) :
    Alike host (fetchEntry session depth source target (host.tells child))
      (Deployment.download depth session (RemotePath.join source (Files.name child.1)) target) := by
  unfold fetchEntry Deployment.download
  dsimp only
  by_cases isDirectory : (host.tells child).isDirectory = true
  · obtain ⟨mode, directory⟩ := Host.isDirectory_attributes isDirectory
    obtain ⟨metadata, told, same⟩ := metadata_of_child table isClean leads member honest (by simp [directory])
    have looked : Alike host (remotely session (.stat (RemotePath.join source (Files.name child.1))) >>= fun
        metadata => if metadata.isDirectory then
          downloadDirectory session depth (RemotePath.join source (Files.name child.1)) target
        else downloadFile session (RemotePath.join source (Files.name child.1)) metadata target)
        (downloadDirectory session depth (RemotePath.join source (Files.name child.1)) target) := by
      refine (passes_stat told).alike ?_
      rw [if_pos (same.trans isDirectory)]
      exact .refl (onlyFetches_downloadDirectory depth _ target)
    rw [if_pos isDirectory]
    exact looked.symm
  · rw [if_neg isDirectory]
    have looks : OnlyFetches (remotely session (.stat (RemotePath.join source (Files.name child.1)))).run :=
      onlyFetches_remotely trivial
    refine Alike.bind (.refl looks) fun metadata returned => ?_
    have told : host.metadata? (RemotePath.join source (Files.name child.1)) = .ok metadata :=
      metadata_of_returns returned
    have same := isDirectory_of_apart table isClean leads member honest apart told
    have file : ¬ metadata.isDirectory = true := by rwa [same]
    rw [if_neg file]
    exact .refl (onlyFetches_downloadFile _ target metadata)

/-- A link to a directory cannot be fetched as an entry. -/
theorem fails_fetchEntry (links : LinksDirectory host source child) (depth : Nat) (target : String) :
    Fails host (fetchEntry session depth source target (host.tells child)) := by
  obtain ⟨⟨aim, link⟩, metadata, told, isDirectory⟩ := links
  unfold fetchEntry downloadFile
  dsimp only
  rw [if_neg (not_isDirectory_of_link link)]
  refine Fails.after (onlyFetches_remotely trivial) fun metadata _ => ?_
  refine Fails.after (onlyFetches_makeLocalDirectories target) fun _ _ => ?_
  refine Fails.after (onlyFetches_report _) fun _ _ => ?_
  exact (fails_download told isDirectory _ _).before

def entryNames (files : Files) (place : String) : List String :=
  ((files.children place).map fun child => Files.name child.1).mergeSort fun a b => decide (a ≤ b)

/-- The entries that are fetched, in the order in which they are, have the names of the entries. -/
theorem names_listed (host : Host) (place : String) :
    ((host.listed place).mergeSort fun (a b : Entry) => decide (a.name ≤ b.name)).map Entry.name =
      entryNames host.files place := by
  let before (first second : Entry) : Bool := decide (first.name ≤ second.name)
  let below (first second : String) : Bool := decide (first ≤ second)
  have sorts : ((host.listed place).mergeSort before).Pairwise fun first second => before first second = true :=
    List.pairwise_mergeSort (by simpa [before] using fun _ _ _ => String.le_trans)
      (by simpa [before] using fun _ _ => String.le_total _ _) _
  have sorted : (entryNames host.files place).Pairwise fun first second => below first second = true :=
    List.pairwise_mergeSort (by simpa [below] using fun _ _ _ => String.le_trans)
      (by simpa [below] using fun _ _ => String.le_total _ _) _
  have names : (host.listed place).map Entry.name =
      ((host.files.children place).map fun child => Files.name child.1).reverse := by
    rw [Host.listed, List.map_map, ← List.map_reverse]
    rfl
  have perm : (((host.listed place).mergeSort before).map Entry.name).Perm (entryNames host.files place) := by
    refine ((List.mergeSort_perm _ _).map _).trans ?_
    rw [names]
    exact (List.reverse_perm _).trans (List.mergeSort_perm _ _).symm
  refine List.Perm.eq_of_pairwise ?_ (List.pairwise_map.2 sorts) sorted perm
  intro first second _ _ less more
  exact String.le_antisymm (of_decide_eq_true less) (of_decide_eq_true more)

/-- Creates the directory under the name of the source, and fetches each of the named entries of the source
into it by its own path. -/
def downloadEntries (depth : Nat) (session : SessionId) (source directory : String) (names : List String) :
    Attempt Rollout.TransferError Nat := do
  let target := LocalPath.join directory (RemotePath.baseName source)
  makeLocalDirectories target
  Attempt.total (fun name => Deployment.download depth session (RemotePath.join source name) target) names

/-- The path leads to the directory at the place, on a host whose file server looks for what it is asked for
and tells what it finds. -/
structure Shown (host : Host) (source place : String) : Prop where
  table : host.files.Table
  isClean : IsClean source
  honest : ∀ path, host.fault? (.stat path) = none
  opens : host.fault? (.openDirectory source) = none
  found : ∃ mode, Sftp.find host.files true source = .ok (place, .directory mode) ∧
    (host.attributes place (.directory mode)).isDirectory = true

theorem Shown.metadata (shown : Shown host source place) :
    ∃ metadata, host.metadata? source = .ok metadata ∧ metadata.isDirectory = true := by
  obtain ⟨mode, found, isDirectory⟩ := shown.found
  exact ⟨_, metadata_of_find (shown.honest source) found, isDirectory⟩

theorem Shown.listing (shown : Shown host source place) :
    host.listing? source = .ok (host.listed place) := by
  obtain ⟨mode, found, _⟩ := shown.found
  rw [Host.listing?, shown.opens, found]

theorem Shown.leads (shown : Shown host source place) : Sftp.locate host.files true source = .ok place := by
  obtain ⟨mode, found, _⟩ := shown.found
  exact (Sftp.find_eq_ok_iff.1 found).1

/-- What is listed is a directory that the path leads to. -/
theorem listed_of_listing {path : String} {entries : List Entry} (told : host.listing? path = .ok entries) :
    ∃ place mode, Sftp.find host.files true path = .ok (place, .directory mode) ∧
      entries = host.listed place := by
  unfold Host.listing? at told
  split at told
  · cases told
  · cases told
  next found =>
    cases told
    exact ⟨_, _, found, rfl⟩
  · cases told

/-- The entries of a directory have one name more than the directory. -/
theorem parts_child {entry : String × Node} (clean : host.files.Clean) (isClean : IsClean place)
    (member : entry ∈ host.files.children place) :
    RemotePath.parts entry.1.toList = RemotePath.parts place.toList ++ [(Files.name entry.1).toList] := by
  have named := clean.isName member
  obtain ⟨above, names, rfl⟩ := isClean.exists_pathTo
  have inner : ∀ part ∈ above ++ [(Files.name entry.1).toList], IsName part :=
    List.forall_mem_append.2 ⟨names, by simpa using named⟩
  have path := RemotePath.child_pathTo names (Files.name entry.1).toList
  rw [String.ofList_toList, ← Files.eq_child member] at path
  calc RemotePath.parts entry.1.toList
    _ = above ++ [(Files.name entry.1).toList] := by
      rw [congrArg String.toList path, RemotePath.parts_pathTo inner]
    _ = _ := by rw [RemotePath.parts_pathTo names]

/-- No path has more names than the place and as many more. -/
def NestedBelow (files : Files) (place : String) (spare : Nat) : Prop :=
  ∀ entry ∈ files.nodes,
    (RemotePath.parts entry.1.toList).length ≤ (RemotePath.parts place.toList).length + spare

/-- A child has one name more than the directory, so there is one level less below it. -/
theorem NestedBelow.entry {spare : Nat} (nested : NestedBelow host.files place spare)
    (clean : host.files.Clean) (isClean : IsClean place) (member : child ∈ host.files.children place) :
    ∃ fewer, spare = fewer + 1 ∧ NestedBelow host.files child.1 fewer := by
  have more := congrArg List.length (parts_child clean isClean member)
  rw [List.length_append, List.length_singleton] at more
  have below := nested child (List.mem_filter.1 member).1
  refine ⟨spare - 1, by omega, fun entry among => ?_⟩
  have within := nested entry among
  omega

/-- Any two bounds for the nesting that are beyond what is below the directory do equally. -/
theorem alike_downloadDirectory (table : host.files.Table) {spare first second : Nat}
    (isClean : IsClean source) (leads : Sftp.locate host.files true source = .ok place)
    (nested : NestedBelow host.files place spare) (enough : spare < first) (enough' : spare < second)
    (directory : String) :
    Alike host (downloadDirectory session first source directory)
      (downloadDirectory session second source directory) := by
  induction first generalizing spare second source place directory with
  | zero => exact absurd enough (Nat.not_lt_zero _)
  | succ first ih =>
    obtain ⟨second, rfl⟩ : ∃ fewer, second = fewer + 1 := Nat.exists_eq_add_one.2 (by omega)
    unfold downloadDirectory
    refine Alike.bind (.refl (onlyFetches_makeLocalDirectories _)) fun _ _ => ?_
    refine Alike.bind (.refl (onlyFetches_remotely trivial)) fun entries returned => ?_
    obtain ⟨there, mode, found, rfl⟩ := listed_of_listing (listing_of_returns table.clean returned)
    obtain ⟨located, present⟩ := Sftp.find_eq_ok_iff.1 found
    obtain rfl : place = there := Except.ok.inj (leads.symm.trans located)
    have placed : IsClean place := table.clean _ (Files.mem_of_get? present)
    refine alike_total fun entry listed => ?_
    obtain ⟨child, among, rfl⟩ := List.mem_map.1 (List.mem_mergeSort.1 listed)
    have member := List.mem_reverse.1 among
    change Alike host (fetchEntry session first source _ (host.tells child))
      (fetchEntry session second source _ (host.tells child))
    by_cases isDirectory : (host.tells child).isDirectory = true
    · obtain ⟨_, node⟩ := Host.isDirectory_attributes isDirectory
      have lower := (Sftp.find_eq_ok_iff.1 (find_child table isClean leads member (by simp [node]))).1
      obtain ⟨fewer, rfl, below⟩ := nested.entry table.clean placed member
      unfold fetchEntry
      dsimp only
      rw [if_pos isDirectory, if_pos isDirectory]
      exact ih (RemotePath.isClean_join isClean.rooted _) lower below (by omega) (by omega) _
    · unfold fetchEntry
      dsimp only
      rw [if_neg isDirectory, if_neg isDirectory]
      refine .refl (OnlyFetches.bind ?_ fun metadata => onlyFetches_downloadFile _ _ metadata)
      exact onlyFetches_remotely trivial

/-- For a download, too, any bound that is beyond all that the host has does. -/
theorem alike_download {depth : Nat} (shown : Shown host source place)
    (nested : ∀ entry ∈ host.files.nodes, (RemotePath.parts entry.1.toList).length < depth)
    (directory : String) :
    Alike host (Deployment.download depth session source directory)
      (Deployment.download (depth + 1) session source directory) := by
  unfold Deployment.download
  refine Alike.bind (.refl (onlyFetches_remotely trivial)) fun metadata _ => ?_
  by_cases isDirectory : metadata.isDirectory = true
  · rw [if_pos isDirectory, if_pos isDirectory]
    have below : NestedBelow host.files place (depth - 1) := by
      intro entry member
      have within := nested entry member
      omega
    have deep : 0 < depth := by
      obtain ⟨mode, found, _⟩ := shown.found
      exact Nat.zero_lt_of_lt (nested _ (Files.mem_of_get? (Sftp.find_eq_ok_iff.1 found).2))
    exact alike_downloadDirectory shown.table shown.isClean shown.leads below (by omega) (by omega) directory
  · rw [if_neg isDirectory, if_neg isDirectory]
    exact .refl (onlyFetches_downloadFile source directory metadata)

/-- Where no entry is a link to a directory, the directory is fetched entry by entry. -/
theorem alike_downloadEntries (shown : Shown host source place)
    (apart : ∀ child ∈ host.files.children place, ¬ LinksDirectory host source child) (depth : Nat)
    (directory : String) :
    Alike host (Deployment.download (depth + 1) session source directory)
      (downloadEntries depth session source directory (entryNames host.files place)) := by
  obtain ⟨metadata, told, isDirectory⟩ := shown.metadata
  unfold Deployment.download
  refine (passes_stat told).alike ?_
  rw [if_pos isDirectory]
  unfold downloadDirectory downloadEntries
  refine Alike.bind (.refl (onlyFetches_makeLocalDirectories _)) fun _ _ => ?_
  refine (passes_list shown.table.clean shown.listing).alike ?_
  rw [← names_listed, Deployment.total_map]
  refine alike_total fun entry member => ?_
  obtain ⟨child, among, rfl⟩ := List.mem_map.1 (List.mem_mergeSort.1 member)
  have inside := List.mem_reverse.1 among
  exact alike_fetchEntry shown.table shown.isClean shown.leads inside shown.honest (apart child inside) depth _

/-- Where an entry is a link to a directory, the directory cannot be fetched. -/
theorem fails_of_linksDirectory (shown : Shown host source place)
    (member : child ∈ host.files.children place) (links : LinksDirectory host source child) (depth : Nat)
    (directory : String) : Fails host (Deployment.download (depth + 1) session source directory) := by
  obtain ⟨metadata, told, isDirectory⟩ := shown.metadata
  unfold Deployment.download
  refine Fails.after (onlyFetches_remotely trivial) fun metadata' returned => ?_
  obtain rfl : metadata = metadata' := Except.ok.inj (told.symm.trans (metadata_of_returns returned))
  rw [if_pos isDirectory]
  unfold downloadDirectory
  refine Fails.after (onlyFetches_makeLocalDirectories _) fun _ _ => ?_
  refine Fails.after (onlyFetches_remotely trivial) fun entries returned => ?_
  obtain rfl : host.listed place = entries :=
    Except.ok.inj (shown.listing.symm.trans (listing_of_returns shown.table.clean returned))
  have among : host.tells child ∈ (host.listed place).mergeSort fun a b => decide (a.name ≤ b.name) :=
    List.mem_mergeSort.2 (List.mem_map_of_mem (List.mem_reverse.2 member))
  exact fails_total (fun entry _ => onlyFetches_fetchEntry depth source _ entry) among
    (fails_fetchEntry links depth _)

def uploadEntries (depth : Nat) (session : SessionId) (source directory : String) :
    Attempt Rollout.TransferError Nat := do
  let target := RemotePath.join directory (LocalPath.baseName source)
  remotely session (.makeDirectories target)
  let names ← Deployment.localEntries source
  Attempt.total (fun name => Deployment.upload depth session (LocalPath.join source name) target) names

/-- A directory of the host is fetched as its entries are by their own paths, one after the other in the order
of their names, with the same result and the same files on the machine, where none of them is a link to a
directory. Where one is, the fetch fails, whatever becomes of the entries by their own paths. A directory of
the machine, on the other side, is always sent entry by entry. -/
theorem download_entry_by_entry {world : World} {source place : String} {depth : Nat}
    (shown : Shown world.host source place)
    (nested : ∀ entry ∈ world.host.files.nodes, (RemotePath.parts entry.1.toList).length < depth)
    (session : SessionId) (directory : String) :
    let whole := world.carryOut (Deployment.download depth session source directory).run
    let pieces := world.carryOut
      (downloadEntries depth session source directory (entryNames world.host.files place)).run
    ((∀ child ∈ world.host.files.children place, ¬ LinksDirectory world.host source child) →
      whole.1 = pieces.1 ∧ whole.2.machine = pieces.2.machine) ∧
    ((∃ child ∈ world.host.files.children place, LinksDirectory world.host source child) →
      ∃ error, whole.1 = .error error) ∧
    ∀ sent received, Deployment.uploadDirectory session (depth + 1) sent received =
      uploadEntries depth session sent received := by
  have deep : Alike world.host (Deployment.download depth session source directory)
      (Deployment.download (depth + 1) session source directory) := alike_download shown nested directory
  refine ⟨fun apart => ?_, ?_, fun _ _ => rfl⟩
  · exact (deep.trans (alike_downloadEntries shown apart depth directory)).agree rfl
  · rintro ⟨child, member, links⟩
    exact (fails_of_linksDirectory shown member links depth directory).of_alike deep world rfl

section Examples

/-- A host with a directory in which there are a file, a link to it, and a directory with a file. -/
def stocked : World where
  machine := { files := { nodes := [("/", .directory 0o755)] }, directory := "/" }
  host := {
    home := "/"
    files := {
      nodes := [("/", .directory 0o755), ("/d", .directory 0o755), ("/d/a", .file [120] 0o644),
        ("/d/l", .link "a"), ("/d/s", .directory 0o755), ("/d/s/b", .file [121] 0o600)] } }

theorem stocked_shown : Shown stocked.host "/d" "/d" where
  table := by
    unfold stocked
    exact ⟨by unfold Files.Clean; decide, by decide⟩
  isClean := by decide
  honest _ := rfl
  opens := rfl
  found := ⟨0o755, by cbv, by cbv⟩

theorem stocked_nested :
    ∀ entry ∈ stocked.host.files.nodes, (RemotePath.parts entry.1.toList).length < 4 := by
  decide

theorem stocked_apart :
    ∀ child ∈ stocked.host.files.children "/d", ¬ LinksDirectory stocked.host "/d" child := by
  have children : stocked.host.files.children "/d" =
      [("/d/a", .file [120] 0o644), ("/d/l", .link "a"), ("/d/s", .directory 0o755)] := by cbv
  have file : stocked.host.metadata? (RemotePath.join "/d" (Files.name "/d/l")) =
      .ok { isDirectory := false, size := 1, mode := 0o644 } := by cbv
  rw [children]
  simp only [List.forall_mem_cons]
  refine ⟨?_, ?_, ?_, by simp⟩
  · rintro ⟨⟨target, link⟩, _⟩
    cases link
  · rintro ⟨_, metadata, told, isDirectory⟩
    rw [file] at told
    cases told
    cases isDirectory
  · rintro ⟨⟨target, link⟩, _⟩
    cases link

/-- Each entry of such a directory is fetched as by its own path. -/
theorem download_entry_by_entry_stocked :
    let whole := stocked.carryOut (Deployment.download 4 0 "/d" "x").run
    let pieces := stocked.carryOut (downloadEntries 4 0 "/d" "x" (entryNames stocked.host.files "/d")).run
    Shown stocked.host "/d" "/d" ∧
      (∀ entry ∈ stocked.host.files.nodes, (RemotePath.parts entry.1.toList).length < 4) ∧
      (∀ child ∈ stocked.host.files.children "/d", ¬ LinksDirectory stocked.host "/d" child) ∧
      whole.1 = pieces.1 ∧ whole.2.machine = pieces.2.machine :=
  ⟨stocked_shown, stocked_nested, stocked_apart,
    (download_entry_by_entry stocked_shown stocked_nested 0 "x").1 stocked_apart⟩

/-- A host with a directory in which there is a link to another directory. -/
def current : World where
  machine := { files := { nodes := [("/", .directory 0o755)] }, directory := "/" }
  host := {
    home := "/"
    files := {
      nodes := [("/", .directory 0o755), ("/d", .directory 0o755), ("/d/l", .link "/t"),
        ("/t", .directory 0o755)] } }

theorem current_shown : Shown current.host "/d" "/d" where
  table := by
    unfold current
    exact ⟨by unfold Files.Clean; decide, by decide⟩
  isClean := by decide
  honest _ := rfl
  opens := rfl
  found := ⟨0o755, by cbv, by cbv⟩

theorem carryOut_makeLocalDirectories (world : World) {path : String} {machine : Machine}
    (noNul : Char.ofNat 0 ∉ path.toList) (made : world.machine.makeDirectories path = .ok machine) :
    ∃ shown, world.carryOut (makeLocalDirectories path).run = (.ok (), { world with machine, shown }) := by
  have given : Machine.forPath path (world.machine.makeDirectories path) = .ok machine := by
    rw [Machine.forPath, if_neg (by simpa using noNul), made]
    rfl
  have run : world.carryOut (makeLocalDirectories path).run =
      let change := world.machine.changed (Machine.forPath path (world.machine.makeDirectories path))
      (change.2.mapError (.onLocal path),
        { world with machine := change.1, shown := world.shown.append {} }) := by
    unfold makeLocalDirectories Deployment.Attempt.asking World.carryOut
    rfl
  rw [given] at run
  exact ⟨_, run⟩

/-- An empty directory is fetched where its own can be made. -/
theorem carryOut_download_empty (world : World) (session : SessionId) {path target directory : String}
    {metadata : Metadata} {machine : Machine} (clean : world.host.files.Clean)
    (told : world.host.metadata? path = .ok metadata) (isDirectory : metadata.isDirectory = true)
    (listed : world.host.listing? path = .ok [])
    (lands : LocalPath.join directory (RemotePath.baseName path) = target)
    (noNul : Char.ofNat 0 ∉ target.toList) (made : world.machine.makeDirectories target = .ok machine)
    (depth : Nat) :
    (world.carryOut (Deployment.download (depth + 1) session path directory).run).1 = .ok 0 := by
  have looks : Passes world.host (remotely session (.stat path)) metadata := passes_stat told
  have reads : Passes world.host (remotely session (.list path)) [] := passes_list clean listed
  obtain ⟨notes, looked⟩ := looks world rfl
  obtain ⟨shown, makes⟩ := carryOut_makeLocalDirectories (world.noting notes) noNul made
  obtain ⟨more, lists⟩ := reads { world.noting notes with machine, shown } rfl
  unfold Deployment.download downloadDirectory
  rw [World.carryOut_then, looked]
  dsimp only
  rw [if_pos isDirectory, lands, World.carryOut_then, makes]
  dsimp only
  rw [World.carryOut_then, lists]
  dsimp only
  rw [List.mergeSort_nil]
  rfl

/-- The directory cannot be fetched, though its only entry can, by its own path. -/
theorem linked_directory_fails_whole :
    let whole := current.carryOut (Deployment.download 3 0 "/d" "x").run
    let pieces := current.carryOut (downloadEntries 3 0 "/d" "x" (entryNames current.host.files "/d")).run
    Shown current.host "/d" "/d" ∧
      (∀ entry ∈ current.host.files.nodes, (RemotePath.parts entry.1.toList).length < 3) ∧
      pieces.1 = .ok 0 ∧ ∃ error, whole.1 = .error error := by
  have nested : ∀ entry ∈ current.host.files.nodes, (RemotePath.parts entry.1.toList).length < 3 := by
    decide
  have names : entryNames current.host.files "/d" = ["l"] := by cbv
  have told : current.host.metadata? "/d/l" = .ok { isDirectory := true, size := 4096, mode := 0o755 } := by
    cbv
  have listed : current.host.listing? "/d/l" = .ok [] := by cbv
  have links : LinksDirectory current.host "/d" ("/d/l", .link "/t") := ⟨⟨"/t", rfl⟩, _, told, rfl⟩
  have member : ("/d/l", Node.link "/t") ∈ current.host.files.children "/d" := by decide
  refine ⟨current_shown, nested, ?_, fails_of_linksDirectory current_shown member links 2 "x" current rfl⟩
  let held : Machine := { current.machine with
    files := { nodes := [("/", .directory 0o755), ("/x", .directory 0o755), ("/x/d", .directory 0o755)] } }
  have made : current.machine.makeDirectories "x/d" = .ok held := by cbv
  have below : held.makeDirectories "x/d/l" = .ok { held with
      files := { nodes := held.files.nodes ++ [("/x/d/l", .directory 0o755)] } } := by
    cbv
  have lands : LocalPath.join "x" (RemotePath.baseName "/d") = "x/d" := by decide
  have entry : RemotePath.join "/d" "l" = "/d/l" := by decide
  have within : LocalPath.join "x/d" (RemotePath.baseName "/d/l") = "x/d/l" := by decide
  obtain ⟨shown, makes⟩ := carryOut_makeLocalDirectories current (by decide) made
  have fetched := carryOut_download_empty { current with machine := held, shown } 0 current_shown.table.clean
    told rfl listed within (by decide) below 2
  unfold downloadEntries
  rw [names, lands, World.carryOut_then, makes]
  dsimp only
  unfold Attempt.total
  rw [entry, World.carryOut_then]
  generalize World.carryOut _ (Deployment.download 3 0 "/d/l" "x/d").run = done at fetched ⊢
  obtain ⟨result, after⟩ := done
  cases fetched
  rfl

end Examples

end Entries

end Ssh

end Rollout

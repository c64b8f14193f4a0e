import Mathlib
import Rollout.Proofs.Deletion
import Rollout.Proofs.Exchanges
import Rollout.Proofs.Naming

/-!
# What a deletion leaves

A deletion looks at each target with its links followed and removes what the target names itself. So a
target that names a file, an empty directory or a link to something is gone when the deletion succeeds,
while a link to nothing is taken for a missing path and is left. Nothing but the entries that targets
name is removed: what a link leads to stays.

A removal takes one entry out of the tree and changes no other, so what a target names at the end it
named at its turn.
-/

namespace Rollout

open Rollout.Script (Action)

namespace Sftp

variable {files files' : Files} {path : String}

/-- What is removed as a directory is the one entry that the path names. -/
theorem erased_of_removeDirectory (removed : removeDirectory files path = .ok files') :
    ∃ place node, find files false path = .ok (place, node) ∧ files' = files.erase place := by
  unfold removeDirectory at removed
  cases found : find files false path with
  | error status =>
    rw [found] at removed
    cases removed
  | ok result =>
    obtain ⟨place, node⟩ := result
    rw [found] at removed
    dsimp only [bind, Except.bind] at removed
    refine ⟨place, node, rfl, ?_⟩
    split at removed
    · split at removed <;> cases removed
      rename_i same _
      cases same
      rfl
    · cases removed

/-- What is removed as a file or link is the one entry that the path names. -/
theorem erased_of_removeFile (removed : removeFile files path = .ok files') :
    ∃ place node, find files false path = .ok (place, node) ∧ files' = files.erase place := by
  unfold removeFile at removed
  cases found : find files false path with
  | error status =>
    rw [found] at removed
    cases removed
  | ok result =>
    obtain ⟨place, node⟩ := result
    rw [found] at removed
    refine ⟨place, node, rfl, ?_⟩
    cases node with
    | directory => cases removed
    | file | link =>
      cases removed
      rfl

end Sftp

namespace Ssh

open Rollout.Deployment
open Rollout.Sftp (Status)
open Exchange (exchange_bind exchange_tryCatch succeeds_bind_iff)
open Files (Within)

variable {world after : World} {path : String}

def Host.holding (host : Host) (files : Files) : Host :=
  { host with files }

def Host.look (host : Host) (follow : Bool) (path : String) : Except Status Sftp.Attributes :=
  match host.fault? (if follow then .stat path else .statLink path) with
  | some status => .error status
  | none => (Sftp.find host.files follow path).map fun found => host.attributes found.1 found.2

theorem exchange_get {α : Type} (world : World) (next : World → Exchange α) :
    world.exchange (get >>= next) = world.exchange (next world) :=
  rfl

theorem exchange_request (world : World) (asked : Request) :
    world.exchange (Exchange.request asked) = (world.note (.requested asked),
      match world.host.fault? asked with
      | some status => .error (.ssh status.error)
      | none => .ok ()) := by
  have noted : world.exchange (Exchange.change (·.note (.requested asked))) =
      (world.note (.requested asked), .ok ()) := rfl
  have same : (world.note (.requested asked)).host = world.host := rfl
  unfold Exchange.request
  rw [exchange_bind, noted]
  dsimp only
  rw [exchange_get, same]
  cases world.host.fault? asked <;> rfl

/-- A look is noted and changes nothing else, whether it succeeds or not. -/
theorem exchange_attributes (world : World) (follow : Bool) (path : String) :
    world.exchange (attributes follow path) =
      (world.note (.requested (if follow then .stat path else .statLink path)),
        (world.host.look follow path).mapError fun status => .ssh status.error) := by
  unfold attributes Host.look
  rw [exchange_bind, exchange_request]
  cases world.host.fault? (if follow then .stat path else .statLink path) with
  | some status => rfl
  | none =>
    dsimp only
    rw [exchange_get]
    change (World.note _ _).exchange (Exchange.found (Sftp.find world.host.files follow path) >>= _) = _
    cases Sftp.find world.host.files follow path <;> rfl

/-- A path is told to be missing only if the file server finds nothing there, or says so against better
knowledge. -/
theorem look_of_notFound {reason : String}
    (told : world.exchange (stat path) = (after, .error (.notFound reason))) :
    after.host = world.host ∧ world.host.look true path = .error Status.noSuchFile := by
  unfold stat Exchange.naming at told
  rw [exchange_bind, exchange_tryCatch, exchange_attributes] at told
  cases look : world.host.look true path with
  | ok attributes =>
    rw [look] at told
    cases told
  | error status =>
    rw [look] at told
    dsimp only [Except.mapError] at told
    by_cases missing : status = Status.noSuchFile
    · subst missing
      cases told
      exact ⟨rfl, rfl⟩
    · have present : status.error.isMissing = false := by
        have other : (status : Int) ≠ 2 := fun same => missing (by exact_mod_cast same)
        simp [Status.error, SshError.isMissing, SshError.noSuchFile, other]
      rw [present] at told
      cases told

/-- A removal that the server carries out takes one entry out of its tree. -/
theorem erased_of_settle {remove : Files → String → Except Status Files} {asked : Request} {value : Unit}
    (erases : ∀ {files files'}, remove files path = .ok files' →
      ∃ place node, Sftp.find files false path = .ok (place, node) ∧ files' = files.erase place)
    (run : (do
      Exchange.request asked
      Exchange.settle (remove (← get).host.files path) : Exchange Unit).Succeeds world value after) :
    ∃ place node, Sftp.find world.host.files false path = .ok (place, node) ∧
      after.host = world.host.holding (world.host.files.erase place) := by
  obtain ⟨files, removed, rfl⟩ := Exchange.succeeds_settle_iff.1 (Exchange.succeeds_of_request run)
  obtain ⟨place, node, found, rfl⟩ := erases removed
  exact ⟨place, node, found, rfl⟩

/-- What is removed is one entry, the one that the path names with a last link not followed. -/
theorem succeeds_remove {value : Unit} (run : (remove path).Succeeds world value after) :
    ∃ place node, Sftp.find world.host.files false path = .ok (place, node) ∧
      after.host = world.host.holding (world.host.files.erase place) := by
  obtain ⟨told, now, asked, run⟩ := succeeds_bind_iff.1 run
  obtain ⟨same, _⟩ := succeeds_attributes asked
  rw [← same]
  split at run
  · exact erased_of_settle Sftp.erased_of_removeDirectory run
  · exact erased_of_settle Sftp.erased_of_removeFile run

/-- A look that succeeds has found something. -/
theorem find_of_look {host : Host} {attributes : Sftp.Attributes}
    (looked : host.look true path = .ok attributes) : ∃ found, Sftp.find host.files true path = .ok found := by
  unfold Host.look at looked
  split at looked
  · cases looked
  · cases there : Sftp.find host.files true path with
    | error status =>
      rw [there] at looked
      cases looked
    | ok found => exact ⟨found, rfl⟩

/-- A server that does not hide what is there has looked for it. -/
theorem missing_of_look {host : Host} (honest : host.fault? (.stat path) ≠ some Status.noSuchFile)
    (looked : host.look true path = .error Status.noSuchFile) :
    Sftp.find host.files true path = .error Status.noSuchFile := by
  unfold Host.look at looked
  split at looked
  next status fault =>
    cases looked
    exact absurd fault honest
  next =>
    cases there : Sftp.find host.files true path with
    | error status =>
      rw [there] at looked
      cases looked
      rfl
    | ok found =>
      rw [there] at looked
      cases looked

theorem succeeds_look {metadata : Metadata} (run : (stat path).Succeeds world metadata after) :
    after.host = world.host ∧ ∃ attributes, world.host.look true path = .ok attributes := by
  obtain ⟨told, _, asked, _⟩ := succeeds_bind_iff.1 run
  have looked := Exchange.succeeds_naming_iff.1 asked
  unfold Exchange.Succeeds at looked
  rw [exchange_attributes] at looked
  refine ⟨(succeeds_stat run).1, ?_⟩
  cases look : world.host.look true path with
  | ok attributes => exact ⟨attributes, rfl⟩
  | error status =>
    rw [look] at looked
    cases looked

/-- What dealing with a path has come to: it is protected, the server says that it is missing, or the entry
that it names is removed, after the server has found something there. -/
inductive DealtWith (paths : ProtectedPaths) (path : String) (before : Host) : Host → Prop
  | isProtected (guarded : paths.contains path = true) : DealtWith paths path before before
  | isMissing (missing : before.look true path = .error Status.noSuchFile) :
      DealtWith paths path before before
  | removed {place : String} {node : Node} (allowed : paths.contains path = false)
      (found : ∃ attributes, before.look true path = .ok attributes)
      (named : Sftp.find before.files false path = .ok (place, node)) :
      DealtWith paths path before (before.holding (before.files.erase place))

/-- Paths dealt with in order. -/
inductive Dealings (paths : ProtectedPaths) : List String → Host → Host → Prop
  | done (host : Host) : Dealings paths [] host host
  | next {path : String} {rest : List String} {before between after : Host}
      (here : DealtWith paths path before between) (later : Dealings paths rest between after) :
      Dealings paths (path :: rest) before after

section Answers

variable {setup : Setup} {session : SessionId} {first later transcript : Transcript}

theorem World.answers_cons {request : Deployment.Request} {answer : request.Answer} {rest : Transcript}
    (answered : world.Answers (⟨request, answer⟩ :: rest) after) :
    answer = (world.answer request).2 ∧ (world.answer request).1.Answers rest after := by
  generalize told : (⟨request, answer⟩ :: rest : Transcript) = transcript at answered
  cases answered with
  | done => cases told
  | answer asked answered =>
    cases told
    exact ⟨rfl, answered⟩

/-- What is told to the operator does not concern the host. -/
theorem World.answers_report {report : Report} {rest : Transcript}
    (answered : world.Answers (⟨.report report, ()⟩ :: rest) after) :
    ∃ between : World, between.host = world.host ∧ between.Answers rest after := by
  obtain ⟨_, onward⟩ := World.answers_cons answered
  obtain ⟨shown, same⟩ := world.tell_eq report
  exact ⟨world.tell report, by rw [same]; rfl, onward⟩

/-- How a world deals with a path without a failure. -/
theorem answers_deletes (deletes : Deletes setup session path first none)
    (answered : world.Answers (first ++ later) after) :
    ∃ between : World, between.Answers later after ∧
      DealtWith setup.protectedPaths path world.host between.host := by
  cases deletes with
  | isProtected guarded =>
    obtain ⟨between, same, answered⟩ := World.answers_report answered
    exact ⟨between, answered, same ▸ .isProtected guarded⟩
  | isMissing allowed =>
    obtain ⟨told, answered⟩ := World.answers_cons answered
    obtain ⟨unchanged, missing⟩ := look_of_notFound (Prod.ext rfl told.symm)
    obtain ⟨between, same, answered⟩ := World.answers_report answered
    refine ⟨between, answered, ?_⟩
    rw [show between.host = world.host from same.trans unchanged]
    exact .isMissing missing
  | removed allowed =>
    obtain ⟨now, looked, answered⟩ := World.answers_call answered
    obtain ⟨between, removed, answered⟩ := World.answers_call answered
    obtain ⟨same, found⟩ := succeeds_look looked
    obtain ⟨place, node, named, host⟩ := succeeds_remove removed
    rw [same] at named host
    exact ⟨between, answered, host ▸ .removed allowed found named⟩

/-- How a world deals with all paths without a failure. -/
theorem answers_deletion {paths : List String} (deletion : Deletion setup session paths transcript none)
    (answered : world.Answers transcript after) :
    Dealings setup.protectedPaths paths world.host after.host := by
  generalize none : (none : Option ActionError) = failure at deletion
  induction deletion generalizing world with
  | done =>
    obtain rfl := World.answers_nil answered
    exact .done _
  | stopped => cases none
  | next passes _ ih =>
    obtain ⟨between, answered, here⟩ := answers_deletes passes answered
    exact .next here (ih answered none)

end Answers

section Trees

variable {paths : ProtectedPaths} {targets : List String} {before between after : Host}

theorem DealtWith.within (dealt : DealtWith paths path before after) : Within after.files before.files := by
  cases dealt with
  | isProtected | isMissing => exact .refl _
  | removed => exact Files.erase_within _ _

theorem DealtWith.fault? (dealt : DealtWith paths path before after) (request : Request) :
    after.fault? request = before.fault? request := by
  cases dealt <;> rfl

theorem Dealings.within (dealings : Dealings paths targets before after) :
    Within after.files before.files := by
  induction dealings with
  | done => exact .refl _
  | next here _ ih => exact ih.trans here.within

/-- At its turn a path that is not protected is removed or found missing, and what is removed is not named
again. So of what it names a link to nothing is left at most. -/
theorem DealtWith.dangles {path : String} {files : Files} (dealt : DealtWith paths path before between)
    (allowed : paths.contains path = false) (honest : before.fault? (.stat path) ≠ some Status.noSuchFile)
    (within : Within files between.files) (names : Sftp.Names files path) : Sftp.Dangles files path := by
  cases dealt with
  | isProtected guarded =>
    rw [allowed] at guarded
    cases guarded
  | isMissing missing => exact Sftp.dangles_of_missing within (missing_of_look honest missing) names
  | @removed place node _ _ named =>
    obtain ⟨place', node', leads, there⟩ := names
    have reached : Sftp.Reaches before.files false path place' node' :=
      Sftp.Reaches.mono (within.trans (Files.erase_within _ _)) ⟨leads, there⟩
    have still := within place' node' there
    rcases reached.find with found | lost
    · rw [named] at found
      cases found
      simp [Host.holding, Files.get?_erase] at still
    · rw [named] at lost
      cases lost

theorem Dealings.dangles (dealings : Dealings paths targets before after)
    (honest : ∀ path ∈ targets, before.fault? (.stat path) ≠ some Status.noSuchFile) :
    ∀ path ∈ targets, paths.contains path = false → Sftp.Names after.files path →
      Sftp.Dangles after.files path := by
  induction dealings with
  | done => simp
  | next here later ih =>
    obtain ⟨honestHere, honestLater⟩ := List.forall_mem_cons.1 honest
    refine List.forall_mem_cons.2 ⟨fun allowed names => ?_, ?_⟩
    · exact here.dangles allowed honestHere later.within names
    · exact ih fun path member => here.fault? _ ▸ honestLater path member

/-- The entry at the place was taken out for a target that is not protected: in the tree that the target
found at its turn, it named this entry and led to something. -/
def TakenFor (paths : ProtectedPaths) (targets : List String) (before after : Files) (place : String) :
    Prop :=
  ∃ path ∈ targets, paths.contains path = false ∧ ∃ (now : Files) (node : Node),
    Within after now ∧ Within now before ∧ Sftp.find now false path = .ok (place, node) ∧
    ∃ found, Sftp.find now true path = .ok found

/-- Every entry is where it was, or was taken out for a target. -/
theorem Dealings.kept_or_taken (dealings : Dealings paths targets before after) (place : String) :
    after.files.get? place = before.files.get? place ∨
      (after.files.get? place = none ∧ TakenFor paths targets before.files after.files place) := by
  induction dealings with
  | done => exact .inl rfl
  | @next path rest before between after here later ih =>
    have kept : between.files.get? place = before.files.get? place ∨
        (between.files.get? place = none ∧
          TakenFor paths (path :: rest) before.files after.files place) := by
      cases here with
      | isProtected | isMissing => exact .inl rfl
      | @removed gone node allowed found named =>
        by_cases same : place = gone
        · subst same
          obtain ⟨_, looked⟩ := found
          refine .inr ⟨by simp [Host.holding, Files.get?_erase], path, by simp, allowed, before.files, node,
            later.within.trans (Files.erase_within _ _), .refl _, named, find_of_look looked⟩
        · exact .inl (by simp [Host.holding, Files.get?_erase, same])
    rcases ih with same | ⟨gone, target, member, allowed, files, node, smaller, larger, named⟩
    · rw [same]
      exact kept
    · refine .inr ⟨gone, target, List.mem_cons_of_mem _ member, allowed, files, node, smaller,
        larger.trans here.within, named⟩

end Trees

/-- After a deletion that succeeds, a target that is not protected names an entry exactly if it names a link
to nothing, and nothing but what targets named is gone. -/
theorem delete_leaves_dangling_links (setup : Setup) (context : Context) (world : World)
    (targets : List String)
    (honest : ∀ target ∈ targets,
      world.host.fault? (.stat (context.remotePath target)) ≠ some Status.noSuchFile)
    (succeeds : (world.carryOut (Deployment.execute setup context (.delete targets))).1.failure = none) :
    let after := (world.carryOut (Deployment.execute setup context (.delete targets))).2.host.files
    (∀ target ∈ targets, setup.protectedPaths.contains (context.remotePath target) = false →
      (Sftp.Names after (context.remotePath target) ↔ Sftp.Dangles after (context.remotePath target))) ∧
    ∀ place, after.get? place = world.host.files.get? place ∨
      (after.get? place = none ∧ TakenFor setup.protectedPaths (targets.map context.remotePath)
        world.host.files after place) := by
  obtain ⟨transcript, run, answered⟩ := world.carryOut_answers
    (Deployment.execute setup context (.delete targets))
  have executes := executes_of_yields run
  obtain ⟨session, isOpen⟩ : ∃ session, context.session = some session := by
    cases closed : context.session with
    | some session => exact ⟨session, rfl⟩
    | none =>
      have fails := (executes_unconnected rfl closed executes).2
      rw [succeeds] at fails
      cases fails
  have deletion := executes_delete isOpen executes
  rw [succeeds] at deletion
  have dealings := answers_deletion deletion answered
  refine ⟨fun target member allowed => ⟨?_, ?_⟩, dealings.kept_or_taken⟩
  · refine dealings.dangles ?_ _ (List.mem_map_of_mem member) allowed
    simpa using honest
  · rintro ⟨⟨place, target, reaches⟩, _⟩
    exact ⟨place, .link target, reaches⟩

section Examples

/-- Deleting one path, with the test for protection as a match, in which form it can be evaluated. -/
theorem deleteOne_eq (setup : Setup) (session : SessionId) (path : String) :
    deleteOne setup session path = match setup.protectedPaths.contains path with
      | true => Attempt.report (.skipped path .isProtected)
      | false => (do
        let found : Except SessionError Metadata ←
          ExceptT.lift (Dialogue.request (.session session (.stat path)))
        match found with
        | .error (.notFound _) => Attempt.report (.skipped path .isMissing)
        | .error error => throw (.remote error)
        | .ok _ => (Attempt.session session (.remove path)).failingAs .remote) := by
  unfold deleteOne
  cases setup.protectedPaths.contains path <;> rfl

/-- An entry at the top of the tree is named by its name. -/
theorem names_top {files : Files} {name : String} {node : Node} (single : Sftp.segments path = [name])
    (named : name ≠ "..") (there : files.get? (Files.child "/" name) = some node) :
    Sftp.Names files path := by
  refine ⟨Files.child "/" name, node, ?_, there⟩
  rw [single]
  exact .entry named there (.inl ⟨rfl, rfl⟩) (fun more => absurd rfl more) .here

/-- A host with a link to a file and a link to nothing. -/
def linked : World where
  machine := { files := {}, directory := "/" }
  host := {
    home := "/"
    files := {
      nodes := [("/", .directory 0o755), ("/d", .directory 0o755), ("/d/a", .file [120] 0o644),
        ("/e", .directory 0o755), ("/k", .link "d/a"), ("/l", .link "gone")] } }

def atTop : Context := { session := some 0, remoteDirectory := "/" }

/-- The link to the file, an empty directory, the link to nothing, and the first link again, which is missing
by then. -/
def linkedTargets : List String := ["k", "e", "l", "k"]

theorem delete_leaves_dangling_links_linked :
    (∀ target ∈ linkedTargets,
      linked.host.fault? (.stat (atTop.remotePath target)) ≠ some Status.noSuchFile) ∧
    (linked.carryOut (Deployment.execute {} atTop (.delete linkedTargets))).1.failure = none ∧
    let after := (linked.carryOut (Deployment.execute {} atTop (.delete linkedTargets))).2.host.files
    after = { nodes := [("/", .directory 0o755), ("/d", .directory 0o755), ("/d/a", .file [120] 0o644),
      ("/l", .link "gone")] } ∧
    Sftp.Dangles after (atTop.remotePath "l") := by
  have honest : ∀ target ∈ linkedTargets,
      linked.host.fault? (.stat (atTop.remotePath target)) ≠ some Status.noSuchFile := fun _ _ => nofun
  have succeeds : (linked.carryOut
      (Deployment.execute {} atTop (.delete linkedTargets))).1.failure = none := by
    simp only [Deployment.execute, change, deleteAll, deleteOne_eq, linkedTargets]
    cbv
  have left : (linked.carryOut (Deployment.execute {} atTop (.delete linkedTargets))).2.host.files =
      { nodes := [("/", .directory 0o755), ("/d", .directory 0o755), ("/d/a", .file [120] 0o644),
        ("/l", .link "gone")] } := by
    simp only [Deployment.execute, change, deleteAll, deleteOne_eq, linkedTargets]
    cbv
  have allowed : ({} : Setup).protectedPaths.contains (atTop.remotePath "l") = false := by cbv
  have single : Sftp.segments (atTop.remotePath "l") = ["l"] := by cbv
  refine ⟨honest, succeeds, left, ?_⟩
  obtain ⟨leftover, _⟩ := delete_leaves_dangling_links {} atTop linked linkedTargets honest succeeds
  have there : (linked.carryOut (Deployment.execute {} atTop (.delete linkedTargets))).2.host.files.get?
      (Files.child "/" "l") = some (.link "gone") := by
    rw [left]
    cbv
  exact (leftover "l" (by decide) allowed).1 (names_top single (by decide) there)

/-- The deletion succeeds, and its target still names the link. -/
theorem dangling_link_stays :
    ({} : Setup).protectedPaths.contains (atTop.remotePath "l") = false ∧
    (linked.carryOut (Deployment.execute {} atTop (.delete ["l"]))).1.failure = none ∧
    Sftp.Names (linked.carryOut (Deployment.execute {} atTop (.delete ["l"]))).2.host.files
      (atTop.remotePath "l") := by
  have left : (linked.carryOut (Deployment.execute {} atTop (.delete ["l"]))).2.host.files =
      linked.host.files := by
    simp only [Deployment.execute, change, deleteAll, deleteOne_eq]
    cbv
  have single : Sftp.segments (atTop.remotePath "l") = ["l"] := by cbv
  refine ⟨by cbv, ?_, ?_⟩
  · simp only [Deployment.execute, change, deleteAll, deleteOne_eq]
    cbv
  · have there : linked.host.files.get? (Files.child "/" "l") = some (.link "gone") := by cbv
    rw [left]
    exact names_top single (by decide) there

end Examples

end Ssh

end Rollout

import Rollout.Proofs.Discretion
import Rollout.Proofs.Paths
import Rollout.Proofs.Recall

/-!
# Paths that reach a session

A session is given absolute paths in clean form and no others. The working directory begins at the root
from the moment in which a session tells where it starts, and `CD` keeps it so; what is resolved in such a
directory, or joined to a clean path, is clean whatever text it is: a text of the script with any values in
it, a name of a local file, or a name that the remote host gave.
-/

namespace Rollout

open Rollout.Text

namespace RemotePath

/-- The path begins at the root. -/
def Rooted (path : String) : Prop :=
  path.toList.head? = some '/'

/-- The path begins at the root, and after that come only names, each after one slash. It is the root
itself if it ends with a slash. -/
structure IsClean (path : String) : Prop where
  rooted : Rooted path
  names : path = "/" ∨
    ∀ segment ∈ (splitOn '/' path.toList).tail, segment ≠ [] ∧ segment ≠ ['.'] ∧ segment ≠ ['.', '.']

instance (path : String) : Decidable (Rooted path) :=
  inferInstanceAs (Decidable (path.toList.head? = some '/'))

instance (path : String) : Decidable (IsClean path) :=
  decidable_of_iff (Rooted path ∧ (path = "/" ∨
      ∀ segment ∈ (splitOn '/' path.toList).tail, segment ≠ [] ∧ segment ≠ ['.'] ∧ segment ≠ ['.', '.']))
    ⟨fun ⟨rooted, names⟩ => ⟨rooted, names⟩, fun ⟨rooted, names⟩ => ⟨rooted, names⟩⟩

example : IsClean "/srv/app" ∧ IsClean "/" ∧ ¬ IsClean "/srv/" ∧ ¬ IsClean "//srv" ∧ ¬ IsClean "/srv/../app" := by
  decide

theorem rooted_iff {path : String} : Rooted path ↔ isAbsolute path.toList = true := by
  simp [Rooted, isAbsolute]

theorem rooted_append {base : String} (rooted : Rooted base) (more : String) : Rooted (base ++ more) := by
  rw [rooted_iff] at rooted ⊢
  rw [String.toList_append]
  exact isAbsolute_append rooted more.toList

theorem isClean_clean {path : String} (rooted : Rooted path) : IsClean (clean path) := by
  have root := rooted_iff.1 rooted
  have text : (clean path).toList = '/' :: joinWith '/' (parts path.toList) := by
    rw [clean, String.toList_ofList, cleanChars_of_isAbsolute root]
  refine ⟨by simp [Rooted, text], ?_⟩
  by_cases empty : parts path.toList = []
  · exact .inl ((clean_eq_root_iff root).2 empty)
  · have named := parts_isName root
    have pieces : (splitOn '/' (clean path).toList).tail = parts path.toList := by
      rw [text, splitOn, if_pos rfl, splitOn_joinWith (fun part member => (named part member).single) empty]
      rfl
    refine .inr fun segment member => ?_
    rw [pieces] at member
    exact ⟨(named segment member).nonempty, (named segment member).notHere, (named segment member).notAbove⟩

/-- Whatever is joined to a path that begins at the root, the whole is clean. -/
theorem isClean_join {base : String} (rooted : Rooted base) (path : String) : IsClean (join base path) := by
  have nonempty : base.isEmpty = false := by
    rw [← Bool.not_eq_true]
    intro empty
    rw [String.isEmpty_iff.1 empty] at rooted
    cases rooted
  rw [join, nonempty]
  exact isClean_clean (rooted_append (rooted_append rooted "/") path)

theorem isClean_resolve {base : String} (rooted : Rooted base) (path : String) :
    IsClean (resolve base path) := by
  unfold resolve
  split
  next absolute => exact isClean_clean (rooted_iff.2 absolute)
  · exact isClean_join rooted path

end RemotePath

namespace Deployment

open Rollout.RemotePath (Rooted IsClean isClean_join isClean_resolve)
open Rollout.Script (Action Source Step)

/-- Every remote path in the call is clean, and a command runs in a directory that begins at the root. -/
structure SessionCall.Clean (call : SessionCall) : Prop where
  paths : ∀ path ∈ call.remotePaths, IsClean path
  directory : ∀ directory ∈ call.directory?, Rooted directory

/-- If the request is a call of a session, the call is clean. -/
def Request.Clean : Request → Prop
  | .session _ call => call.Clean
  | _ => True

/-- If the exchange tells where a session starts, that begins at the root. -/
def Exchange.StartsRooted : Exchange → Prop
  | ⟨.session _ .home, .ok directory⟩ => Rooted directory
  | _ => True

/-- While there is a session, the working directory begins at the root. -/
def Context.Rooted (context : Context) : Prop :=
  context.session.isSome = true → RemotePath.Rooted context.remoteDirectory

section Actions

variable {setup : Setup} {context : Context} {action : Action} {directory path : String}

/-- What is located from a directory that begins at the root is clean, however deep it lies and whatever the texts
and names are. -/
theorem isClean_of_located (rooted : Rooted directory) (located : Located directory path) : IsClean path := by
  induction located with
  | resolved text => exact isClean_resolve rooted text
  | inside _ name above => exact isClean_join above.rooted name

theorem Belongs.clean {call : SessionCall} (rooted : Rooted context.remoteDirectory)
    (belongs : Belongs (Located context.remoteDirectory) context action call) : call.Clean where
  paths path member := isClean_of_located rooted (belongs.paths path member)
  directory directory member := belongs.directory directory member ▸ rooted

/-- An action in a directory that begins at the root reaches clean paths only. -/
theorem clean_of_reach {request : Request} (rooted : context.Rooted) (reached : reach context action request) :
    request.Clean := by
  cases request with
  | session id call =>
    obtain ⟨isOpen, belongs⟩ := reached
    exact belongs.clean (rooted (by simp [isOpen]))
  | _ => trivial

end Actions

/-- The step begins and ends in a directory that begins at the root, as far as there is a session then. A
`CONNECT` that fails is an exception, since its session may be open and not have told where it starts: the
directory stays what it was, and nothing but the closing of that session comes after it. -/
structure Part.StaysRooted (part : Part) : Prop where
  before : part.before.Rooted
  after : part.outcome.failure = none ∨ ¬ part.IsConnect → part.outcome.context.Rooted
  kept : part.outcome.failure ≠ none → part.outcome.context.remoteDirectory = part.before.remoteDirectory

section Runs

variable {setup : Setup} {context final : Context} {action : Action} {transcript : Transcript}
  {outcome : Outcome} {part : Part} {parts : List Part} {steps : List Step}
  {result : Except RunError Unit}

theorem clean_of_connectReach {request : Request} (reached : connectReach request) : request.Clean := by
  cases request with
  | session id call =>
    rcases reached with rfl | rfl <;>
      exact ⟨by simp [SessionCall.remotePaths], by simp [SessionCall.directory?]⟩
  | _ => trivial

theorem Executes.clean (executes : Executes setup context action transcript outcome)
    (rooted : context.Rooted) : ∀ exchange ∈ transcript, exchange.request.Clean := by
  cases executes with
  | unconnected => simp
  | connects connects => exact fun exchange member => clean_of_connectReach (connects_reach connects exchange member)
  | changed _ connected run | failed _ connected run =>
    exact fun exchange member => clean_of_reach rooted ((change_keeps connected run).asked exchange member)

/-- The directory begins at the root after a `CONNECT` because the session says so, and after a `CD` because
it is resolved in one that does; nothing else touches it. -/
theorem Executes.rooted (executes : Executes setup context action transcript outcome)
    (rooted : context.Rooted) (starts : ∀ exchange ∈ transcript, exchange.StartsRooted)
    (settled : outcome.failure = none ∨ ∀ login, action ≠ .connect login) : outcome.context.Rooted := by
  cases executes with
  | unconnected | failed => exact rooted
  | @connects login _ _ connects =>
    rcases settled with succeeds | other
    · cases connects with
      | @connected _ _ _ _ remoteDirectory _ session =>
        intro _
        exact starts ⟨.session session .home, .ok remoteDirectory⟩ (by simp)
      | _ => cases succeeds
    · exact absurd rfl (other login)
  | changed other connected run =>
    have changes := (change_keeps connected run).ended
    cases action with
    | connect login => exact absurd rfl (other login)
    | cd target =>
      obtain rfl := changes
      intro isOpen
      exact (isClean_resolve (rooted isOpen) target).rooted
    | var key source =>
      obtain ⟨value, rfl⟩ := changes
      exact rooted
    | _ =>
      obtain rfl := changes
      exact rooted

theorem Part.Happens.clean (happens : part.Happens setup) (rooted : part.before.Rooted) :
    ∀ exchange ∈ part.transcript, exchange.request.Clean :=
  happens.executes.clean rooted

/-- An action that fails leaves the directory as it was. -/
theorem Executes.directory (executes : Executes setup context action transcript outcome)
    (fails : outcome.failure ≠ none) : outcome.context.remoteDirectory = context.remoteDirectory := by
  cases executes with
  | unconnected | failed => rfl
  | connects connects =>
    cases connects with
    | connected => exact absurd rfl fails
    | _ => rfl
  | changed => exact absurd rfl fails

theorem Part.Happens.staysRooted (happens : part.Happens setup) (rooted : part.before.Rooted)
    (starts : ∀ exchange ∈ part.transcript, exchange.StartsRooted) : part.StaysRooted where
  before := rooted
  after settled := happens.executes.rooted rooted starts <|
    settled.imp_right fun other _ connects => other (part.isConnect_of_action connects)
  kept := happens.executes.directory

/-- Along a course every path is clean, and the directory begins at the root. -/
theorem Course.clean (course : Course setup steps context parts final result transcript)
    (rooted : context.Rooted) (starts : ∀ exchange ∈ transcript, exchange.StartsRooted) :
    (∀ exchange ∈ transcript, exchange.request.Clean) ∧ ∀ part ∈ parts, part.StaysRooted := by
  induction course with
  | finished => simp [Request.Clean]
  | failed happens =>
    exact ⟨happens.clean rooted, by simpa using happens.staysRooted rooted starts⟩
  | passed happens succeeds _ ih =>
    obtain ⟨here, later⟩ := List.forall_mem_append.1 starts
    have stays := happens.staysRooted rooted here
    obtain ⟨clean, staying⟩ := ih (stays.after (.inl succeeds)) (List.forall_mem_cons.1 later).2
    refine ⟨List.forall_mem_append.2 ⟨happens.clean rooted, ?_⟩, List.forall_mem_cons.2 ⟨stays, staying⟩⟩
    exact List.forall_mem_cons.2 ⟨trivial, clean⟩

/-- In a run in which each session starts in a directory that begins at the root, whatever is answered
besides, every step begins and ends in such a directory, and all remote paths that reach a session are
clean. -/
theorem run_paths_clean (setup : Setup) (script : Script) (behaviour : Behaviour)
    (starts : ∀ exchange ∈ ((run setup script).under behaviour []).1, exchange.StartsRooted) :
    (∀ part ∈ partsUnder setup behaviour script.steps {} [], part.StaysRooted) ∧
      ∀ exchange ∈ ((run setup script).under behaviour []).1, exchange.request.Clean := by
  have course := course_under setup behaviour script.steps {} []
  rw [run_under] at starts ⊢
  obtain ⟨during, _⟩ := List.forall_mem_append.1 starts
  obtain ⟨clean, stays⟩ := course.clean (by simp [Context.Rooted]) during
  refine ⟨stays, List.forall_mem_append.2 ⟨clean, fun exchange member => ?_⟩⟩
  exact clean_of_connectReach (disconnect_under_reach _ _ _ exchange member)

end Runs

theorem failingWorld_starts (value : String) (past : Transcript) (request : Request) :
    Exchange.StartsRooted ⟨request, failingWorld value past request⟩ := by
  cases request with
  | session id call =>
    cases call with
    | home => exact (by decide : Rooted "/")
    | _ => trivial
  | _ => trivial

/-- Dots and slashes of the script and of a value come down to one name. -/
theorem run_paths_clean_dots :
    let said := ((run {} (tokenScript (.delete ["../\x7b\x7bT\x7d\x7d/.//x/"]))).under (failingWorld "a/..") []).1
    (∀ exchange ∈ said, exchange.StartsRooted) ∧ (∀ exchange ∈ said, exchange.request.Clean) ∧
      .session 0 (.stat "/x") ∈ said.map (·.request) := by
  intro said
  have starts : ∀ exchange ∈ said, exchange.StartsRooted :=
    Dialogue.forall_under (failingWorld_starts "a/..") _ _
  exact ⟨starts, (run_paths_clean {} _ (failingWorld "a/..") starts).2, by decide +kernel⟩

/-- A world like that one, in which nobody knows the current directory. -/
def strandedWorld : Behaviour
  | _, .machine .currentDirectory => (.error (.os .noEntry) : Except IoError String)
  | past, request => failingWorld "" past request

theorem strandedWorld_starts (past : Transcript) (request : Request) :
    Exchange.StartsRooted ⟨request, strandedWorld past request⟩ := by
  cases request with
  | machine call => cases call <;> trivial
  | _ => exact failingWorld_starts "" past _

/-- A `CONNECT` that fails once its session has told where it starts leaves that session open, in no directory. -/
theorem failed_connect_unrooted :
    let script := tokenScript (.delete ["x"])
    (∀ exchange ∈ ((run {} script).under strandedWorld []).1, exchange.StartsRooted) ∧
      ∃ part ∈ partsUnder {} strandedWorld script.steps {} [],
        ⟨.session 0 .home, .ok "/"⟩ ∈ part.transcript ∧ part.outcome.context.session = some 0 ∧
          part.outcome.context.remoteDirectory = "" ∧ ¬ part.outcome.context.Rooted := by
  refine ⟨Dialogue.forall_under strandedWorld_starts _ _, ?_⟩
  let parts := partsUnder {} strandedWorld (tokenScript (.delete ["x"])).steps {} []
  let last := parts.get ⟨1, by decide⟩
  have isOpen : last.outcome.context.session = some 0 := by decide
  have nowhere : last.outcome.context.remoteDirectory = "" := by decide
  refine ⟨last, List.get_mem _ _, .tail _ (.head _), isOpen, nowhere, fun rooted => ?_⟩
  have starts := rooted (by simp [isOpen])
  rw [nowhere] at starts
  cases starts

end Deployment

end Rollout

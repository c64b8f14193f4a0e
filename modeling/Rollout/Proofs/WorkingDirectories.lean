import Rollout.Proofs.CanonicalPaths
import Rollout.Proofs.Discretion
import Rollout.Proofs.Ownership

/-!
# Working directories

A change of directory is cleaned at once, and so is what is resolved in the directory later. Nothing is lost by
that: what a path comes down to, and whether it is absolute, is all that cleaning a longer path depends on. So
two changes of directory are one, and after any number of them a path means what the whole way to it, written
with a slash between each part and the next, comes down to.
-/

namespace Rollout

open Rollout.Text

namespace RemotePath

variable {cwd path more : String}

theorem isAbsolute_below (nonempty : path ≠ "") (more : String) :
    isAbsolute (path ++ "/" ++ more).toList = isAbsolute path.toList := by
  obtain ⟨c, rest, text⟩ := List.exists_cons_of_ne_nil fun empty => nonempty (String.toList_eq_nil_iff.1 empty)
  simp [isAbsolute, text]

/-- Below a path, its segments come first. -/
theorem parts_below (nonempty : path ≠ "") (more : String) :
    parts (path ++ "/" ++ more).toList =
      ((splitOn '/' more.toList).foldl (push (isAbsolute path.toList)) (parts path.toList).reverse).reverse := by
  have text : (path ++ "/" ++ more).toList = path.toList ++ '/' :: more.toList := by simp
  rw [parts, isAbsolute_below nonempty, text, splitOn_append_mark, List.foldl_append, parts, List.reverse_reverse]

theorem render_ne_nil (absolute : Bool) (segments : List (List Char)) : render absolute segments ≠ [] := by
  unfold render
  split
  · simp
  · split
    · simp
    next shown => simpa using shown

theorem clean_ne_empty (path : String) : clean path ≠ "" := by
  intro empty
  have text : cleanChars path.toList = [] := by
    have nothing : (String.ofList (cleanChars path.toList)).toList = [] := String.toList_eq_nil_iff.2 empty
    rwa [String.toList_ofList] at nothing
  exact render_ne_nil _ _ text

/-- Cleaning a path before more is put below it makes no difference. -/
theorem clean_below (nonempty : path ≠ "") (more : String) :
    clean (clean path ++ "/" ++ more) = clean (path ++ "/" ++ more) := by
  obtain ⟨absolute, segments⟩ := parts_clean path
  have written := clean_ne_empty path
  have rooted : isAbsolute (clean path ++ "/" ++ more).toList = isAbsolute (path ++ "/" ++ more).toList := by
    rw [isAbsolute_below written, isAbsolute_below nonempty, absolute]
  have same : parts (clean path ++ "/" ++ more).toList = parts (path ++ "/" ++ more).toList := by
    rw [parts_below written, parts_below nonempty, absolute, segments]
  exact congrArg String.ofList (congrArg₂ render rooted same)

/-- The path as it is written from where the directory is: an absolute path replaces the directory. -/
def seenFrom (cwd path : String) : String :=
  if isAbsolute path.toList || cwd.isEmpty then path else cwd ++ "/" ++ path

theorem resolve_eq (cwd path : String) : resolve cwd path = clean (seenFrom cwd path) := by
  unfold resolve join seenFrom
  cases isAbsolute path.toList <;> cases cwd.isEmpty <;> rfl

theorem seenFrom_below (nonempty : path ≠ "") (cwd more : String) :
    seenFrom cwd (path ++ "/" ++ more) = seenFrom cwd path ++ "/" ++ more := by
  unfold seenFrom
  rw [isAbsolute_below nonempty]
  split
  · rfl
  · simp [String.append_assoc]

theorem seenFrom_ne_empty (nonempty : path ≠ "") (cwd : String) : seenFrom cwd path ≠ "" := by
  unfold seenFrom
  split
  · exact nonempty
  · simp

/-- What is relative is resolved below a directory that is cleaned. -/
theorem resolve_clean (relative : isAbsolute more.toList = false) :
    resolve (clean path) more = clean (clean path ++ "/" ++ more) := by
  have written := clean_ne_empty path
  rw [resolve_eq, seenFrom, relative, if_neg (by simpa using written)]

/-- Resolving in two steps is resolving in one. -/
theorem resolve_resolve (nonempty : path ≠ "") (relative : isAbsolute more.toList = false) (cwd : String) :
    resolve (resolve cwd path) more = resolve cwd (path ++ "/" ++ more) := by
  rw [resolve_eq cwd path, resolve_clean relative, clean_below (seenFrom_ne_empty nonempty cwd), resolve_eq,
    seenFrom_below nonempty]

/-- The way from a directory along paths, with a slash between each and the next. -/
def way (directory : String) (paths : List String) : String :=
  paths.foldl (fun way path => way ++ "/" ++ path) directory

/-- Cleaning the beginning of a way makes no difference. -/
theorem clean_way (nonempty : path ≠ "") (paths : List String) :
    clean (way (clean path) paths) = clean (way path paths) := by
  induction paths generalizing path with
  | nil => exact clean_clean path
  | cons next rest ih =>
    have written : clean path ++ "/" ++ next ≠ "" := by simp
    have whole : path ++ "/" ++ next ≠ "" := by simp
    calc clean (way (clean path ++ "/" ++ next) rest)
        = clean (way (clean (clean path ++ "/" ++ next)) rest) := (ih written).symm
      _ = clean (way (clean (path ++ "/" ++ next)) rest) := by rw [clean_below nonempty]
      _ = clean (way (path ++ "/" ++ next) rest) := ih whole

/-- Resolving relative paths one in the other is cleaning the whole way. -/
theorem resolve_foldl {targets : List String} (nonempty : cwd ≠ "")
    (relative : ∀ target ∈ targets, isAbsolute target.toList = false) (here : isAbsolute path.toList = false) :
    resolve (targets.foldl resolve cwd) path = clean (way cwd (targets ++ [path])) := by
  induction targets generalizing cwd with
  | nil => rw [List.foldl_nil, resolve_eq, seenFrom, here, if_neg (by simpa using nonempty)]; rfl
  | cons target rest ih =>
    obtain ⟨first, later⟩ := List.forall_mem_cons.1 relative
    have moved : resolve cwd target = clean (cwd ++ "/" ++ target) := by
      rw [resolve_eq, seenFrom, first, if_neg (by simpa using nonempty)]
    rw [List.foldl_cons, moved, ih (clean_ne_empty _) later, clean_way (by simp)]
    rfl

end RemotePath

namespace Deployment

open Rollout.RemotePath (isAbsolute clean resolve way)
open Rollout.Script (Action Step)

/-- Where an action changes the directory to, if it does. -/
def destination? : Action → Option String
  | .cd target => some target
  | _ => none

/-- The targets of the `CD` steps among the parts, their placeholders resolved. -/
def destinations (parts : List Part) : List String :=
  parts.filterMap fun part => destination? part.action

section Parts

variable {setup : Setup} {steps : List Step} {context final : Context} {parts : List Part} {part : Part}
  {result : Except RunError Unit} {transcript : Transcript}

theorem execute_cd (setup : Setup) (context : Context) (connected : context.session.isSome = true)
    (target : String) : execute setup context (.cd target) =
      .done { context := { context with remoteDirectory := context.remotePath target } } := by
  have isOpen : context.session.isNone = false := by simpa using connected
  rw [execute, isOpen]
  · rfl
  · simp

theorem Effects.directory {action : Action} {before after : Context} (effects : Effects action before after)
    (stays : ∀ login, action ≠ .connect login) :
    after.remoteDirectory = (destination? action).toList.foldl resolve before.remoteDirectory := by
  cases action with
  | connect login => exact absurd rfl (stays login)
  | var key source =>
    obtain ⟨value, rfl⟩ := effects
    rfl
  | _ =>
    obtain rfl := effects
    rfl

/-- One step: the directory moves along with a `CD` and stays where it is with anything else but a connect. -/
theorem Part.Happens.directory (happens : part.Happens setup) (succeeds : part.outcome.failure = none)
    (stays : ¬ part.IsConnect) : part.outcome.context.remoteDirectory =
      (destination? part.action).toList.foldl resolve part.before.remoteDirectory := by
  have effects := happens.executes.effects
  rw [succeeds] at effects
  have moved : part.outcome.context.remoteDirectory =
      (destination? part.action).toList.foldl resolve part.during.remoteDirectory :=
    Effects.directory effects fun login connects => stays (part.isConnect_of_action connects)
  exact moved

/-- All steps: up to the next connect, the directory is where the `CD` steps lead one after the other. -/
theorem Course.directory (course : Course setup steps context parts final result transcript)
    {before after : List Part} (split : parts = before ++ part :: after)
    (stays : ∀ earlier ∈ before, ¬ earlier.IsConnect) :
    part.before.remoteDirectory = (destinations before).foldl resolve context.remoteDirectory := by
  induction course generalizing before with
  | finished => simp at split
  | failed =>
    cases before with
    | nil =>
      obtain ⟨rfl, -⟩ := List.cons.inj split
      rfl
    | cons => simp at split
  | @passed first _ _ _ _ _ happens succeeds _ ih =>
    cases before with
    | nil =>
      obtain ⟨rfl, -⟩ := List.cons.inj split
      rfl
    | cons head before =>
      obtain ⟨rfl, later⟩ := List.cons.inj split
      obtain ⟨here, others⟩ := List.forall_mem_cons.1 stays
      rw [ih later others, happens.directory succeeds here, ← List.foldl_append]
      cases written : destination? first.action <;> simp [destinations, written]

/-- Some steps of a course after one of them: the directory is where the `CD` steps lead from what that one
left. -/
theorem Course.directory_since (course : Course setup steps context parts final result transcript)
    {earlier since later : List Part} {opening : Part}
    (split : parts = earlier ++ opening :: (since ++ part :: later))
    (stays : ∀ between ∈ since, ¬ between.IsConnect) :
    part.before.remoteDirectory =
      (destinations since).foldl resolve opening.outcome.context.remoteDirectory := by
  induction course generalizing earlier with
  | finished => simp at split
  | failed => cases earlier <;> simp at split
  | passed _ _ course ih =>
    cases earlier with
    | nil =>
      obtain ⟨rfl, rest⟩ := List.cons.inj split
      exact course.directory rest stays
    | cons head earlier => exact ih (List.cons.inj split).2

end Parts

/-- Changes of directory compose. What is resolved in a directory that was resolved is resolved along both at
once, so two `CD` steps leave the context that the one `CD` along both leaves. And whatever a run did before
and does in between, a step that comes after `CD` steps to relative targets finds a relative path at the end of
the whole way from the directory in which these began. -/
theorem directories_compose :
    (∀ cwd path more, path ≠ "" → isAbsolute more.toList = false →
      resolve (resolve cwd path) more = resolve cwd (path ++ "/" ++ more)) ∧
    (∀ setup context path more, context.session.isSome = true → path ≠ "" → isAbsolute more.toList = false →
      ∃ between after, execute setup context (.cd path) = .done { context := between } ∧
        execute setup between (.cd more) = .done { context := after } ∧
        execute setup context (.cd (path ++ "/" ++ more)) = .done { context := after }) ∧
    ∀ setup behaviour steps context past earlier opening since part later,
      partsUnder setup behaviour steps context past = earlier ++ opening :: (since ++ part :: later) →
      (∀ between ∈ since, ¬ between.IsConnect) → opening.outcome.context.remoteDirectory ≠ "" →
      (∀ target ∈ destinations since, isAbsolute target.toList = false) →
      ∀ path, isAbsolute path.toList = false → part.during.remotePath path =
        clean (way opening.outcome.context.remoteDirectory (destinations since ++ [path])) := by
  refine ⟨fun cwd path more some relative => RemotePath.resolve_resolve some relative cwd, ?_, ?_⟩
  · intro setup context path more connected nonempty relative
    let between : Context := { context with remoteDirectory := context.remotePath path }
    refine ⟨between, _, execute_cd setup context connected path, execute_cd setup between connected more, ?_⟩
    rw [execute_cd setup context connected, Context.remotePath, ← RemotePath.resolve_resolve nonempty relative]
    rfl
  · intro setup behaviour steps context past earlier opening since part later split stays nonempty relative path here
    have directory := (course_under setup behaviour steps context past).directory_since split stays
    rw [Context.remotePath, Part.during, directory]
    exact RemotePath.resolve_foldl nonempty relative here

def windingSteps : List Step :=
  [⟨.connect { username := "u", host := "h", port := 22, password := some "p" }, 1⟩,
    ⟨.cd "a//b/.", 2⟩, ⟨.env "K" "v", 3⟩, ⟨.cd "../../../c", 4⟩, ⟨.run "ls", 5⟩]

/-- Above the root the way goes on from the root, whatever stands between the two changes. -/
theorem directories_compose_above_root : ∃ opening since part,
    partsUnder {} (failingWorld "") windingSteps {} [] = opening :: (since ++ [part]) ∧
      destinations since = ["a//b/.", "../../../c"] ∧
      opening.outcome.context.remoteDirectory = "/" ∧
      part.during.remotePath "x" = clean "//a//b/./../../../c/x" ∧ clean "//a//b/./../../../c/x" = "/c/x" := by
  refine ⟨_, [_, _, _], _, rfl, by decide +kernel, by decide +kernel, ?_, by decide +kernel⟩
  have led := directories_compose.2.2 {} (failingWorld "") windingSteps {} [] [] _ [_, _, _] _ [] rfl
    (by simp [Part.IsConnect, partUnder]) (by decide +kernel) (by decide +kernel) "x" (by decide)
  refine led.trans (congrArg clean ?_)
  decide +kernel

end Deployment

end Rollout

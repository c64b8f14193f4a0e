import Rollout.Proofs.Course

/-!
# Guarded deletion

Only a `DELETE` removes anything. It looks at its targets one by one: a protected target is skipped
without a call, a missing one after a look, and anything else is removed directly after a look that
found it. What counts as protected is decided on the clean form of the path that is removed, so neither
the spelling of a target nor the directory in which it is resolved makes a difference.
-/

namespace Rollout

theorem ProtectedPaths.contains_eq_false_iff {paths : ProtectedPaths} {path : String} :
    paths.contains path = false ↔
      RemotePath.clean path ∉ ProtectedPaths.builtIn ∧
        ∀ entry ∈ paths.extra, RemotePath.clean path ≠ RemotePath.clean entry := by
  unfold ProtectedPaths.contains
  rw [← Bool.not_eq_true, Bool.or_eq_true, not_or, List.contains_iff_mem, List.any_eq_true]
  simp only [decide_eq_true_eq, not_exists, not_and]
  refine and_congr_right fun _ => forall_congr' fun entry => imp_congr_right fun _ => ?_
  exact not_congr eq_comm

namespace Deployment

open Rollout.Script (Action Step)

/-- The ways in which a resolved target can be dealt with, and the failure that ends the step if there is
one. -/
inductive Deletes (setup : Setup) (session : SessionId) (path : String) :
    Transcript → Option ActionError → Prop
  | isProtected (guarded : setup.protectedPaths.contains path = true) :
      Deletes setup session path [⟨.report (.skipped path .isProtected), ()⟩] none
  | isMissing {reason : String} (allowed : setup.protectedPaths.contains path = false) :
      Deletes setup session path
        [⟨.session session (.stat path), .error (.notFound reason)⟩,
          ⟨.report (.skipped path .isMissing), ()⟩] none
  | unknown {error : SessionError} (allowed : setup.protectedPaths.contains path = false)
      (other : ∀ reason, error ≠ .notFound reason) :
      Deletes setup session path [⟨.session session (.stat path), .error error⟩]
        (some (.remote error))
  | removed {metadata : Metadata} (allowed : setup.protectedPaths.contains path = false) :
      Deletes setup session path
        [⟨.session session (.stat path), .ok metadata⟩, ⟨.session session (.remove path), .ok ()⟩] none
  | kept {metadata : Metadata} {error : SessionError}
      (allowed : setup.protectedPaths.contains path = false) :
      Deletes setup session path
        [⟨.session session (.stat path), .ok metadata⟩,
          ⟨.session session (.remove path), .error error⟩] (some (.remote error))

/-- Targets dealt with in order, up to the first failure. -/
inductive Deletion (setup : Setup) (session : SessionId) :
    List String → Transcript → Option ActionError → Prop
  | done : Deletion setup session [] [] none
  | stopped {path : String} {rest : List String} {transcript : Transcript} {failure : ActionError}
      (fails : Deletes setup session path transcript (some failure)) :
      Deletion setup session (path :: rest) transcript (some failure)
  | next {path : String} {rest : List String} {first later : Transcript} {failure : Option ActionError}
      (passes : Deletes setup session path first none)
      (onward : Deletion setup session rest later failure) :
      Deletion setup session (path :: rest) (first ++ later) failure

/-- Every removal is of an unprotected path and comes directly after a look that found it. -/
inductive Guarded (paths : ProtectedPaths) : Transcript → Prop
  | nil : Guarded paths []
  | other {exchange : Exchange} {rest : Transcript}
      (harmless : ∀ session path, exchange.request ≠ .session session (.remove path))
      (later : Guarded paths rest) : Guarded paths (exchange :: rest)
  | removal {session : SessionId} {path : String} {metadata : Metadata}
      {answer : Except SessionError Unit} {rest : Transcript}
      (allowed : paths.contains path = false) (later : Guarded paths rest) :
      Guarded paths (⟨.session session (.stat path), .ok metadata⟩ ::
        ⟨.session session (.remove path), answer⟩ :: rest)

/-- The part deletes the targets of the script, as they are substituted and resolved when its turn comes.
Without a session it fails at once. -/
def Part.CarriesOut (setup : Setup) (part : Part) (targets : List String) : Prop :=
  match part.before.session with
  | none => part.transcript = [] ∧ part.outcome.failure = some .notConnected
  | some session =>
    Deletion setup session
      (targets.map fun target => part.before.remotePath (part.before.bindings.substitute target))
      part.transcript part.outcome.failure

def failureOf {α : Type} : Except ActionError α → Option ActionError
  | .ok _ => none
  | .error failure => some failure

theorem deletes_of_yields {setup : Setup} {session : SessionId} {path : String}
    {transcript : Transcript} {result : Except ActionError Unit}
    (run : (deleteOne setup session path).run.Yields transcript result) :
    Deletes setup session path transcript (failureOf result) := by
  unfold deleteOne at run
  split at run
  next guarded =>
    obtain ⟨rfl, rfl⟩ := Attempt.yields_report_iff.1 run
    exact .isProtected guarded
  next unguarded =>
    have allowed : setup.protectedPaths.contains path = false := by simpa using unguarded
    rcases Attempt.yields_bind_iff.1 run with ⟨_, failed, _⟩ | ⟨_, found, _, looked, later, rfl⟩
    · obtain ⟨_, _, impossible⟩ := Attempt.yields_lift_iff.1 failed
      cases impossible
    · obtain ⟨_, asked, same⟩ := Attempt.yields_lift_iff.1 looked
      cases same
      obtain rfl := Dialogue.yields_request_iff.1 asked
      split at later
      · obtain ⟨rfl, rfl⟩ := Attempt.yields_report_iff.1 later
        exact .isMissing allowed
      next error other =>
        obtain ⟨rfl, rfl⟩ := Attempt.yields_throw_iff.1 later
        exact .unknown allowed other
      · obtain ⟨answer, removed, rfl⟩ := Attempt.yields_failingAs_iff.1 later
        obtain rfl := Attempt.yields_session_iff.1 removed
        cases answer with
        | ok value => exact .removed allowed
        | error error => exact .kept allowed

theorem deletion_of_yields {setup : Setup} {context : Context} {session : SessionId}
    {targets : List String} {transcript : Transcript} {result : Except ActionError Unit}
    (run : (deleteAll setup context session targets).run.Yields transcript result) :
    Deletion setup session (targets.map context.remotePath) transcript (failureOf result) := by
  induction targets generalizing transcript with
  | nil =>
    obtain ⟨rfl, rfl⟩ := Attempt.yields_pure_iff.1 run
    exact .done
  | cons target rest ih =>
    rcases Attempt.yields_bind_iff.1 run with ⟨_, failed, rfl⟩ | ⟨_, _, _, passed, later, rfl⟩
    · exact .stopped (deletes_of_yields failed)
    · exact .next (deletes_of_yields passed) (ih later)

theorem deletion_of_change {setup : Setup} {context : Context} {session : SessionId}
    {targets : List String} {transcript : Transcript} {result : Except ActionError Context}
    (isOpen : context.session = some session)
    (run : (change setup context (.delete targets)).run.Yields transcript result) :
    Deletion setup session (targets.map context.remotePath) transcript (failureOf result) := by
  simp only [change, sessionOf, isOpen] at run
  rcases Attempt.yields_bind_iff.1 run with ⟨_, impossible, _⟩ | ⟨_, _, _, found, rest, rfl⟩
  · cases (Attempt.yields_pure_iff.1 impossible).2
  · obtain ⟨rfl, same⟩ := Attempt.yields_pure_iff.1 found
    cases same
    rcases Attempt.yields_bind_iff.1 rest with ⟨_, failed, rfl⟩ | ⟨_, _, _, passed, atEnd, rfl⟩
    · exact deletion_of_yields failed
    · obtain ⟨rfl, rfl⟩ := Attempt.yields_pure_iff.1 atEnd
      rw [List.append_nil]
      exact deletion_of_yields passed

theorem executes_delete {setup : Setup} {context : Context} {targets : List String}
    {transcript : Transcript} {outcome : Outcome} {session : SessionId}
    (isOpen : context.session = some session)
    (executes : Executes setup context (.delete targets) transcript outcome) :
    Deletion setup session (targets.map context.remotePath) transcript outcome.failure := by
  cases executes with
  | unconnected _ closed => simp [isOpen] at closed
  | changed _ _ run | failed _ _ run => exact deletion_of_change isOpen run

/-- Without a session, an action that needs one fails unsaid. -/
theorem executes_unconnected {setup : Setup} {context : Context} {action : Action}
    {transcript : Transcript} {outcome : Outcome} (needed : action.needsConnection = true)
    (closed : context.session = none)
    (executes : Executes setup context action transcript outcome) :
    transcript = [] ∧ outcome.failure = some .notConnected := by
  cases executes with
  | unconnected => exact ⟨rfl, rfl⟩
  | connects => cases needed
  | changed _ connected | failed _ connected =>
    have isOpen := connected needed
    simp [closed] at isOpen

namespace Guarded

variable {paths : ProtectedPaths} {first second transcript : Transcript}

theorem append (before : Guarded paths first) (after : Guarded paths second) :
    Guarded paths (first ++ second) := by
  induction before with
  | nil => exact after
  | other harmless _ ih => exact .other harmless ih
  | removal allowed _ ih => exact .removal allowed ih

theorem of_harmless
    (harmless : ∀ exchange ∈ transcript, ∀ session path,
      exchange.request ≠ .session session (.remove path)) : Guarded paths transcript := by
  induction transcript with
  | nil => exact .nil
  | cons exchange rest ih =>
    obtain ⟨here, there⟩ := List.forall_mem_cons.1 harmless
    exact .other here (ih there)

/-- A removal in a guarded transcript. -/
theorem before_removal {before after : Transcript} {session : SessionId} {path : String}
    {answer : Except SessionError Unit} (guarded : Guarded paths transcript)
    (split : transcript = before ++ ⟨.session session (.remove path), answer⟩ :: after) :
    paths.contains path = false ∧
      ∃ earlier metadata, before = earlier ++ [⟨.session session (.stat path), .ok metadata⟩] := by
  induction guarded generalizing before with
  | nil => simp at split
  | @other exchange rest harmless _ ih =>
    cases before with
    | nil =>
      obtain ⟨rfl, _⟩ := List.cons.inj split
      exact absurd rfl (harmless session path)
    | cons head tail =>
      obtain ⟨rfl, rest⟩ := List.cons.inj split
      obtain ⟨allowed, earlier, metadata, rfl⟩ := ih rest
      exact ⟨allowed, exchange :: earlier, metadata, rfl⟩
  | @removal guardedSession guardedPath found _ _ allowed _ ih =>
    match before, split with
    | [_], split =>
      simp only [List.cons_append, List.nil_append, List.cons.injEq] at split
      obtain ⟨rfl, removal, _⟩ := split
      cases removal
      exact ⟨allowed, [], found, rfl⟩
    | first :: second :: tail, split =>
      simp only [List.cons_append, List.cons.injEq] at split
      obtain ⟨rfl, rfl, rest⟩ := split
      obtain ⟨free, earlier, metadata, rfl⟩ := ih rest
      exact ⟨free, _ :: _ :: earlier, metadata, rfl⟩

end Guarded

theorem Deletes.guarded {setup : Setup} {session : SessionId} {path : String}
    {transcript : Transcript} {failure : Option ActionError}
    (deletes : Deletes setup session path transcript failure) :
    Guarded setup.protectedPaths transcript := by
  cases deletes with
  | isProtected | isMissing | unknown => exact .of_harmless (by simp)
  | removed allowed | kept allowed => exact .removal allowed .nil

theorem Deletion.guarded {setup : Setup} {session : SessionId} {paths : List String}
    {transcript : Transcript} {failure : Option ActionError}
    (deletion : Deletion setup session paths transcript failure) :
    Guarded setup.protectedPaths transcript := by
  induction deletion with
  | done => exact .nil
  | stopped fails => exact fails.guarded
  | next passes _ ih => exact passes.guarded.append ih

/-- An action that removes something is a deletion. -/
theorem executes_remove {setup : Setup} {context : Context} {action : Action}
    {transcript : Transcript} {outcome : Outcome}
    (executes : Executes setup context action transcript outcome) {exchange : Exchange}
    (member : exchange ∈ transcript) {session : SessionId} {path : String}
    (removes : exchange.request = .session session (.remove path)) :
    ∃ targets, action = .delete targets := by
  have within := executes_reach executes exchange member
  rw [removes] at within
  rcases within with impossible | ⟨_, own, _⟩
  · simp [connectReach] at impossible
  · cases action with
    | delete targets => exact ⟨targets, rfl⟩
    | _ => exact own.elim

theorem Part.Happens.remove {setup : Setup} {part : Part} (happens : part.Happens setup)
    {exchange : Exchange} (member : exchange ∈ part.transcript) {session : SessionId} {path : String}
    (removes : exchange.request = .session session (.remove path)) :
    ∃ targets, part.step.action = .delete targets := by
  obtain ⟨targets, same⟩ := executes_remove happens.executes member removes
  unfold Part.action at same
  cases written : part.step.action with
  | delete targets => exact ⟨targets, rfl⟩
  | _ => simp [written, Action.substitute] at same

/-- One step: a deletion deals with its substituted targets where the run has got to. -/
theorem Part.Happens.carriesOut {setup : Setup} {part : Part} (happens : part.Happens setup)
    {targets : List String} (written : part.step.action = .delete targets) :
    part.CarriesOut setup targets := by
  have executes := happens.executes
  have action : part.action = .delete (targets.map part.before.bindings.substitute) := by
    rw [Part.action, written]
    rfl
  rw [action] at executes
  unfold Part.CarriesOut
  split
  next closed =>
    have during : part.during.session = none := closed
    exact executes_unconnected rfl during executes
  next session isOpen =>
    have during : part.during.session = some session := isOpen
    have deletion := executes_delete during executes
    rwa [List.map_map] at deletion

theorem Part.Happens.guarded {setup : Setup} {part : Part} (happens : part.Happens setup) :
    Guarded setup.protectedPaths part.transcript := by
  by_cases deletes : ∃ targets, part.step.action = .delete targets
  · obtain ⟨targets, written⟩ := deletes
    have carriesOut := happens.carriesOut written
    unfold Part.CarriesOut at carriesOut
    split at carriesOut
    · rw [carriesOut.1]
      exact .nil
    · exact carriesOut.guarded
  · refine .of_harmless fun exchange member session path removes => ?_
    exact deletes (happens.remove member removes)

theorem Course.happens {setup : Setup} {steps : List Step} {context final : Context}
    {parts : List Part} {result : Except RunError Unit} {transcript : Transcript}
    (course : Course setup steps context parts final result transcript) :
    ∀ part ∈ parts, part.Happens setup := by
  induction course with
  | finished => simp
  | failed happens => simpa using happens
  | passed happens _ _ ih => exact List.forall_mem_cons.2 ⟨happens, ih⟩

/-- All steps: their removals are guarded. -/
theorem Course.guarded {setup : Setup} {steps : List Step} {context final : Context}
    {parts : List Part} {result : Except RunError Unit} {transcript : Transcript}
    (course : Course setup steps context parts final result transcript) :
    Guarded setup.protectedPaths transcript := by
  induction course with
  | finished => exact .of_harmless (by simp)
  | failed happens => exact happens.guarded
  | passed happens _ _ ih =>
    exact happens.guarded.append (.other (fun _ _ told => nomatch told) ih)

/-- Apart from the reports that steps are over, all that is said is said during the steps. -/
theorem Course.member {setup : Setup} {steps : List Step} {context final : Context}
    {parts : List Part} {result : Except RunError Unit} {transcript : Transcript}
    (course : Course setup steps context parts final result transcript) :
    ∀ exchange ∈ transcript, (∃ part ∈ parts, exchange ∈ part.transcript) ∨
      ∃ report, exchange.request = .report report := by
  induction course with
  | finished context => simp
  | @failed part => exact fun exchange member => .inl ⟨part, by simp, member⟩
  | @passed part _ _ _ _ _ _ _ _ ih =>
    intro exchange member
    rcases List.mem_append.1 member with here | later
    · exact .inl ⟨part, by simp, here⟩
    · rcases List.mem_cons.1 later with rfl | there
      · exact .inr ⟨_, rfl⟩
      · rcases ih exchange there with ⟨other, among, said⟩ | told
        · exact .inl ⟨other, List.mem_cons_of_mem _ among, said⟩
        · exact .inr told

/-- In every run, a removal is of an unprotected path, comes directly after a look that found it, and
belongs to a `DELETE`; and each `DELETE` deals with its targets, as they are substituted and resolved when
its turn comes, in order and up to the first failure. -/
theorem run_deletes_guarded (setup : Setup) (script : Script) (behaviour : Behaviour) :
    let run := (run setup script).under behaviour []
    (∀ before session path answer after,
      run.1 = before ++ ⟨.session session (.remove path), answer⟩ :: after →
        RemotePath.clean path ∉ ProtectedPaths.builtIn ∧
        (∀ entry ∈ setup.protectedPaths.extra, RemotePath.clean path ≠ RemotePath.clean entry) ∧
        ∃ earlier metadata, before = earlier ++ [⟨.session session (.stat path), .ok metadata⟩]) ∧
    ∃ parts final steps closing, Course setup script.steps {} parts final run.2.2 steps ∧
      (disconnect final).Yields closing run.2.1 ∧ run.1 = steps ++ closing ∧
      (∀ exchange ∈ run.1, ∀ session path, exchange.request = .session session (.remove path) →
        ∃ part ∈ parts, exchange ∈ part.transcript ∧ ∃ targets, part.step.action = .delete targets) ∧
      ∀ part ∈ parts, ∀ targets, part.step.action = .delete targets → part.CarriesOut setup targets := by
  intro run
  obtain ⟨parts, final, steps, closing, course, closed, split⟩ :=
    run_course (Dialogue.yields_under behaviour [] (Deployment.run setup script))
  have alone : run.2.1 = final.alone := (yields_disconnect_iff.1 closed).1
  have harmless : ∀ exchange ∈ closing, ∀ session path,
      exchange.request ≠ .session session (.remove path) := by
    intro exchange member session path removes
    have reached := disconnect_reach (alone ▸ closed) exchange member
    simp [removes, connectReach] at reached
  have guarded : Guarded setup.protectedPaths run.1 := by
    rw [split]
    exact course.guarded.append (.of_harmless harmless)
  refine ⟨?_, parts, final, steps, closing, course, closed, split, ?_, ?_⟩
  · intro before session path answer after at_
    obtain ⟨allowed, looked⟩ := guarded.before_removal at_
    obtain ⟨absent, distinct⟩ := ProtectedPaths.contains_eq_false_iff.1 allowed
    exact ⟨absent, distinct, looked⟩
  · intro exchange member session path removes
    rw [split] at member
    rcases List.mem_append.1 member with during | after
    · rcases course.member exchange during with ⟨part, among, said⟩ | ⟨report, told⟩
      · exact ⟨part, among, said, (course.happens part among).remove said removes⟩
      · rw [told] at removes
        cases removes
    · exact absurd removes (harmless exchange after session path)
  · exact fun part among targets written => (course.happens part among).carriesOut written

end Deployment

end Rollout

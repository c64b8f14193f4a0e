import Mathlib.Logic.ExistsUnique
import Rollout.Proofs.Course

/-!
# The order of a run

Steps run in the order of the script, each one after the one before it succeeded. Either all of them
succeed, or there is one that fails, and then nothing is asked for or told after its failing answer but
the close of the open session. What is told of a step is its number and its action as it stands in the
script.
-/

namespace Rollout.Deployment

open Rollout.Script (Action Login Step)

/-- The report of an exchange, if it tells that a step or the whole run is over. -/
def Exchange.progress? : Exchange → Option Report
  | ⟨.report (.stepCompleted number action), _⟩ => some (.stepCompleted number action)
  | ⟨.report (.finished number), _⟩ => some (.finished number)
  | _ => none

/-- The reports that a step or the run is over, in the order in which they were told. -/
def progress (transcript : Transcript) : List Report :=
  transcript.filterMap Exchange.progress?

/-- What is told of steps that succeeded, the first of which comes after `before` others. -/
def completions (before : Nat) (steps : List Step) : List Report :=
  steps.mapIdx fun index step => .stepCompleted (before + index + 1) step.action

/-- All that was said during steps that succeeded. -/
def spoken (parts : List Part) : Transcript :=
  parts.flatMap fun part => part.transcript ++ [part.completion]

/-- The parts carry out the steps, each in the context that the one before it left, and succeed. -/
inductive Passes (setup : Setup) : List Step → Context → List Part → Context → Prop
  | none (context : Context) : Passes setup [] context [] context
  | next {part : Part} {steps : List Step} {parts : List Part} {final : Context}
      (happens : part.Happens setup) (succeeds : part.outcome.failure = none)
      (later : Passes setup steps part.outcome.context parts final) :
      Passes setup (part.step :: steps) part.before (part :: parts) final

/-- A request of an action that may fail without an end to it: in a `CONNECT` the closing of the old session, in a
`DELETE` a look at a path that is missing. -/
def Exchange.Passed (action : Action) (exchange : Exchange) : Prop :=
  ((∃ session, exchange.request = .session session .close) ∧ ∃ login, action = .connect login) ∨
    (exchange.Misses ∧ ∃ targets, action = .delete targets)

/-- What was said while an action failed ends with the answer that it failed by, the first one that tells of a
failure. -/
inductive Stops (action : Action) : Transcript → ActionError → Prop
  | unconnected : Stops action [] .notConnected
  | answered {transcript before : Transcript} {last : Exchange} {cause : ActionError}
      (split : transcript = before ++ [last]) (blamed : Blame last cause)
      (first : ∀ exchange ∈ before, exchange.Fails → exchange.Passed action) : Stops action transcript cause
  /-- A transfer met the bound on nesting, and nothing had failed. -/
  | nested {transcript : Transcript} (transfers : Transfers action) (path : String)
      (unfailed : ∀ exchange ∈ transcript, ¬ exchange.Fails) :
      Stops action transcript (.transfer (.nestedTooDeep path))

/-- All steps from a context succeed. -/
structure Completes (setup : Setup) (steps : List Step) (context final : Context)
    (result : Except RunError Unit) (transcript : Transcript) : Prop where
  result_eq : result = .ok ()
  progress_eq : progress transcript =
    completions context.step steps ++ [.finished (context.step + steps.length + 1)]
  passes : ∃ parts, Passes setup steps context parts final ∧
    transcript = spoken parts ++ [⟨.report (.finished (context.step + steps.length + 1)), ()⟩]

/-- The steps before the one at an index succeed and that one fails. -/
structure FailsAt (setup : Setup) (steps : List Step) (context final : Context)
    (result : Except RunError Unit) (transcript : Transcript) (index : Nat) : Prop where
  progress_eq : progress transcript = completions context.step (steps.take index)
  stops : ∃ (parts : List Part) (part : Part) (cause : ActionError),
    Passes setup (steps.take index) context parts part.before ∧
    steps[index]? = some part.step ∧ part.Happens setup ∧ part.outcome.failure = some cause ∧
    part.outcome.context = final ∧
    result = .error (.step (context.step + index + 1) part.step.action.display cause) ∧
    transcript = spoken parts ++ part.transcript ∧ Stops part.action part.transcript cause

theorem progress_append (first second : Transcript) :
    progress (first ++ second) = progress first ++ progress second :=
  List.filterMap_append

section Failing

variable {setup : Setup} {context : Context} {login : Login} {closing asking locating transcript : Transcript}
  {password : String} {error : IoError}

theorem disconnect_passed (closed : (disconnect context).Yields closing context.alone) :
    ∀ exchange ∈ closing, exchange.Fails → exchange.Passed (.connect login) := by
  obtain ⟨_, shape⟩ := yields_disconnect_iff.1 closed
  split at shape
  · simp [shape]
  · obtain ⟨answer, rfl⟩ := shape
    exact List.forall_mem_singleton.2 fun _ => .inl ⟨⟨_, rfl⟩, login, rfl⟩

theorem passwordFor_passed (asked : (passwordFor login).Yields asking (.ok password)) :
    ∀ exchange ∈ asking, exchange.Fails → exchange.Passed (.connect login) := by
  rcases passwordFor_cases asked with ⟨rfl, _⟩ | rfl
  · simp
  · exact List.forall_mem_singleton.2 fun fails => fails.elim

theorem passwordFor_error (asked : (passwordFor login).Yields asking (.error error)) :
    ∃ last, asking = [last] ∧ Blame last (.prompt error) := by
  rcases passwordFor_cases asked with ⟨_, _, impossible⟩ | rfl
  · cases impossible
  · exact ⟨_, rfl, .prompt _ error⟩

theorem localDirectoryOf_error (located : (localDirectoryOf setup).Yields locating (.error error)) :
    ∃ last, locating = [last] ∧ Blame last (.connection (.io error)) := by
  rcases localDirectoryOf_cases located with ⟨_, _, impossible⟩ | rfl
  · cases impossible
  · exact ⟨_, rfl, .currentDirectory error⟩

variable {outcome : Outcome} {cause : ActionError}

/-- A connect that fails after it has its password. -/
theorem stops_connecting {later : Transcript} {last : Exchange}
    (closed : (disconnect context).Yields closing context.alone)
    (asked : (passwordFor login).Yields asking (.ok password)) (fine : ∀ exchange ∈ later, ¬ exchange.Fails)
    (blamed : Blame last cause) : Stops (.connect login) (closing ++ (asking ++ (later ++ [last]))) cause := by
  have split : closing ++ (asking ++ (later ++ [last])) = (closing ++ (asking ++ later)) ++ [last] := by simp
  refine .answered split blamed (List.forall_mem_append.2 ⟨disconnect_passed closed, ?_⟩)
  refine List.forall_mem_append.2 ⟨passwordFor_passed asked, ?_⟩
  exact fun exchange member fails => absurd fails (fine exchange member)

theorem connects_stops (connects : Connects setup context login transcript outcome)
    (fails : outcome.failure = some cause) : Stops (.connect login) transcript cause := by
  have fine {request : Request} {answer : request.Answer} (ok : ¬ Exchange.Fails ⟨request, answer⟩) :
      ∀ exchange ∈ [(⟨request, answer⟩ : Exchange)], ¬ exchange.Fails :=
    List.forall_mem_singleton.2 ok
  cases connects with
  | unanswered closed asked =>
    obtain ⟨last, rfl, blamed⟩ := passwordFor_error asked
    cases fails
    exact .answered rfl blamed (disconnect_passed closed)
  | refused closed asked =>
    cases fails
    simpa using stops_connecting closed asked (List.forall_mem_nil _) (.dial _ _)
  | homeless closed asked =>
    cases fails
    simpa using stops_connecting closed asked (fine id) (.home _ _)
  | astray closed asked located =>
    obtain ⟨last, rfl, blamed⟩ := localDirectoryOf_error located
    cases fails
    simpa using stops_connecting closed asked (List.forall_mem_append.2 ⟨fine id, fine id⟩) blamed
  | connected => cases fails

/-- One step: an action that fails ends with its failing answer. -/
theorem executes_stops {action : Action} (executes : Executes setup context action transcript outcome)
    (fails : outcome.failure = some cause) : Stops action transcript cause := by
  cases executes with
  | unconnected =>
    cases fails
    exact .unconnected
  | connects connects => exact connects_stops connects fails
  | changed => cases fails
  | failed _ connected run =>
    cases fails
    obtain ⟨_, ends, heeded⟩ := change_keeps connected run
    rcases ends with ⟨transfers, path, rfl⟩ | ⟨before, last, split, blamed⟩
    · refine .nested transfers path fun exchange member failed => ?_
      have tolerated := heeded.unblamed (by rintro _ _ ⟨⟩; exact not_blame_nested) exchange member failed
      obtain ⟨_, targets, rfl⟩ := tolerated
      exact transfers
    · subst split
      exact .answered rfl blamed fun exchange member failed => .inr (heeded.before exchange member failed)

end Failing

/-- While an action is carried out, nothing is told of steps that are over. -/
theorem executes_progress {setup : Setup} {context : Context} {action : Action}
    {transcript : Transcript} {outcome : Outcome}
    (executes : Executes setup context action transcript outcome) : progress transcript = [] := by
  refine List.filterMap_eq_nil_iff.2 fun exchange member => ?_
  have within := executes_reach executes exchange member
  obtain ⟨request, answer⟩ := exchange
  cases request with
  | report report =>
    rcases within with connecting | own
    · exact connecting.elim
    · cases report with
      | stepCompleted number completed | finished number => cases action <;> exact own.elim
      | skipped path reason | transfer transfer => rfl
  | _ => rfl

theorem completions_cons (before : Nat) (step : Step) (steps : List Step) :
    completions before (step :: steps) =
      .stepCompleted (before + 1) step.action :: completions (before + 1) steps := by
  simp only [completions, List.mapIdx_cons, Nat.add_zero, List.cons.injEq, true_and]
  congr 1
  funext index step
  rw [Nat.add_assoc before 1 index, Nat.add_comm 1 index]

theorem Part.Happens.step_eq {setup : Setup} {part : Part} (happens : part.Happens setup) :
    part.outcome.context.step = part.before.step + 1 :=
  executes_step happens.executes

/-- What is said during a step that succeeds, and then of the steps after it. -/
theorem Part.Happens.progress_cons {setup : Setup} {part : Part} (happens : part.Happens setup)
    (later : Transcript) :
    progress (part.transcript ++ part.completion :: later) =
      .stepCompleted (part.before.step + 1) part.step.action :: progress later := by
  rw [progress_append, executes_progress happens.executes]
  rfl

theorem course_order {setup : Setup} {steps : List Step} {context final : Context}
    {parts : List Part} {result : Except RunError Unit} {transcript : Transcript}
    (course : Course setup steps context parts final result transcript) :
    Completes setup steps context final result transcript ∨
      ∃ index, FailsAt setup steps context final result transcript index := by
  induction course with
  | finished context => exact .inl ⟨rfl, rfl, [], .none context, rfl⟩
  | @failed part rest cause happens fails =>
    refine .inr ⟨0, executes_progress happens.executes, [], part, cause, .none _, rfl, happens, fails,
      rfl, rfl, rfl, executes_stops happens.executes fails⟩
  | @passed part rest _ _ _ transcript happens succeeds _ ih =>
    have counted := happens.step_eq
    rcases ih with ⟨returned, told, inner, passes, said⟩ | ⟨index, told, stops⟩
    · have total : part.before.step + (part.step :: rest).length + 1 =
          part.outcome.context.step + rest.length + 1 := by
        rw [counted, List.length_cons]
        omega
      refine .inl ⟨returned, ?_, part :: inner, .next happens succeeds passes, ?_⟩
      · rw [happens.progress_cons, told, completions_cons, total, counted]
        rfl
      · rw [said, total]
        simp [spoken]
    · obtain ⟨inner, failing, cause, passes, isAt, fails, failed, left, returned, said, ends⟩ := stops
      have number : part.before.step + (index + 1) + 1 = part.outcome.context.step + index + 1 := by
        rw [counted]
        omega
      refine .inr ⟨index + 1, ?_, part :: inner, failing, cause, .next happens succeeds passes, isAt,
        fails, failed, left, ?_, ?_, ends⟩
      · rw [happens.progress_cons, told, List.take_succ_cons, completions_cons, counted]
      · rw [returned, number]
      · rw [said]
        simp [spoken]

/-- However the world behaves, either all steps of a script succeed, and the reports are those of all
steps in order and then one of the end; or there is exactly one step at which the run fails, with the
reports of the steps before it, the step's own number and text in the error, and nothing after its
failing answer but the close of the session that is then open. -/
theorem run_in_order (setup : Setup) (script : Script) (behaviour : Behaviour) :
    let run := (run setup script).under behaviour []
    ∃ (steps closing : Transcript) (final : Context), run.1 = steps ++ closing ∧
      ((final.session = none ∧ closing = []) ∨ ∃ session answer, final.session = some session ∧
        closing = [⟨.session session .close, answer⟩]) ∧
      (Completes setup script.steps {} final run.2.2 steps ∨
        ∃! index, FailsAt setup script.steps {} final run.2.2 steps index) := by
  intro run
  obtain ⟨parts, final, steps, closing, course, closed, split⟩ :=
    run_course (Dialogue.yields_under behaviour [] (Deployment.run setup script))
  refine ⟨steps, closing, final, split, ?_, ?_⟩
  · obtain ⟨_, shape⟩ := yields_disconnect_iff.1 closed
    split at shape
    next closed => exact .inl ⟨closed, shape⟩
    next session isOpen =>
      obtain ⟨answer, closes⟩ := shape
      exact .inr ⟨session, answer, isOpen, closes⟩
  · rcases course_order course with completes | ⟨index, fails⟩
    · exact .inl completes
    · refine .inr ⟨index, fails, fun other also => ?_⟩
      obtain ⟨_, _, _, _, _, _, _, _, here, _⟩ := fails.stops
      obtain ⟨_, _, _, _, _, _, _, _, there, _⟩ := also.stops
      have same := here.symm.trans there
      injection same with same
      injection same with number _ _
      omega

end Rollout.Deployment

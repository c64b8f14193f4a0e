import Rollout.Deployment.Run
import Rollout.Proofs.Reach

/-!
# The course of a run

A run is a list of parts, one for each step that was reached: the context in which the step began, what
was said while it was carried out, and what came of it. All parts but the last one succeeded. Every
statement about whole runs is made about their parts here and put together by induction on the course.
-/

namespace Rollout.Deployment

open Rollout.Script (Action Login)
open Rollout.Session (Target)

def Context.alone (context : Context) : Context :=
  { context with session := none }

def targetOf (login : Login) (password : String) : Target :=
  { host := login.host, port := login.port, username := login.username, password }

/-- Closing the open session, if there is one, is one call, whatever it answers. -/
theorem yields_disconnect_iff {context after : Context} {transcript : Transcript} :
    (disconnect context).Yields transcript after ↔
      after = context.alone ∧ match context.session with
        | none => transcript = []
        | some session => ∃ answer, transcript = [⟨.session session .close, answer⟩] := by
  unfold disconnect Context.alone
  cases isOpen : context.session with
  | none =>
    have same : { context with session := none } = context := by rw [← isOpen]
    rw [Dialogue.yields_pure_iff, and_comm, same]
  | some session =>
    constructor
    · intro h
      obtain ⟨_, answer, _, asked, rest, rfl⟩ := Dialogue.yields_bind_iff.1 h
      obtain ⟨rfl, rfl⟩ := Dialogue.yields_pure_iff.1 rest
      exact ⟨rfl, answer, by rw [Dialogue.yields_request_iff.1 asked]; rfl⟩
    · rintro ⟨rfl, answer, rfl⟩
      exact Dialogue.yields_bind_iff.2
        ⟨_, answer, [], Dialogue.yields_request_iff.2 rfl, Dialogue.yields_pure_iff.2 ⟨rfl, rfl⟩, rfl⟩

/-- A password comes with the login, or is the answer to the question for it. -/
theorem passwordFor_cases {login : Login} {asking : Transcript} {reply : Except IoError String}
    (asked : (passwordFor login).Yields asking reply) :
    (asking = [] ∧ ∃ password, reply = .ok password) ∨
      asking = [⟨.askPassword Session.passwordQuestion, reply⟩] := by
  unfold passwordFor at asked
  split at asked
  · obtain ⟨silent, given⟩ := Dialogue.yields_pure_iff.1 asked
    exact .inl ⟨silent, _, given⟩
  · exact .inr (Dialogue.yields_request_iff.1 asked)

/-- The local directory is set up, or is the answer to the question for the current one. -/
theorem localDirectoryOf_cases {setup : Setup} {locating : Transcript} {reply : Except IoError String}
    (located : (localDirectoryOf setup).Yields locating reply) :
    (locating = [] ∧ ∃ directory, reply = .ok directory) ∨
      locating = [⟨.machine .currentDirectory, reply⟩] := by
  unfold localDirectoryOf at located
  split at located
  · obtain ⟨silent, given⟩ := Dialogue.yields_pure_iff.1 located
    exact .inl ⟨silent, _, given⟩
  · exact .inr (Dialogue.yields_request_iff.1 located)

/-- The ways in which a connect can go. The old session is closed before anything else. -/
inductive Connects (setup : Setup) (context : Context) (login : Login) : Transcript → Outcome → Prop
  | unanswered {closing asking : Transcript} {error : IoError}
      (closed : (disconnect context).Yields closing context.alone)
      (asked : (passwordFor login).Yields asking (.error error)) :
      Connects setup context login (closing ++ asking)
        { context := context.alone, failure := some (.prompt error) }
  | refused {closing asking : Transcript} {password : String} {error : SessionError}
      (closed : (disconnect context).Yields closing context.alone)
      (asked : (passwordFor login).Yields asking (.ok password)) :
      Connects setup context login
        (closing ++ (asking ++ [⟨.dial (targetOf login password), .error error⟩]))
        { context := context.alone, failure := some (.connection error) }
  | homeless {closing asking : Transcript} {password : String} {session : SessionId}
      {error : SessionError}
      (closed : (disconnect context).Yields closing context.alone)
      (asked : (passwordFor login).Yields asking (.ok password)) :
      Connects setup context login
        (closing ++ (asking ++ [⟨.dial (targetOf login password), .ok session⟩,
          ⟨.session session .home, .error error⟩]))
        { context := { context with session := some session }, failure := some (.connection error) }
  | astray {closing asking locating : Transcript} {password remoteDirectory : String}
      {session : SessionId} {error : IoError}
      (closed : (disconnect context).Yields closing context.alone)
      (asked : (passwordFor login).Yields asking (.ok password))
      (located : (localDirectoryOf setup).Yields locating (.error error)) :
      Connects setup context login
        (closing ++ (asking ++ ⟨.dial (targetOf login password), .ok session⟩ ::
          ⟨.session session .home, .ok remoteDirectory⟩ :: locating))
        { context := { context with session := some session },
          failure := some (.connection (.io error)) }
  | connected {closing asking locating : Transcript}
      {password remoteDirectory localDirectory : String} {session : SessionId}
      (closed : (disconnect context).Yields closing context.alone)
      (asked : (passwordFor login).Yields asking (.ok password))
      (located : (localDirectoryOf setup).Yields locating (.ok localDirectory)) :
      Connects setup context login
        (closing ++ (asking ++ ⟨.dial (targetOf login password), .ok session⟩ ::
          ⟨.session session .home, .ok remoteDirectory⟩ :: locating))
        { context := { context with session := some session, remoteDirectory, localDirectory } }

theorem connects_of_yields {setup : Setup} {context : Context} {login : Login}
    {transcript : Transcript} {outcome : Outcome}
    (run : (connect setup context login).Yields transcript outcome) :
    Connects setup context login transcript outcome := by
  unfold connect at run
  obtain ⟨closing, alone, _, closed, afterClosing, rfl⟩ := Dialogue.yields_bind_iff.1 run
  obtain rfl : alone = context.alone := (yields_disconnect_iff.1 closed).1
  obtain ⟨asking, reply, _, asked, afterAsking, rfl⟩ := Dialogue.yields_bind_iff.1 afterClosing
  cases reply with
  | error error =>
    obtain ⟨rfl, rfl⟩ := Dialogue.yields_pure_iff.1 afterAsking
    rw [List.append_nil]
    exact .unanswered closed asked
  | ok password =>
    obtain ⟨_, dialed, _, dialing, afterDialing, rfl⟩ := Dialogue.yields_bind_iff.1 afterAsking
    obtain rfl := Dialogue.yields_request_iff.1 dialing
    cases dialed with
    | error error =>
      obtain ⟨rfl, rfl⟩ := Dialogue.yields_pure_iff.1 afterDialing
      exact .refused closed asked
    | ok session =>
      obtain ⟨_, home, _, called, afterHome, rfl⟩ := Dialogue.yields_bind_iff.1 afterDialing
      obtain rfl := Dialogue.yields_request_iff.1 called
      cases home with
      | error error =>
        obtain ⟨rfl, rfl⟩ := Dialogue.yields_pure_iff.1 afterHome
        exact .homeless closed asked
      | ok remoteDirectory =>
        obtain ⟨locating, place, _, located, atEnd, rfl⟩ := Dialogue.yields_bind_iff.1 afterHome
        cases place with
        | error error =>
          obtain ⟨rfl, rfl⟩ := Dialogue.yields_pure_iff.1 atEnd
          rw [List.append_nil]
          exact .astray closed asked located
        | ok localDirectory =>
          obtain ⟨rfl, rfl⟩ := Dialogue.yields_pure_iff.1 atEnd
          rw [List.append_nil]
          exact .connected closed asked located

def connectReach : Request → Prop
  | .askPassword _ | .dial _ | .machine .currentDirectory => True
  | .session _ call => call = .close ∨ call = .home
  | _ => False

theorem disconnect_reach {context : Context} {closing : Transcript}
    (closed : (disconnect context).Yields closing context.alone) :
    ∀ exchange ∈ closing, connectReach exchange.request := by
  obtain ⟨_, shape⟩ := yields_disconnect_iff.1 closed
  split at shape
  · simp [shape]
  · obtain ⟨answer, rfl⟩ := shape
    simp [connectReach]

theorem disconnect_under_reach (behaviour : Behaviour) (past : Transcript) (context : Context) :
    ∀ exchange ∈ ((disconnect context).under behaviour past).1, connectReach exchange.request := by
  have closed := Dialogue.yields_under behaviour past (disconnect context)
  rw [(yields_disconnect_iff.1 closed).1] at closed
  exact disconnect_reach closed

theorem passwordFor_reach {login : Login} {asking : Transcript} {reply : Except IoError String}
    (asked : (passwordFor login).Yields asking reply) :
    ∀ exchange ∈ asking, connectReach exchange.request := by
  rcases passwordFor_cases asked with ⟨rfl, _⟩ | rfl <;> simp [connectReach]

theorem localDirectoryOf_reach {setup : Setup} {locating : Transcript} {reply : Except IoError String}
    (located : (localDirectoryOf setup).Yields locating reply) :
    ∀ exchange ∈ locating, connectReach exchange.request := by
  rcases localDirectoryOf_cases located with ⟨rfl, _⟩ | rfl <;> simp [connectReach]

theorem connects_reach {setup : Setup} {context : Context} {login : Login} {transcript : Transcript}
    {outcome : Outcome} (connects : Connects setup context login transcript outcome) :
    ∀ exchange ∈ transcript, connectReach exchange.request := by
  cases connects with
  | unanswered closed asked =>
    exact List.forall_mem_append.2 ⟨disconnect_reach closed, passwordFor_reach asked⟩
  | refused closed asked =>
    refine List.forall_mem_append.2 ⟨disconnect_reach closed, ?_⟩
    exact List.forall_mem_append.2 ⟨passwordFor_reach asked, by simp [connectReach]⟩
  | homeless closed asked =>
    refine List.forall_mem_append.2 ⟨disconnect_reach closed, ?_⟩
    exact List.forall_mem_append.2 ⟨passwordFor_reach asked, by simp [connectReach]⟩
  | astray closed asked located | connected closed asked located =>
    refine List.forall_mem_append.2 ⟨disconnect_reach closed, ?_⟩
    refine List.forall_mem_append.2 ⟨passwordFor_reach asked, ?_⟩
    have later := localDirectoryOf_reach located
    simpa [connectReach] using later

/-- The ways in which an action can go. -/
inductive Executes (setup : Setup) (context : Context) : Action → Transcript → Outcome → Prop
  | unconnected {action : Action} (needed : action.needsConnection = true)
      (closed : context.session = none) :
      Executes setup context action [] { context, failure := some .notConnected }
  | connects {login : Login} {transcript : Transcript} {outcome : Outcome}
      (connects : Connects setup context login transcript outcome) :
      Executes setup context (.connect login) transcript outcome
  | changed {action : Action} {transcript : Transcript} {after : Context}
      (other : ∀ login, action ≠ .connect login)
      (connected : action.needsConnection = true → context.session.isSome = true)
      (run : (change setup context action).run.Yields transcript (.ok after)) :
      Executes setup context action transcript { context := after }
  | failed {action : Action} {transcript : Transcript} {failure : ActionError}
      (other : ∀ login, action ≠ .connect login)
      (connected : action.needsConnection = true → context.session.isSome = true)
      (run : (change setup context action).run.Yields transcript (.error failure)) :
      Executes setup context action transcript { context, failure := some failure }

theorem executes_of_yields {setup : Setup} {context : Context} {action : Action}
    {transcript : Transcript} {outcome : Outcome}
    (run : (execute setup context action).Yields transcript outcome) :
    Executes setup context action transcript outcome := by
  unfold execute at run
  split at run
  next unmet =>
    obtain ⟨rfl, rfl⟩ := Dialogue.yields_pure_iff.1 run
    simp only [Bool.and_eq_true, Option.isNone_iff_eq_none] at unmet
    exact .unconnected unmet.1 unmet.2
  next met =>
    have connected : action.needsConnection = true → context.session.isSome = true := by
      intro needed
      simpa [needed, Option.isSome_iff_ne_none] using met
    split at run
    next login => exact .connects (connects_of_yields run)
    next other =>
      obtain ⟨first, result, _, changed, atEnd, rfl⟩ := Dialogue.yields_bind_iff.1 run
      cases result with
      | error failure =>
        obtain ⟨rfl, rfl⟩ := Dialogue.yields_pure_iff.1 atEnd
        rw [List.append_nil]
        exact .failed other connected changed
      | ok after =>
        obtain ⟨rfl, rfl⟩ := Dialogue.yields_pure_iff.1 atEnd
        rw [List.append_nil]
        exact .changed other connected changed

/-- What is known of an action other than a connect, in the run of which nothing has to be relied on. -/
theorem change_keeps {setup : Setup} {context : Context} {action : Action} {transcript : Transcript}
    {result : Except ActionError Context}
    (connected : action.needsConnection = true → context.session.isSome = true)
    (run : (change setup context action).run.Yields transcript result) :
    (actionTerms context action).Keeps (Changes action context) transcript result :=
  observes_change action connected _ _ run fun _ _ => trivial

/-- A connect asks for what belongs to connecting, any other action for what belongs to it. -/
theorem executes_reach {setup : Setup} {context : Context} {action : Action} {transcript : Transcript}
    {outcome : Outcome} (executes : Executes setup context action transcript outcome) :
    ∀ exchange ∈ transcript, connectReach exchange.request ∨ reach context action exchange.request := by
  cases executes with
  | unconnected => simp
  | connects connects => exact fun exchange member => .inl (connects_reach connects exchange member)
  | changed _ connected run | failed _ connected run =>
    exact fun exchange member => .inr ((change_keeps connected run).asked exchange member)

/-- No action touches the number of the step under way. -/
theorem executes_step {setup : Setup} {context : Context} {action : Action} {transcript : Transcript}
    {outcome : Outcome} (executes : Executes setup context action transcript outcome) :
    outcome.context.step = context.step := by
  cases executes with
  | unconnected | failed => rfl
  | connects connects => cases connects <;> rfl
  | changed _ connected run => exact (change_keeps connected run).ended.frame.2

/-- A step as it was carried out. -/
structure Part where
  step : Script.Step
  /-- The context that the step before it left. -/
  before : Context
  /-- What was said while it was carried out. -/
  transcript : Transcript
  outcome : Outcome

namespace Part

def number (part : Part) : Nat :=
  part.before.step + 1

/-- The step's action with its placeholders resolved, as it was carried out. -/
def action (part : Part) : Action :=
  part.step.action.substitute part.before.bindings

def during (part : Part) : Context :=
  { part.before with step := part.number }

/-- Carrying out the step can go like this. -/
def Happens (setup : Setup) (part : Part) : Prop :=
  (execute setup part.during part.action).Yields part.transcript part.outcome

theorem Happens.executes {setup : Setup} {part : Part} (happens : part.Happens setup) :
    Executes setup part.during part.action part.transcript part.outcome :=
  executes_of_yields happens

def completion (part : Part) : Exchange :=
  ⟨.report (.stepCompleted part.number part.step.action), ()⟩

end Part

/-- How steps can go, one after the other, from a context: the parts, the context at the end, the
result, and all that was said. -/
inductive Course (setup : Setup) :
    List Script.Step → Context → List Part → Context → Except RunError Unit → Transcript → Prop
  | finished (context : Context) :
      Course setup [] context [] context (.ok ()) [⟨.report (.finished (context.step + 1)), ()⟩]
  | failed {part : Part} {rest : List Script.Step} {cause : ActionError}
      (happens : part.Happens setup) (fails : part.outcome.failure = some cause) :
      Course setup (part.step :: rest) part.before [part] part.outcome.context
        (.error (.step part.number part.step.action.display cause)) part.transcript
  | passed {part : Part} {rest : List Script.Step} {parts : List Part} {final : Context}
      {result : Except RunError Unit} {transcript : Transcript}
      (happens : part.Happens setup) (succeeds : part.outcome.failure = none)
      (later : Course setup rest part.outcome.context parts final result transcript) :
      Course setup (part.step :: rest) part.before (part :: parts) final result
        (part.transcript ++ part.completion :: transcript)

section Steps

variable {setup : Setup} {steps : List Script.Step} {context final : Context} {parts : List Part}
  {result : Except RunError Unit} {transcript : Transcript}

/-- A course ends after all its steps, with success in each, or with the first that fails. -/
theorem Course.ends (course : Course setup steps context parts final result transcript) :
    (result = .ok () ∧ parts.map (·.step) = steps ∧ ∀ part ∈ parts, part.outcome.failure = none) ∨
      ∃ before last cause, parts = before ++ [last] ∧ (∀ part ∈ before, part.outcome.failure = none) ∧
        last.outcome.failure = some cause ∧ parts.map (·.step) <+: steps ∧
        result = .error (.step last.number last.step.action.display cause) := by
  induction course with
  | finished => exact .inl ⟨rfl, rfl, by simp⟩
  | @failed part rest cause _ fails => exact .inr ⟨[], part, cause, rfl, by simp, fails, by simp, rfl⟩
  | @passed part _ _ _ _ _ _ succeeds _ ih =>
    rcases ih with ⟨returned, same, all⟩ | ⟨before, last, cause, rfl, all, fails, within, returned⟩
    · exact .inl ⟨returned, by simp [same], List.forall_mem_cons.2 ⟨succeeds, all⟩⟩
    · refine .inr ⟨part :: before, last, cause, rfl, ?_, fails, ?_, returned⟩
      · exact List.forall_mem_cons.2 ⟨succeeds, all⟩
      · exact List.cons_prefix_cons.2 ⟨rfl, within⟩

/-- A run that succeeds carries out all steps. -/
theorem Course.map_step_of_ok (course : Course setup steps context parts final result transcript)
    (ok : result = .ok ()) : parts.map (·.step) = steps := by
  rcases course.ends with ⟨_, same, _⟩ | ⟨_, _, _, _, _, _, _, failed⟩
  · exact same
  · rw [ok] at failed
    cases failed

/-- The parts are those of the first steps. -/
theorem Course.map_step (course : Course setup steps context parts final result transcript) :
    parts.map (·.step) <+: steps := by
  rcases course.ends with ⟨_, same, _⟩ | ⟨_, _, _, _, _, _, within, _⟩
  · exact same ▸ List.prefix_refl _
  · exact within

end Steps

theorem course_of_yields {setup : Setup} {steps : List Script.Step} {context final : Context}
    {result : Except RunError Unit} {transcript : Transcript}
    (run : (runSteps setup steps context).Yields transcript (final, result)) :
    ∃ parts, Course setup steps context parts final result transcript := by
  induction steps generalizing context transcript with
  | nil =>
    obtain ⟨_, _, _, told, atEnd, rfl⟩ := Dialogue.yields_bind_iff.1 run
    obtain rfl := Dialogue.yields_request_iff.1 told
    obtain ⟨rfl, same⟩ := Dialogue.yields_pure_iff.1 atEnd
    cases same
    exact ⟨[], .finished final⟩
  | cons step rest ih =>
    obtain ⟨first, outcome, _, carried, afterStep, rfl⟩ := Dialogue.yields_bind_iff.1 run
    let part : Part := ⟨step, context, first, outcome⟩
    have happens : part.Happens setup := carried
    cases failure : outcome.failure with
    | some cause =>
      simp only [failure] at afterStep
      obtain ⟨rfl, same⟩ := Dialogue.yields_pure_iff.1 afterStep
      cases same
      rw [List.append_nil]
      exact ⟨[part], Course.failed happens failure⟩
    | none =>
      simp only [failure] at afterStep
      obtain ⟨_, _, _, told, later, rfl⟩ := Dialogue.yields_bind_iff.1 afterStep
      obtain rfl := Dialogue.yields_request_iff.1 told
      obtain ⟨parts, course⟩ := ih later
      exact ⟨part :: parts, Course.passed happens failure course⟩

/-- A run is the course of its steps from a fresh context, and then the open session is closed. -/
theorem run_course {setup : Setup} {script : Script} {transcript : Transcript} {context : Context}
    {result : Except RunError Unit}
    (run : (run setup script).Yields transcript (context, result)) :
    ∃ parts final steps closing, Course setup script.steps {} parts final result steps ∧
      (disconnect final).Yields closing context ∧ transcript = steps ++ closing := by
  obtain ⟨steps, ⟨final, outcome⟩, _, ran, afterSteps, rfl⟩ := Dialogue.yields_bind_iff.1 run
  obtain ⟨closing, after, _, closed, atEnd, rfl⟩ := Dialogue.yields_bind_iff.1 afterSteps
  obtain ⟨rfl, same⟩ := Dialogue.yields_pure_iff.1 atEnd
  cases same
  obtain ⟨parts, course⟩ := course_of_yields ran
  exact ⟨parts, final, steps, closing, course, closed, by rw [List.append_nil]⟩

end Rollout.Deployment

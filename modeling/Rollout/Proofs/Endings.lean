import Mathlib
import Rollout.Proofs.Discretion
import Rollout.Proofs.Exchanges
import Rollout.Proofs.Recall

/-!
# How commands end

A run starts commands in four ways: on the operator's machine or on the remote host, with its output
shown or kept. Every command is the one request of one step, and the step fails exactly if the command is
answered with a failure. So a run that succeeds was told of no command that failed, and a command that was
told to have failed is the last thing a run asks for, but for the closing of its session.

What is told of a command is not always how it ended. A process of the operator's machine that was ended
by a signal is told to have failed. A remote command that was ended by a signal, or whose channel was
closed without a status, is told to have succeeded.

`Circumstances` leave open how each command ends, also if the same command is run twice; a world is one
such circumstances.
-/

namespace Rollout

open Rollout.Script (Action Step Source)

namespace Deployment

def Request.isCommand : Request → Bool
  | .session _ (.run ..) | .session _ (.capture ..) => true
  | .machine (.run ..) | .machine (.capture ..) => true
  | _ => false

def Exchange.commandFailure : Exchange → Option ActionError
  | ⟨.session _ (.run ..), (answer : Except SessionError Unit)⟩ => failureOf (answer.mapError .remote)
  | ⟨.session _ (.capture ..), (answer : Except SessionError String)⟩ =>
    failureOf (answer.mapError .remote)
  | ⟨.machine (.run ..), (answer : Except LocalError Unit)⟩ => failureOf (answer.mapError .onLocal)
  | ⟨.machine (.capture ..), (answer : Except LocalError String)⟩ =>
    failureOf (answer.mapError .onLocal)
  | _ => none

/-- The action starts a command, or reads a remote variable by one. -/
def startsCommand : Action → Bool
  | .run _ | .cmd .. | .var _ (.command ..) | .var _ (.environment .remote _) => true
  | _ => false

theorem startsCommand_substitute (table : Variables) (action : Action) :
    startsCommand (action.substitute table) = startsCommand action := by
  cases action with
  | var key source =>
    cases source with
    | environment side name => cases side <;> rfl
    | _ => rfl
  | _ => rfl

section Steps

variable {setup : Setup} {context : Context} {action : Action} {transcript : Transcript}
  {outcome : Outcome}

/-- The transcript is one command, which was answered with the failure if there is one. -/
def IsOneCommand (transcript : Transcript) (failure : Option ActionError) : Prop :=
  ∃ command : Exchange, transcript = [command] ∧ command.request.isCommand = true ∧
    command.commandFailure = failure

theorem failureOf_map {α β : Type} (use : α → β) (result : Except ActionError α) :
    failureOf (result.map use) = failureOf result := by
  cases result <;> rfl

/-- A use of what an attempt returns fails as the attempt does. -/
theorem Attempt.yields_bind_pure {ε α β : Type} {attempt : Attempt ε α} {use : α → β}
    {result : Except ε β}
    (run : (attempt >>= fun value => pure (use value)).run.Yields transcript result) :
    ∃ inner, attempt.run.Yields transcript inner ∧ result = inner.map use := by
  rcases Attempt.yields_bind_iff.1 run with ⟨error, failed, rfl⟩ | ⟨_, value, _, passed, atEnd, rfl⟩
  · exact ⟨.error error, failed, rfl⟩
  · obtain ⟨rfl, rfl⟩ := Attempt.yields_pure_iff.1 atEnd
    exact ⟨.ok value, by rwa [List.append_nil], rfl⟩

/-- A remote variable is read by one command. -/
theorem readRemoteVariable_command {session : SessionId} {name : String}
    {result : Except ActionError String} (isOpen : context.session = some session)
    (run : (readRemoteVariable context name).run.Yields transcript result) :
    IsOneCommand transcript (failureOf result) := by
  obtain ⟨answer, rfl, rfl⟩ := onSession_use isOpen run
  exact ⟨_, rfl, rfl, (failureOf_map ..).symm⟩

theorem valueOf_command {key : String} {source : Source} {result : Except ActionError String}
    (starts : startsCommand (.var key source) = true)
    (connected : source.isRemote = true → context.session.isSome = true)
    (run : (valueOf setup context source).run.Yields transcript result) :
    IsOneCommand transcript (failureOf result) := by
  cases source with
  | literal => cases starts
  | environment side name =>
    cases side with
    | here => cases starts
    | remote =>
      obtain ⟨session, isOpen⟩ := Option.isSome_iff_exists.1 (connected rfl)
      exact readRemoteVariable_command isOpen run
  | command side argv =>
    cases side with
    | here =>
      obtain ⟨inner, asked, rfl⟩ := Attempt.yields_bind_pure run
      obtain ⟨answer, said, rfl⟩ := Attempt.yields_asking_iff.1 asked
      obtain rfl := Dialogue.yields_request_iff.1 said
      exact ⟨_, rfl, rfl, (failureOf_map ..).symm⟩
    | remote =>
      obtain ⟨session, isOpen⟩ := Option.isSome_iff_exists.1 (connected rfl)
      obtain ⟨answer, rfl, rfl⟩ := onSession_use isOpen run
      exact ⟨_, rfl, rfl, (failureOf_map ..).symm⟩

/-- An action that starts a command asks for nothing else, and fails as the command does. -/
theorem change_command {result : Except ActionError Context} (starts : startsCommand action = true)
    (connected : action.needsConnection = true → context.session.isSome = true)
    (run : (change setup context action).run.Yields transcript result) :
    IsOneCommand transcript (failureOf result) := by
  cases action with
  | run command =>
    obtain ⟨session, isOpen⟩ := Option.isSome_iff_exists.1 (connected rfl)
    obtain ⟨answer, rfl, rfl⟩ := onSession_use isOpen run
    exact ⟨_, rfl, rfl, (failureOf_map ..).symm⟩
  | cmd program arguments =>
    obtain ⟨inner, asked, rfl⟩ := Attempt.yields_bind_pure run
    obtain ⟨answer, said, rfl⟩ := Attempt.yields_asking_iff.1 asked
    obtain rfl := Dialogue.yields_request_iff.1 said
    exact ⟨_, rfl, rfl, (failureOf_map ..).symm⟩
  | var key source =>
    obtain ⟨inner, valued, rfl⟩ := Attempt.yields_bind_pure run
    rw [failureOf_map]
    exact valueOf_command starts connected valued
  | _ => cases starts

/-- Neither a connect nor an action that has no command to start can ask for one. A `VAR` can. -/
theorem not_command_of_reach {request : Request} (starts : startsCommand action = false)
    (other : ∀ key source, action ≠ .var key source)
    (within : connectReach request ∨ reach context action request) : request.isCommand = false := by
  cases request with
  | session id call =>
    cases call with
    | run | capture =>
      rcases within with closesOrFinds | ⟨_, own, _⟩
      · simp [connectReach] at closesOrFinds
      · cases action with
        | run => cases starts
        | var key source => exact absurd rfl (other key source)
        | _ => exact own.elim
    | _ => rfl
  | machine call =>
    cases call with
    | run | capture =>
      rcases within with impossible | own
      · exact impossible.elim
      · cases action with
        | cmd => cases starts
        | var key source => exact absurd rfl (other key source)
        | _ => exact own.elim
    | _ => rfl
  | _ => rfl

/-- A value that needs no command is found without one. -/
theorem valueOf_commandless {key : String} {source : Source} {result : Except ActionError String}
    (starts : startsCommand (.var key source) = false)
    (run : (valueOf setup context source).run.Yields transcript result) :
    ∀ exchange ∈ transcript, exchange.request.isCommand = false := by
  cases source with
  | literal =>
    obtain ⟨rfl, _⟩ := Attempt.yields_pure_iff.1 run
    simp
  | environment side name =>
    cases side with
    | here =>
      obtain ⟨_, looked, _⟩ := Attempt.yields_bind_pure run
      obtain ⟨_, said, _⟩ := Attempt.yields_lift_iff.1 looked
      obtain rfl := Dialogue.yields_request_iff.1 said
      simp [Request.isCommand]
    | remote => cases starts
  | command => cases starts

/-- How an action deals with commands. One that starts a command finds no session for it, or the command
is all it asks for; any other asks for none. -/
theorem Executes.commands (executes : Executes setup context action transcript outcome) :
    if startsCommand action then
      (transcript = [] ∧ outcome.failure = some .notConnected) ∨ IsOneCommand transcript outcome.failure
    else ∀ exchange ∈ transcript, exchange.request.isCommand = false := by
  split
  next starts =>
    cases executes with
    | unconnected => exact .inl ⟨rfl, rfl⟩
    | connects => cases starts
    | changed _ connected run | failed _ connected run =>
      exact .inr (change_command starts connected run)
  next idle =>
    have starts : startsCommand action = false := by simpa using idle
    by_cases assigns : ∃ key source, action = .var key source
    · obtain ⟨key, source, rfl⟩ := assigns
      cases executes with
      | unconnected => simp
      | changed _ _ run | failed _ _ run =>
        obtain ⟨_, valued, _⟩ := Attempt.yields_bind_pure run
        exact valueOf_commandless starts valued
    · have other : ∀ key source, action ≠ .var key source :=
        fun key source same => assigns ⟨key, source, same⟩
      intro exchange member
      exact not_command_of_reach starts other (executes_reach executes exchange member)

/-- A command of an action is all that the action asks for, and its failure is that of the action. -/
theorem Executes.command_at (executes : Executes setup context action transcript outcome)
    {before after : Transcript} {command : Exchange} (split : transcript = before ++ command :: after)
    (isCommand : command.request.isCommand = true) :
    before = [] ∧ after = [] ∧ outcome.failure = command.commandFailure := by
  have commands := executes.commands
  split at commands
  · rcases commands with ⟨silent, _⟩ | ⟨only, said, _, same⟩
    · simp [split] at silent
    · rcases List.append_eq_singleton_iff.1 (split.symm.trans said) with ⟨rfl, rest⟩ | ⟨_, impossible⟩
      · obtain ⟨rfl, rfl⟩ := List.cons.inj rest
        exact ⟨rfl, rfl, same.symm⟩
      · cases impossible
  · have nothing := commands command (by simp [split])
    rw [isCommand] at nothing
    cases nothing

theorem Executes.countP_commands (executes : Executes setup context action transcript outcome)
    (succeeds : outcome.failure = none) :
    transcript.countP (·.request.isCommand) = if startsCommand action then 1 else 0 := by
  have commands := executes.commands
  split
  next starts =>
    rw [if_pos starts, succeeds] at commands
    rcases commands with ⟨_, impossible⟩ | ⟨command, rfl, isCommand, _⟩
    · cases impossible
    · simp [isCommand]
  next idle =>
    rw [if_neg idle] at commands
    simpa using commands

theorem disconnect_commandless {closing : Transcript} {after : Context}
    (closed : (disconnect context).Yields closing after) :
    ∀ exchange ∈ closing, exchange.request.isCommand = false := by
  obtain ⟨rfl, shape⟩ := yields_disconnect_iff.1 closed
  split at shape
  · simp [shape]
  · obtain ⟨answer, rfl⟩ := shape
    simp [Request.isCommand]

end Steps

section Courses

variable {setup : Setup} {steps : List Step} {context final : Context} {parts : List Part}
  {result : Except RunError Unit} {transcript : Transcript}

/-- The run stopped with the command: it is all that its step asked for, its failure is that of the step
and of the run, every step before it succeeded, and nothing was asked for after it but the closing of the
session. -/
def StopsAt (setup : Setup) (script : Script) (before : Transcript) (command : Exchange)
    (after : Transcript) (result : Except RunError Unit) : Prop :=
  ∃ (passed : List Part) (failed : Part) (cause : ActionError) (closed : Context),
    Course setup script.steps {} (passed ++ [failed]) failed.outcome.context result
      (before ++ [command]) ∧
    (∀ part ∈ passed, part.outcome.failure = none) ∧
    failed.transcript = [command] ∧ command.commandFailure = some cause ∧
    result = .error (.step (passed.length + 1) failed.step.action.display cause) ∧
    (disconnect failed.outcome.context).Yields after closed

/-- A run that succeeds has asked for one command in each step that starts one. -/
theorem Course.countP_commands (course : Course setup steps context parts final result transcript)
    (succeeds : result = .ok ()) :
    transcript.countP (·.request.isCommand) = steps.countP (fun step => startsCommand step.action) := by
  induction course with
  | finished => rfl
  | failed => cases succeeds
  | @passed part rest _ _ _ later happens passes _ ih =>
    have here := happens.executes.countP_commands passes
    rw [Part.action, startsCommand_substitute] at here
    rw [List.countP_append, here, List.countP_cons, ih succeeds, List.countP_cons, Nat.add_comm]
    rfl

/-- Where a course asks for a command: in a step that fails with it, after which nothing comes, or in one
that succeeds with it. -/
theorem Course.command_at (course : Course setup steps context parts final result transcript)
    {before after : Transcript} {command : Exchange} (split : transcript = before ++ command :: after)
    (isCommand : command.request.isCommand = true) {cause : ActionError}
    (fails : command.commandFailure = some cause) :
    ∃ passed failed, parts = passed ++ [failed] ∧ (∀ part ∈ passed, part.outcome.failure = none) ∧
      failed.transcript = [command] ∧ after = [] ∧ final = failed.outcome.context ∧
      result = .error (.step (context.step + passed.length + 1) failed.step.action.display cause) := by
  induction course generalizing before with
  | finished =>
    rcases List.append_eq_singleton_iff.1 split.symm with ⟨rfl, rest⟩ | ⟨_, impossible⟩
    · obtain ⟨rfl, rfl⟩ := List.cons.inj rest
      cases isCommand
    · cases impossible
  | @failed part rest stop happens stops =>
    obtain ⟨rfl, rfl, same⟩ := happens.executes.command_at split isCommand
    obtain rfl : stop = cause := by rw [stops, fails] at same; exact Option.some.inj same
    exact ⟨[], part, rfl, by simp, split, rfl, rfl, rfl⟩
  | @passed part rest parts final result later happens passes _ ih =>
    have told : part.completion.request.isCommand = false := rfl
    rcases List.append_eq_append_iff.1 split with ⟨middle, rfl, tail⟩ | ⟨middle, here, tail⟩
    · rcases List.cons_eq_append_iff.1 tail with ⟨_, same⟩ | ⟨between, rfl, inside⟩
      · obtain ⟨rfl, _⟩ := List.cons.inj same
        rw [isCommand] at told
        cases told
      · obtain ⟨earlier, failed, rfl, all, said, rfl, rfl, rfl⟩ := ih inside
        refine ⟨part :: earlier, failed, rfl, List.forall_mem_cons.2 ⟨passes, all⟩, said, rfl, rfl, ?_⟩
        have counted : part.outcome.context.step = part.before.step + 1 := executes_step happens.executes
        rw [counted, List.length_cons]
        congr 2
        omega
    · rcases List.cons_eq_append_iff.1 tail with ⟨_, same⟩ | ⟨between, rfl, _⟩
      · obtain ⟨rfl, _⟩ := List.cons.inj same
        rw [isCommand] at told
        cases told
      · -- The command is one of a step that succeeded.
        obtain ⟨_, _, same⟩ := happens.executes.command_at here isCommand
        rw [passes, fails] at same
        cases same

/-- A run stops with the command that it was told to have failed. -/
theorem run_stopsAt {script : Script} {closed : Context}
    (ran : (run setup script).Yields transcript (closed, result)) {before after : Transcript}
    {command : Exchange} (split : transcript = before ++ command :: after)
    (isCommand : command.request.isCommand = true) {cause : ActionError}
    (fails : command.commandFailure = some cause) : StopsAt setup script before command after result := by
  obtain ⟨parts, final, spoken, closing, course, closes, rfl⟩ := run_course ran
  have silent := disconnect_commandless closes
  rcases List.append_eq_append_iff.1 split with ⟨middle, rfl, tail⟩ | ⟨middle, here, tail⟩
  · have nothing := silent command (by simp [tail])
    rw [isCommand] at nothing
    cases nothing
  · rcases List.cons_eq_append_iff.1 tail with ⟨rfl, rfl⟩ | ⟨between, rfl, rfl⟩
    · have nothing := silent command (by simp)
      rw [isCommand] at nothing
      cases nothing
    · obtain ⟨passed, failed, rfl, all, said, rfl, rfl, returned⟩ := course.command_at here isCommand fails
      rw [here] at course
      exact ⟨passed, failed, cause, closed, course, all, said, fails, by simpa using returned, closes⟩

/-- What a run that succeeds has asked for: one command for each step that starts one, and no command that
it was told to have failed. -/
theorem run_commands {script : Script} {closed : Context}
    (ran : (run setup script).Yields transcript (closed, .ok ())) :
    transcript.countP (·.request.isCommand) =
        script.steps.countP (fun step => startsCommand step.action) ∧
      ∀ command ∈ transcript, command.request.isCommand = true → command.commandFailure = none := by
  constructor
  · obtain ⟨parts, final, spoken, closing, course, closes, rfl⟩ := run_course ran
    rw [List.countP_append, course.countP_commands rfl]
    simpa using disconnect_commandless closes
  · intro command member isCommand
    by_contra failed
    obtain ⟨cause, fails⟩ := Option.ne_none_iff_exists'.1 failed
    obtain ⟨before, after, split⟩ := List.append_of_mem member
    obtain ⟨_, _, _, _, _, _, _, _, impossible, _⟩ := run_stopsAt ran split isCommand fails
    cases impossible

end Courses

/-- Under a behaviour each request has the answer that the behaviour gives after what was said before. -/
theorem Dialogue.answer_under {α : Type} (behaviour : Behaviour) (past : Transcript)
    (dialogue : Dialogue α) {before after : Transcript} {request : Request} {answer : request.Answer}
    (split : (dialogue.under behaviour past).1 = before ++ ⟨request, answer⟩ :: after) :
    answer = behaviour (past ++ before) request := by
  induction dialogue generalizing past before with
  | done value => simp [under] at split
  | ask asked next ih =>
    rcases List.cons_eq_append_iff.1 split with ⟨rfl, same⟩ | ⟨between, rfl, rest⟩
    · cases (List.cons.inj same).1
      rw [List.append_nil]
    · have answered := ih _ _ rest
      rwa [List.append_assoc] at answered

end Deployment

namespace Ssh

open Rollout.Deployment

/-- How a command came to its end. -/
inductive Finish where
  /-- A process of the operator's machine was waited for. -/
  | here (exit : Machine.Exit)
  /-- The channel of a remote command was closed. -/
  | remote (ending : Ending)

namespace Finish

def IsSuccess : Finish → Prop
  | here exit => exit = .status 0
  | remote ending => ending = .exited 0

/-- The command did not exit, and the client is told no more than of one that exited with status zero. -/
def IsUntold : Finish → Prop
  | here _ => False
  | remote ending => ending = .signalled ∨ ending = .untold

end Finish

/-- What requests find outside, each by what was said before it. -/
structure Circumstances where
  world : Transcript → World
  /-- What becomes of a local command whose output is shown: it does not start, or it comes to an end. -/
  shown : Transcript → Option String → List String → Except LocalError Machine.Ended
  /-- What becomes of a local command whose output is kept. -/
  kept : Transcript → Option String → List String → Except LocalError Machine.Ended

namespace Circumstances

def behaviour (circumstances : Circumstances) : Behaviour
  | past, .machine (.run directory argv) =>
    ((circumstances.shown past directory argv).bind fun ended => ended.result argv :
      Except LocalError Unit)
  | past, .machine (.capture directory argv) =>
    ((circumstances.kept past directory argv).bind fun ended =>
      (ended.result argv).map fun _ => Text.decodeLossy ended.out : Except LocalError String)
  | past, request => ((circumstances.world past).answer request).2

/-- How the command that a request starts comes to its end, if it starts. -/
def finish? (circumstances : Circumstances) (past : Transcript) : Deployment.Request → Option Finish
  | .machine (.run directory argv) =>
    (circumstances.shown past directory argv).toOption.map fun ended => .here ended.exit
  | .machine (.capture directory argv) =>
    (circumstances.kept past directory argv).toOption.map fun ended => .here ended.exit
  | .session _ (.run command setting) | .session _ (.capture command setting) =>
    ((circumstances.world past).exchange (execute (Session.commandLine command setting))).2.toOption.map
      fun reply => .remote reply.ending
  | _ => none

/-- The command started and exited with status zero. -/
def EndsWell (circumstances : Circumstances) (past : Transcript) (request : Deployment.Request) : Prop :=
  ∃ finish, circumstances.finish? past request = some finish ∧ finish.IsSuccess

/-- The command started and did not exit, and the client is not told. -/
def EndsUntold (circumstances : Circumstances) (past : Transcript) (request : Deployment.Request) : Prop :=
  ∃ finish, circumstances.finish? past request = some finish ∧ finish.IsUntold

end Circumstances

/-- Of all endings the client takes these for a success. -/
theorem Ending.status_eq_zero_iff {ending : Ending} :
    ending.status = 0 ↔ (Finish.remote ending).IsSuccess ∨ (Finish.remote ending).IsUntold := by
  cases ending with
  | exited status =>
    have same : status.toInt32.toInt = 0 ↔ status = 0 := by
      rw [← Int32.toInt_zero, Int32.toInt_inj]
      exact ⟨fun zero => congrArg Int32.toUInt32 zero, fun zero => congrArg UInt32.toInt32 zero⟩
    simpa [Ending.status, Finish.IsSuccess, Finish.IsUntold] using same
  | signalled | untold => simp [Ending.status, Finish.IsSuccess, Finish.IsUntold]

/-- A local process is told to have succeeded exactly if it exited with status zero. -/
theorem result_succeeds_iff {ended : Machine.Ended} {argv : List String} :
    (∃ value, ended.result argv = .ok value) ↔ ended.exit = .status 0 := by
  unfold Machine.Ended.result
  split <;> simp_all

theorem failureOf_mapError_eq_none_iff {ε α : Type} {wrap : ε → ActionError} {answer : Except ε α} :
    failureOf (answer.mapError wrap) = none ↔ ∃ value, answer = .ok value := by
  cases answer <;> simp [failureOf, Except.mapError]

section Commands

open Exchange

variable {world after : World} {command : String} {setting : Session.Setting}

theorem snd_exchange_eq_ok_iff {α : Type} {exchange : Exchange α} {value : α} :
    (world.exchange exchange).2 = .ok value ↔ ∃ after, exchange.Succeeds world value after := by
  unfold Succeeds
  rcases world.exchange exchange with ⟨between, result⟩
  simp

/-- A command is taken for a success by the status that its ending is taken for. -/
theorem succeeds_expectSuccess_iff {reply : Reply} {value : Unit} :
    (expectSuccess command reply).Succeeds world value after ↔
      reply.ending.status = 0 ∧ after = world := by
  unfold expectSuccess
  split
  next zero => simp [succeeds_pure_iff, zero]
  next other => simp [not_succeeds_throw, other]

theorem run_succeeds_iff :
    (∃ value, (world.exchange (run command setting)).2 = .ok value) ↔
      ∃ reply, (world.exchange (execute (Session.commandLine command setting))).2 = .ok reply ∧
        reply.ending.status = 0 := by
  simp only [snd_exchange_eq_ok_iff, run, succeeds_bind_iff, succeeds_change_iff, succeeds_expectSuccess_iff]
  grind

theorem capture_succeeds_iff :
    (∃ value, (world.exchange (capture command setting)).2 = .ok value) ↔
      ∃ reply, (world.exchange (execute (Session.commandLine command setting))).2 = .ok reply ∧
        reply.ending.status = 0 := by
  simp only [snd_exchange_eq_ok_iff, capture, succeeds_bind_iff, succeeds_pure_iff, succeeds_expectSuccess_iff]
  grind

end Commands

namespace Circumstances

variable {circumstances : Circumstances} {past : Transcript} {request : Deployment.Request}

theorem exists_finish_iff {ε α : Type} {result : Except ε α} {finishOf : α → Finish}
    {holds : Finish → Prop} :
    (∃ finish, result.toOption.map finishOf = some finish ∧ holds finish) ↔
      ∃ value, result = .ok value ∧ holds (finishOf value) := by
  cases result <;> simp [Except.toOption]

theorem bind_succeeds_iff {ε α β : Type} {first : Except ε α} {next : α → Except ε β} :
    (∃ value, first.bind next = .ok value) ↔
      ∃ middle, first = .ok middle ∧ ∃ value, next middle = .ok value := by
  cases first <;> simp [Except.bind]

theorem map_succeeds_iff {ε α β : Type} {result : Except ε α} {use : α → β} :
    (∃ value, result.map use = .ok value) ↔ ∃ value, result = .ok value := by
  cases result <;> simp [Except.map]

/-- The client tells no failure of a command exactly if it exited with status zero or its end is untold. -/
theorem commandFailure_eq_none_iff (isCommand : request.isCommand = true) :
    (⟨request, circumstances.behaviour past request⟩ : Deployment.Exchange).commandFailure = none ↔
      circumstances.EndsWell past request ∨ circumstances.EndsUntold past request := by
  cases request with
  | session id call =>
    cases call with
    | run command setting =>
      refine failureOf_mapError_eq_none_iff.trans (run_succeeds_iff.trans ?_)
      simp only [EndsWell, EndsUntold, finish?, exists_finish_iff, Ending.status_eq_zero_iff]
      grind
    | capture command setting =>
      refine failureOf_mapError_eq_none_iff.trans (capture_succeeds_iff.trans ?_)
      simp only [EndsWell, EndsUntold, finish?, exists_finish_iff, Ending.status_eq_zero_iff]
      grind
    | _ => cases isCommand
  | machine call =>
    cases call with
    | run directory argv =>
      refine failureOf_mapError_eq_none_iff.trans (bind_succeeds_iff.trans ?_)
      simp only [EndsWell, EndsUntold, finish?, exists_finish_iff, Finish.IsSuccess, Finish.IsUntold]
      simp [result_succeeds_iff]
    | capture directory argv =>
      refine failureOf_mapError_eq_none_iff.trans (bind_succeeds_iff.trans ?_)
      simp only [EndsWell, EndsUntold, finish?, exists_finish_iff, Finish.IsSuccess, Finish.IsUntold]
      simp [map_succeeds_iff, result_succeeds_iff]
    | _ => cases isCommand
  | _ => cases isCommand

end Circumstances

def World.circumstances (world : World) : Circumstances where
  world := world.replay
  shown past := (world.replay past).machine.spawn
  kept past := { (world.replay past).machine with input := [] }.spawn

theorem World.replies_eq_behaviour (world : World) : world.replies = world.circumstances.behaviour := by
  funext past request
  cases request with
  | machine call =>
    cases call with
    | run directory argv =>
      change (Machine.stream _ directory argv).2.2 = Except.bind (Machine.spawn _ directory argv) _
      unfold Machine.stream
      cases Machine.spawn _ directory argv <;> rfl
    | capture directory argv =>
      change (Machine.capture _ directory argv).2 = Except.bind (Machine.spawn _ directory argv) _
      unfold Machine.capture
      cases Machine.spawn _ directory argv <;> rfl
    | _ => rfl
  | _ => rfl

/-- That only successful commands are run: if a run succeeds, each of its steps that starts a command has
started it, and it exited with status zero; and a command that does not is where the run stops. -/
structure OnlySuccesses (circumstances : Circumstances) (setup : Setup) (script : Script)
    (transcript : Transcript) (result : Except RunError Unit) : Prop where
  succeeded : result = .ok () →
    transcript.countP (·.request.isCommand) = script.steps.countP (fun step => startsCommand step.action) ∧
    ∀ before command after, transcript = before ++ command :: after →
      command.request.isCommand = true → circumstances.EndsWell before command.request
  stopped : ∀ before command after, transcript = before ++ command :: after →
    command.request.isCommand = true → ¬ circumstances.EndsWell before command.request →
      StopsAt setup script before command after result

/-- What a run in the circumstances is told of a command. -/
theorem Circumstances.commandFailure_at {circumstances : Circumstances} {setup : Setup} {script : Script}
    {before after : Transcript} {command : Deployment.Exchange}
    (split : ((Deployment.run setup script).under circumstances.behaviour []).1 = before ++ command :: after)
    (isCommand : command.request.isCommand = true) :
    command.commandFailure = none ↔
      circumstances.EndsWell before command.request ∨ circumstances.EndsUntold before command.request := by
  obtain ⟨request, answer⟩ := command
  obtain rfl : answer = circumstances.behaviour before request := Dialogue.answer_under _ [] _ split
  exact commandFailure_eq_none_iff isCommand

theorem Circumstances.EndsUntold.isCommand {circumstances : Circumstances} {past : Transcript}
    {request : Deployment.Request} (untold : circumstances.EndsUntold past request) :
    request.isCommand = true := by
  obtain ⟨finish, ends, _⟩ := untold
  cases request with
  | session id call => cases call <;> first | rfl | cases ends
  | machine call => cases call <;> first | rfl | cases ends
  | _ => cases ends

theorem Circumstances.EndsUntold.not_endsWell {circumstances : Circumstances} {past : Transcript}
    {request : Deployment.Request} (untold : circumstances.EndsUntold past request) :
    ¬ circumstances.EndsWell past request := by
  rintro ⟨finish, ends, success⟩
  obtain ⟨other, ends', isUntold⟩ := untold
  obtain rfl : finish = other := Option.some.inj (ends.symm.trans ends')
  cases finish with
  | here => exact isUntold
  | remote ending =>
    obtain rfl : ending = .exited 0 := success
    rcases isUntold with impossible | impossible <;> cases impossible

/-- Only successful commands are run, in whatever circumstances, exactly if no remote command of the run is
ended by a signal or has its channel closed without a status. What is carried out in a world is such a
run. -/
theorem only_successes_iff (setup : Setup) (script : Script) :
    (∀ circumstances : Circumstances,
      let run := (Deployment.run setup script).under circumstances.behaviour []
      OnlySuccesses circumstances setup script run.1 run.2.2 ↔
        ∀ before command after, run.1 = before ++ command :: after →
          ¬ circumstances.EndsUntold before command.request) ∧
    ∀ world : World, (world.carryOut (Deployment.run setup script)).1 =
      ((Deployment.run setup script).under world.circumstances.behaviour []).2 := by
  refine ⟨fun circumstances => ?_, fun world => ?_⟩
  · intro run
    have ran := Dialogue.yields_under circumstances.behaviour [] (Deployment.run setup script)
    constructor
    · intro only before command after split untold
      have isCommand := untold.isCommand
      have told := (Circumstances.commandFailure_at split isCommand).2 (.inr untold)
      obtain ⟨_, _, _, _, _, _, _, fails, _⟩ :=
        only.stopped before command after split isCommand untold.not_endsWell
      rw [told] at fails
      cases fails
    · intro allTold
      constructor
      · intro ok
        have ended : run.2 = (run.2.1, .ok ()) := Prod.ext rfl ok
        obtain ⟨counted, succeed⟩ := run_commands (ended ▸ ran)
        refine ⟨counted, fun before command after split isCommand => ?_⟩
        have told := succeed command (split ▸ by simp) isCommand
        exact ((Circumstances.commandFailure_at split isCommand).1 told).resolve_right
          (allTold before command after split)
      · intro before command after split isCommand fails
        have failed : command.commandFailure ≠ none := fun told =>
          ((Circumstances.commandFailure_at split isCommand).1 told).elim fails
            (allTold before command after split)
        obtain ⟨cause, fails⟩ := Option.ne_none_iff_exists'.1 failed
        exact run_stopsAt ran split isCommand fails
  · rw [← world.replies_eq_behaviour]
    exact congrArg Prod.fst (world.carryOut_eq_under [] (Deployment.run setup script))

def crashing : World where
  machine := { files := {}, directory := "/" }
  host := { home := "/", commands := [("cd / && crash", { ending := .signalled })] }

def crashScript : Script where
  steps := [⟨.connect { username := "u", host := "host", port := 22, password := some "p" }, 1⟩,
    ⟨.run "crash", 2⟩]

def crashSetup : Setup where
  localDirectory := some "/"

def crashingAlways : Circumstances where
  world _ := crashing
  shown _ _ _ := .error .emptyCommand
  kept _ _ _ := .error .emptyCommand

/-- The command is ended by a signal, and the run succeeds. -/
theorem killed_command_passes :
    (crashing.carryOut (Deployment.run crashSetup crashScript)).1.2 = .ok () ∧
    let run := (Deployment.run crashSetup crashScript).under crashingAlways.behaviour []
    run.2.2 = .ok () ∧
      ∃ before command after, run.1 = before ++ command :: after ∧ command.request.isCommand = true ∧
        crashingAlways.finish? before command.request = some (.remote .signalled) ∧
        ¬ crashingAlways.EndsWell before command.request := by
  have member : .session 0 (.run "crash" { directory := some "/" }) ∈
      ((Deployment.run crashSetup crashScript).under crashingAlways.behaviour []).1.map (·.request) := by
    decide +kernel
  have killed (before : Transcript) : crashingAlways.finish? before
      (.session 0 (.run "crash" { directory := some "/" })) = some (.remote .signalled) := rfl
  obtain ⟨command, said, asked⟩ := List.mem_map.1 member
  obtain ⟨before, after, split⟩ := List.append_of_mem said
  refine ⟨by cbv, by decide +kernel, before, command, after, split, ?_⟩
  rw [asked]
  refine ⟨rfl, killed before, ?_⟩
  rintro ⟨finish, ends, success⟩
  rw [killed] at ends
  cases ends
  cases success

end Ssh
end Rollout

import Mathlib.Data.List.Forall2
import Rollout.Machine.Service
import Rollout.Proofs.Exchanges
import Rollout.Proofs.Order

/-!
# What runs let slip

Reports show a step as it stands in the script, so what the operator is told of a run does not depend on
the values that came into it. The texts of failures are put together elsewhere. Here two runs of one
script are set side by side, in whatever worlds, that end each step alike: with success in both, or with
failures in both that differ at most in the commands they hold. What is told of their progress is the
same. If a remote command, a local command or a `VAR` fails, the texts are the same as well, save in one
case: a local command that cannot be started or ends badly is shown as it was run, with its values, and
the texts differ as the commands do.
-/

namespace Rollout

/-- A failed local command is shown as it was run. -/
def LocalError.Shows : LocalError → Prop
  | .spawn .. | .failed .. => True
  | _ => False

def LocalError.Names (line : String) : LocalError → Prop
  | .spawn command _ | .failed command _ => command = line
  | _ => True

namespace ActionError

/-- The failure with the command left out that it may hold. -/
def nameless : ActionError → ActionError
  | .remote (.commandFailed _ status) => .remote (.commandFailed "" status)
  | .onLocal (.spawn _ error) => .onLocal (.spawn "" error)
  | .onLocal (.failed _ code) => .onLocal (.failed "" code)
  | error => error

def Shows : ActionError → Prop
  | .onLocal error => error.Shows
  | _ => False

theorem shows_nameless_iff {cause : ActionError} : cause.nameless.Shows ↔ cause.Shows := by
  unfold nameless
  split <;> rfl

theorem message_nameless {cause : ActionError} (quiet : ¬ cause.Shows) :
    cause.nameless.message = cause.message := by
  unfold nameless
  split
  · rfl
  · exact absurd trivial quiet
  · exact absurd trivial quiet
  · rfl

/-- Failures that show no command and differ at most in the commands they hold have one text. -/
theorem message_eq_of_quiet {cause cause' : ActionError} (same : cause.nameless = cause'.nameless)
    (quiet : ¬ cause.Shows) : cause.message = cause'.message := by
  have quiet' : ¬ cause'.Shows := by rwa [← shows_nameless_iff, ← same, shows_nameless_iff]
  calc
    cause.message = cause.nameless.message := (message_nameless quiet).symm
    _ = cause'.nameless.message := by rw [same]
    _ = cause'.message := message_nameless quiet'

/-- Failures that show local commands and differ at most in them have one text if the commands are one. -/
theorem message_eq_iff {error error' : LocalError} {line line' : String}
    (same : (onLocal error).nameless = (onLocal error').nameless) (shows_ : error.Shows)
    (names : error.Names line) (names' : error'.Names line') :
    (onLocal error).message = (onLocal error').message ↔ line = line' := by
  cases error with
  | spawn command reason =>
    cases error' with
    | spawn command' reason' =>
      obtain rfl : command = line := names
      obtain rfl : command' = line' := names'
      obtain rfl : reason = reason' := by simpa [nameless] using same
      change "failed to start `" ++ command ++ "`: " ++ _ = "failed to start `" ++ command' ++ "`: " ++ _ ↔ _
      rw [String.append_left_inj, String.append_left_inj, String.append_right_inj]
    | _ => simp [nameless] at same
  | failed command code =>
    cases error' with
    | failed command' code' =>
      obtain rfl : command = line := names
      obtain rfl : command' = line' := names'
      obtain rfl : code = code' := by simpa [nameless] using same
      cases code with
      | none =>
        change "local command `" ++ command ++ _ = "local command `" ++ command' ++ _ ↔ _
        rw [String.append_left_inj, String.append_right_inj]
      | some code =>
        change "local command `" ++ command ++ _ ++ _ ++ _ = "local command `" ++ command' ++ _ ++ _ ++ _ ↔ _
        rw [String.append_left_inj, String.append_left_inj, String.append_left_inj,
          String.append_right_inj]
    | _ => simp [nameless] at same
  | _ => exact shows_.elim

end ActionError

namespace Deployment

open Rollout.Script (Action Source Step)

/-- An error of a local command that shows a command shows the one that was asked for. -/
def NamesCommand : Exchange → Prop
  | ⟨.machine (.run _ argv), .error error⟩ => error.Names (Action.spaced argv)
  | ⟨.machine (.capture _ argv), .error error⟩ => error.Names (Action.spaced argv)
  | _ => True

/-- A world whose machine shows local commands as they were asked for. -/
def NamesCommands (behaviour : Behaviour) : Prop :=
  ∀ past request, NamesCommand ⟨request, behaviour past request⟩

section Machine

open Rollout.Machine

theorem ended_names {ended : Ended} {argv : List String} {error : LocalError}
    (fails : ended.result argv = .error error) : error.Names (Action.spaced argv) := by
  unfold Ended.result at fails
  split at fails
  · cases fails
  · cases fails
    rfl
  · cases fails
    rfl

theorem spawn_names {machine : Machine} {directory : Option String} {argv : List String}
    {error : LocalError} (fails : spawn machine directory argv = .error error) :
    error.Names (Action.spaced argv) := by
  unfold spawn at fails
  split at fails
  · cases fails
    trivial
  · dsimp only at fails
    split at fails
    · cases fails
      rfl
    · split at fails
      · cases fails
        rfl
      · split at fails
        · cases fails
          rfl
        · cases fails

/-- The operator's machine shows local commands as they were asked for. -/
theorem machine_names (machine : Machine) (call : MachineCall) :
    NamesCommand ⟨.machine call, (machine.answer call).2.2⟩ := by
  cases call with
  | run directory argv =>
    simp only [Machine.answer, stream]
    split
    next error fails => exact spawn_names fails
    next ended _ =>
      cases fails : ended.result argv with
      | error error => exact ended_names fails
      | ok => trivial
  | capture directory argv =>
    simp only [Machine.answer, capture]
    split
    next error fails => exact spawn_names fails
    next ended _ =>
      cases fails : ended.result argv with
      | error error => exact ended_names fails
      | ok => trivial
  | _ => trivial

/-- So does every world. -/
theorem replies_names (world : Ssh.World) : NamesCommands world.replies := by
  intro past request
  cases request with
  | machine call => exact machine_names (world.replay past).machine call
  | _ => trivial

end Machine

/-- The action is a remote command, a local command or a `VAR`. -/
def IsCommand : Action → Prop
  | .run _ | .cmd .. | .var .. => True
  | _ => False

instance : DecidablePred IsCommand
  | .run _ | .cmd .. | .var .. => isTrue trivial
  | .connect _ | .env .. | .cd _ | .move .. | .copy .. | .delete _ | .upload .. | .download .. =>
    isFalse id

def localLine? : Action → Option String
  | .cmd program arguments => some (Action.spaced (program :: arguments))
  | .var _ (.command .here argv) => some (Action.spaced argv)
  | _ => none

def localArgv? : Action → Option (List String)
  | .cmd program arguments => some (program :: arguments)
  | .var _ (.command .here argv) => some argv
  | _ => none

theorem localLine?_eq (action : Action) : localLine? action = (localArgv? action).map Action.spaced := by
  unfold localLine? localArgv?
  split <;> rfl

section Steps

variable {setup : Setup} {context : Context}

/-- The machine is asked to run nothing but the action's own local command. -/
theorem executes_argv {action : Action} {transcript : Transcript} {outcome : Outcome}
    (executes : Executes setup context action transcript outcome) {exchange : Exchange}
    (member : exchange ∈ transcript) {directory : Option String} {argv : List String}
    (asks : exchange.request = .machine (.run directory argv) ∨
      exchange.request = .machine (.capture directory argv)) : localArgv? action = some argv := by
  have within := executes_reach executes exchange member
  rcases asks with asks | asks <;> rw [asks] at within
  · rcases within with connecting | own
    · exact connecting.elim
    · cases action with
      | cmd program arguments => exact congrArg some (own : argv = program :: arguments).symm
      | _ => exact own.elim
  · rcases within with connecting | own
    · exact connecting.elim
    · cases action with
      | var key source =>
        obtain rfl : source = .command .here argv := own
        rfl
      | _ => exact own.elim

/-- The machine is asked to run nothing but what the action's own local command is shown as. -/
theorem executes_local {action : Action} {transcript : Transcript} {outcome : Outcome}
    (executes : Executes setup context action transcript outcome) {exchange : Exchange}
    (member : exchange ∈ transcript) {directory : Option String} {argv : List String}
    (asks : exchange.request = .machine (.run directory argv) ∨
      exchange.request = .machine (.capture directory argv)) :
    localLine? action = some (Action.spaced argv) := by
  rw [localLine?_eq, executes_argv executes member asks, Option.map_some]

end Steps

def Part.localLine? (part : Part) : Option String :=
  Deployment.localLine? part.action

theorem Stops.blamed {action : Action} {transcript : Transcript} {error : LocalError}
    (stops : Stops action transcript (.onLocal error)) : ∃ last ∈ transcript, Blame last (.onLocal error) := by
  cases stops with
  | answered split blamed => exact ⟨_, by simp [split], blamed⟩

/-- The failure of a local command shows the command of the part. -/
theorem Part.Happens.names {setup : Setup} {part : Part} (happens : part.Happens setup)
    {error : LocalError} (fails : part.outcome.failure = some (.onLocal error))
    (named : ∀ exchange ∈ part.transcript, NamesCommand exchange) :
    ∃ line, part.localLine? = some line ∧ error.Names line := by
  obtain ⟨last, member, blamed⟩ := (executes_stops happens.executes fails).blamed
  cases blamed with
  | run => exact ⟨_, executes_local happens.executes member (.inl rfl), named _ member⟩
  | capture => exact ⟨_, executes_local happens.executes member (.inr rfl), named _ member⟩

/-- Both parts succeed or both fail; and where a command or a `VAR` fails, the failures are the same but
for the commands they hold. -/
def EndAlike (part part' : Part) : Prop :=
  part.outcome.failure.isSome = part'.outcome.failure.isSome ∧
    (IsCommand part.step.action →
      part.outcome.failure.map (·.nameless) = part'.outcome.failure.map (·.nameless))

instance (part part' : Part) : Decidable (EndAlike part part') :=
  inferInstanceAs (Decidable (_ ∧ _))

instance (parts parts' : List Part) : Decidable (List.Forall₂ EndAlike parts parts') :=
  decidable_of_iff (parts.length = parts'.length ∧
      ∀ pair ∈ parts.zip parts', EndAlike pair.1 pair.2) <| by
    rw [List.forall₂_iff_zip]
    exact and_congr_right fun _ => Prod.forall

/-- The results of two runs are alike: both runs succeed, or both fail at one step. If that step is a
command or a `VAR`, the texts are the same, unless they show a local command that differs. -/
def ReturnAlike (parts parts' : List Part) (result result' : Except RunError Unit) : Prop :=
  (result = .ok () ∧ result' = .ok ()) ∨
    ∃ part part' cause cause', parts.getLast? = some part ∧ parts'.getLast? = some part' ∧
      part.step = part'.step ∧
      result = .error (.step part.number part.step.action.display cause) ∧
      result' = .error (.step part.number part.step.action.display cause') ∧
      (IsCommand part.step.action →
        ((RunError.step part.number part.step.action.display cause).message =
            (RunError.step part.number part.step.action.display cause').message ↔
          (cause.Shows → part.localLine? = part'.localLine?)))

/-- One step: where two parts of a command fail alike, their texts are the same, unless they show a local
command that differs. -/
theorem EndAlike.message_eq_iff {setup : Setup} {part part' : Part} {cause cause' : ActionError}
    (alike : EndAlike part part') (happens : part.Happens setup) (happens' : part'.Happens setup)
    (fails : part.outcome.failure = some cause) (fails' : part'.outcome.failure = some cause')
    (named : ∀ exchange ∈ part.transcript, NamesCommand exchange)
    (named' : ∀ exchange ∈ part'.transcript, NamesCommand exchange)
    (command : IsCommand part.step.action) :
    cause.message = cause'.message ↔ (cause.Shows → part.localLine? = part'.localLine?) := by
  have same : cause.nameless = cause'.nameless := by
    simpa [fails, fails'] using alike.2 command
  by_cases shows_ : cause.Shows
  · have shows' : cause'.Shows := by
      rwa [← ActionError.shows_nameless_iff, ← same, ActionError.shows_nameless_iff]
    cases cause with
    | onLocal error =>
      cases cause' with
      | onLocal error' =>
        obtain ⟨line, runs, names⟩ := happens.names fails named
        obtain ⟨line', runs', names'⟩ := happens'.names fails' named'
        rw [ActionError.message_eq_iff same shows_ names names', runs, runs', Option.some.injEq]
        exact ⟨fun equal _ => equal, fun equal => equal shows_⟩
      | _ => exact shows'.elim
    | _ => exact shows_.elim
  · simp [ActionError.message_eq_of_quiet same shows_, shows_]

theorem Course.nil_cases {setup : Setup} {context final : Context} {parts : List Part}
    {result : Except RunError Unit} {transcript : Transcript}
    (course : Course setup [] context parts final result transcript) :
    parts = [] ∧ result = .ok () ∧ transcript = [⟨.report (.finished (context.step + 1)), ()⟩] := by
  cases course with
  | finished => exact ⟨rfl, rfl, rfl⟩

/-- The first step of a course fails and is all there is, or the course goes on after it. -/
theorem Course.cons_cases {setup : Setup} {step : Step} {rest : List Step} {context final : Context}
    {parts : List Part} {result : Except RunError Unit} {transcript : Transcript}
    (course : Course setup (step :: rest) context parts final result transcript) :
    ∃ part, part.step = step ∧ part.before = context ∧ part.Happens setup ∧
      ((∃ cause, part.outcome.failure = some cause ∧ parts = [part] ∧ transcript = part.transcript ∧
          result = .error (.step part.number step.action.display cause)) ∨
        part.outcome.failure = none ∧ ∃ later said, parts = part :: later ∧
          transcript = part.transcript ++ part.completion :: said ∧
          Course setup rest part.outcome.context later final result said) := by
  generalize all : step :: rest = steps at course
  cases course with
  | finished => cases all
  | @failed part _ cause happens fails =>
    obtain ⟨rfl, rfl⟩ := List.cons.inj all
    exact ⟨part, rfl, rfl, happens, .inl ⟨cause, fails, rfl, rfl, rfl⟩⟩
  | @passed part _ _ _ _ _ happens succeeds later =>
    obtain ⟨rfl, rfl⟩ := List.cons.inj all
    exact ⟨part, rfl, rfl, happens, .inr ⟨succeeds, _, _, rfl, rfl, later⟩⟩

theorem ReturnAlike.cons {first first' : Part} {parts parts' : List Part}
    {result result' : Except RunError Unit} (alike : ReturnAlike parts parts' result result') :
    ReturnAlike (first :: parts) (first' :: parts') result result' := by
  rcases alike with ended | ⟨part, part', cause, cause', last, last', rest⟩
  · exact .inl ended
  · refine .inr ⟨part, part', cause, cause', ?_, ?_, rest⟩ <;> rw [List.getLast?_cons]
    · rw [last]
      rfl
    · rw [last']
      rfl

/-- All steps: what is told and returned in two courses of them that end each step alike. -/
theorem Course.alike {setup : Setup} {steps : List Step} {context context' final final' : Context}
    {parts parts' : List Part} {result result' : Except RunError Unit}
    {transcript transcript' : Transcript}
    (course : Course setup steps context parts final result transcript)
    (course' : Course setup steps context' parts' final' result' transcript')
    (counted : context.step = context'.step) (alike : List.Forall₂ EndAlike parts parts')
    (named : ∀ exchange ∈ transcript, NamesCommand exchange)
    (named' : ∀ exchange ∈ transcript', NamesCommand exchange) :
    progress transcript = progress transcript' ∧ ReturnAlike parts parts' result result' := by
  induction steps generalizing context context' parts parts' transcript transcript' with
  | nil =>
    obtain ⟨rfl, rfl, rfl⟩ := course.nil_cases
    obtain ⟨rfl, rfl, rfl⟩ := course'.nil_cases
    rw [counted]
    exact ⟨rfl, .inl ⟨rfl, rfl⟩⟩
  | cons step rest ih =>
    obtain ⟨part, rfl, rfl, happens, ends⟩ := course.cons_cases
    obtain ⟨part', same, rfl, happens', ends'⟩ := course'.cons_cases
    have number : part.number = part'.number := congrArg (· + 1) counted
    rcases ends with ⟨cause, fails, rfl, rfl, rfl⟩ | ⟨succeeds, later, said, rfl, rfl, onward⟩
    · rcases ends' with ⟨cause', fails', rfl, rfl, rfl⟩ | ⟨succeeds', _, _, rfl, _⟩
      · obtain ⟨together, _⟩ := List.forall₂_cons.1 alike
        refine ⟨?_, .inr ⟨part, part', cause, cause', rfl, rfl, same.symm, rfl, ?_, fun command => ?_⟩⟩
        · rw [executes_progress happens.executes, executes_progress happens'.executes]
        · rw [number]
        · rw [RunError.message, RunError.message, String.append_right_inj]
          exact together.message_eq_iff happens happens' fails fails' named named' command
      · obtain ⟨together, _⟩ := List.forall₂_cons.1 alike
        simp [EndAlike, fails, succeeds'] at together
    · rcases ends' with ⟨cause', fails', rfl, rfl, rfl⟩ | ⟨_, later', said', rfl, rfl, onward'⟩
      · obtain ⟨together, _⟩ := List.forall₂_cons.1 alike
        simp [EndAlike, fails', succeeds] at together
      · obtain ⟨_, others⟩ := List.forall₂_cons.1 alike
        have counted' : part.outcome.context.step = part'.outcome.context.step := by
          rw [happens.step_eq, happens'.step_eq, counted]
        obtain ⟨told, returned⟩ := ih onward onward' counted' others
          (fun exchange member => named exchange (by simp [member]))
          (fun exchange member => named' exchange (by simp [member]))
        rw [happens.progress_cons, happens'.progress_cons, told, counted, same]
        exact ⟨rfl, returned.cons⟩

/-- A step as it goes under a behaviour, when `past` was said before it. -/
def partUnder (setup : Setup) (behaviour : Behaviour) (step : Step) (context : Context)
    (past : Transcript) : Part :=
  let carried := (execute setup { context with step := context.step + 1 }
    (step.action.substitute context.bindings)).under behaviour past
  { step, before := context, transcript := carried.1, outcome := carried.2 }

/-- The parts of the steps as they go under a behaviour, up to the first that fails. -/
def partsUnder (setup : Setup) (behaviour : Behaviour) :
    List Step → Context → Transcript → List Part
  | [], _, _ => []
  | step :: rest, context, past =>
    let part := partUnder setup behaviour step context past
    match part.outcome.failure with
    | some _ => [part]
    | none => part :: partsUnder setup behaviour rest part.outcome.context
        (past ++ part.transcript ++ [part.completion])

section Under

variable {setup : Setup} {behaviour : Behaviour} {step : Step} {rest : List Step} {context : Context}
  {past : Transcript}

theorem runSteps_under_of_failure {cause : ActionError}
    (fails : (partUnder setup behaviour step context past).outcome.failure = some cause) :
    let part := partUnder setup behaviour step context past
    (runSteps setup (step :: rest) context).under behaviour past = (part.transcript,
      part.outcome.context, .error (.step part.number step.action.display cause)) := by
  intro part
  rw [runSteps, Dialogue.under_bind]
  change (part.transcript ++ (Dialogue.under behaviour _ (match part.outcome.failure with
    | some _ => _
    | none => _)).1, (Dialogue.under behaviour _ (match part.outcome.failure with
    | some _ => _
    | none => _)).2) = _
  rw [fails]
  exact Prod.ext (List.append_nil _) rfl

theorem runSteps_under_of_success
    (succeeds : (partUnder setup behaviour step context past).outcome.failure = none) :
    let part := partUnder setup behaviour step context past
    let later := (runSteps setup rest part.outcome.context).under behaviour
      (past ++ part.transcript ++ [part.completion])
    (runSteps setup (step :: rest) context).under behaviour past =
      (part.transcript ++ part.completion :: later.1, later.2) := by
  intro part later
  rw [runSteps, Dialogue.under_bind]
  change (part.transcript ++ (Dialogue.under behaviour _ (match part.outcome.failure with
    | some _ => _
    | none => _)).1, (Dialogue.under behaviour _ (match part.outcome.failure with
    | some _ => _
    | none => _)).2) = _
  rw [succeeds]
  rfl

end Under

theorem course_under (setup : Setup) (behaviour : Behaviour) (steps : List Step) (context : Context)
    (past : Transcript) :
    let run := (runSteps setup steps context).under behaviour past
    Course setup steps context (partsUnder setup behaviour steps context past) run.2.1 run.2.2
      run.1 := by
  induction steps generalizing context past with
  | nil => exact .finished context
  | cons step rest ih =>
    let part := partUnder setup behaviour step context past
    have happens : part.Happens setup := Dialogue.yields_under ..
    cases ends : part.outcome.failure with
    | some cause =>
      rw [runSteps_under_of_failure ends, partsUnder, ends]
      exact .failed happens ends
    | none =>
      rw [runSteps_under_of_success ends, partsUnder, ends]
      exact .passed happens ends (ih _ _)

/-- Closing tells nothing of the progress. -/
theorem progress_disconnect {context : Context} {closing : Transcript}
    (closed : (disconnect context).Yields closing context.alone) : progress closing = [] := by
  refine List.filterMap_eq_nil_iff.2 fun exchange member => ?_
  have reached := disconnect_reach closed exchange member
  obtain ⟨request, answer⟩ := exchange
  cases request with
  | report => exact reached.elim
  | _ => rfl

/-- A run is a run of its steps, and then the open session is closed. -/
theorem run_under (setup : Setup) (script : Script) (behaviour : Behaviour) (past : Transcript) :
    let steps := (runSteps setup script.steps {}).under behaviour past
    let ending := (disconnect steps.2.1).under behaviour (past ++ steps.1)
    (run setup script).under behaviour past = (steps.1 ++ ending.1, ending.2, steps.2.2) := by
  intro steps ending
  refine (Dialogue.under_bind ..).trans ?_
  change (steps.1 ++ (Dialogue.under behaviour _ (disconnect _ >>= _)).1,
    (Dialogue.under behaviour _ (disconnect _ >>= _)).2) = _
  rw [Dialogue.under_bind]
  exact Prod.ext (congrArg (steps.1 ++ ·) (List.append_nil ending.1)) rfl

/-- The end of a run adds nothing to what its steps tell of the progress and return. -/
theorem run_under_tells (setup : Setup) (script : Script) (behaviour : Behaviour) (past : Transcript) :
    let whole := (run setup script).under behaviour past
    let steps := (runSteps setup script.steps {}).under behaviour past
    progress whole.1 = progress steps.1 ∧ whole.2.2 = steps.2.2 := by
  intro whole steps
  let ending := (disconnect steps.2.1).under behaviour (past ++ steps.1)
  have split : whole = (steps.1 ++ ending.1, ending.2, steps.2.2) := run_under ..
  have closed : (disconnect steps.2.1).Yields ending.1 ending.2 := Dialogue.yields_under ..
  rw [(yields_disconnect_iff.1 closed).1] at closed
  rw [split, progress_append, progress_disconnect closed, List.append_nil]
  exact ⟨rfl, rfl⟩

theorem tells_alike (setup : Setup) (script : Script) {one other : Behaviour} (past past' : Transcript)
    (named : NamesCommands one) (named' : NamesCommands other)
    (alike : List.Forall₂ EndAlike (partsUnder setup one script.steps {} past)
      (partsUnder setup other script.steps {} past')) :
    let first := (run setup script).under one past
    let second := (run setup script).under other past'
    progress first.1 = progress second.1 ∧
      ReturnAlike (partsUnder setup one script.steps {} past)
        (partsUnder setup other script.steps {} past') first.2.2 second.2.2 := by
  obtain ⟨tells, returns⟩ := (course_under setup one script.steps {} past).alike
    (course_under setup other script.steps {} past') rfl alike
    (Dialogue.forall_under named _ _) (Dialogue.forall_under named' _ _)
  obtain ⟨tells₁, returns₁⟩ := run_under_tells setup script one past
  obtain ⟨tells₂, returns₂⟩ := run_under_tells setup script other past'
  dsimp only
  rw [tells₁, tells₂, returns₁, returns₂]
  exact ⟨tells, returns⟩

/-- Two runs of a script, each in any world and after anything else, that end each step alike tell the
same of their progress, and the text of a failed command or `VAR` is the same in both, unless it shows a
local command whose words differ. -/
theorem runs_tell_alike (setup : Setup) (script : Script) (one other : Behaviour)
    (past past' : Transcript) (named : NamesCommands one) (named' : NamesCommands other)
    (alike : List.Forall₂ EndAlike (partsUnder setup one script.steps {} past)
      (partsUnder setup other script.steps {} past')) :
    let first := (run setup script).under one past
    let second := (run setup script).under other past'
    progress first.1 = progress second.1 ∧
      ReturnAlike (partsUnder setup one script.steps {} past)
        (partsUnder setup other script.steps {} past') first.2.2 second.2.2 :=
  tells_alike setup script past past' named named' alike

/-- So it is of two worlds, whose machines show local commands as they were asked for. -/
theorem worlds_tell_alike (setup : Setup) (script : Script) (one other : Ssh.World)
    (alike : List.Forall₂ EndAlike (partsUnder setup one.replies script.steps {} [])
      (partsUnder setup other.replies script.steps {} [])) :
    progress ((run setup script).under one.replies []).1 =
        progress ((run setup script).under other.replies []).1 ∧
      ReturnAlike (partsUnder setup one.replies script.steps {} [])
        (partsUnder setup other.replies script.steps {} [])
        (one.carryOut (run setup script)).1.2 (other.carryOut (run setup script)).1.2 := by
  have carried (world : Ssh.World) :
      (world.carryOut (run setup script)).1 = ((run setup script).under world.replies []).2 :=
    congrArg Prod.fst (world.carryOut_eq_under [] (run setup script))
  rw [carried, carried]
  exact tells_alike setup script [] [] (replies_names one) (replies_names other) alike

section Failing

/-- A world in which an environment variable has the value, every login succeeds and every command
fails. -/
def failingWorld (value : String) : Behaviour
  | _, .askPassword _ => (.ok "" : Except IoError String)
  | _, .dial _ => (.ok 0 : Except SessionError SessionId)
  | _, .session _ .home => (.ok "/" : Except SessionError String)
  | _, .session _ (.run command _) => (.error (.commandFailed command 1) : Except SessionError Unit)
  | _, .session _ call => (.error (.task "closed") : Except SessionError call.Result)
  | _, .machine (.environmentVariable _) => some value
  | _, .machine .currentDirectory => (.ok "/" : Except IoError String)
  | _, .machine (.metadata _) => (.error (.os .noEntry) : Except IoError Metadata)
  | _, .machine (.entries _) => (.error (.os .noEntry) : Except IoError (List String))
  | _, .machine (.makeDirectories _) | _, .machine (.setMode ..) =>
    (.error (.os .permissionDenied) : Except IoError Unit)
  | _, .machine (.run _ argv) =>
    (.error (.failed (Action.spaced argv) (some 1)) : Except LocalError Unit)
  | _, .machine (.capture _ argv) =>
    (.error (.failed (Action.spaced argv) (some 1)) : Except LocalError String)
  | _, .report _ => ()

theorem failingWorld_names (value : String) : NamesCommands (failingWorld value) := by
  intro past request
  cases request with
  | machine call => cases call <;> trivial
  | _ => trivial

/-- Takes a value from the environment, logs in, and then comes to the last action. -/
def tokenScript (last : Action) : Script where
  steps := [⟨.var "T" (.environment .here "TOKEN"), 1⟩,
    ⟨.connect { username := "u", host := "h", port := 22, password := some "p" }, 2⟩, ⟨last, 3⟩]

/-- The parts of such a script in the world in which the variable has the value. -/
def tokenParts (last : Action) (value : String) : List Part :=
  partsUnder {} (failingWorld value) (tokenScript last).steps {} []

/-- What such a script returns in the world in which the variable has the value. -/
def tokenResult (last : Action) (value : String) : Except RunError Unit :=
  ((run {} (tokenScript last)).under (failingWorld value) []).2.2

def remoteUse : Action := .run "deploy \x7b\x7bT\x7d\x7d"

def localUse : Action := .cmd "false" ["\x7b\x7bT\x7d\x7d"]

theorem runs_tell_alike_remote_use :
    List.Forall₂ EndAlike (tokenParts remoteUse "a") (tokenParts remoteUse "b") ∧
      ReturnAlike (tokenParts remoteUse "a") (tokenParts remoteUse "b")
        (tokenResult remoteUse "a") (tokenResult remoteUse "b") := by
  have alike : List.Forall₂ EndAlike (tokenParts remoteUse "a") (tokenParts remoteUse "b") := by
    decide
  exact ⟨alike, (runs_tell_alike {} (tokenScript remoteUse) (failingWorld "a") (failingWorld "b") [] []
    (failingWorld_names "a") (failingWorld_names "b") alike).2⟩

/-- The value in a local command that fails is told. -/
theorem local_use_told :
    (∀ past request, (∀ name, request ≠ .machine (.environmentVariable name)) →
      failingWorld "a" past request = failingWorld "b" past request) ∧
    List.Forall₂ EndAlike (tokenParts localUse "a") (tokenParts localUse "b") ∧
    ∃ error error', tokenResult localUse "a" = .error error ∧ tokenResult localUse "b" = .error error' ∧
      error.message =
        "Step 3 failed (CMD false \x7b\x7bT\x7d\x7d): local command `false a` failed (exit code 1)" ∧
      error'.message =
        "Step 3 failed (CMD false \x7b\x7bT\x7d\x7d): local command `false b` failed (exit code 1)" := by
  refine ⟨fun past request other => ?_, by decide, ?_⟩
  · cases request with
    | machine call =>
      cases call with
      | environmentVariable name => exact absurd rfl (other name)
      | _ => rfl
    | session id call => cases call <;> rfl
    | _ => rfl
  · exact ⟨.step 3 "CMD false \x7b\x7bT\x7d\x7d" (.onLocal (.failed "false a" (some 1))),
      .step 3 "CMD false \x7b\x7bT\x7d\x7d" (.onLocal (.failed "false b" (some 1))),
      by decide +kernel, by decide +kernel, by decide +kernel, by decide +kernel⟩

end Failing

end Deployment

end Rollout

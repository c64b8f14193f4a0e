import Rollout.Proofs.ExitCodes
import Rollout.Proofs.Operator

/-!
# Passwords from the standard input

A login without a password is asked for one, and where the standard input is no terminal the answer is its next
line. Nothing else in a run uses the input but the programs that a script runs, so in a script without them the
logins get the lines in order, one each. At the end of the input a login gets an empty password.
-/

namespace Rollout

open Rollout.Terminal (answerTo inputLines)

namespace Deployment

open Rollout.Script (Action Login Step)
open Rollout.Session (Target)
open Rollout.Ssh (Console Refusal World)

/-- The answers to the questions for a password. -/
def askings (transcript : Transcript) : List (Except IoError String) :=
  transcript.filterMap fun exchange =>
    match exchange with
    | ⟨.askPassword _, answer⟩ => some answer
    | _ => none

/-- Where was dialed. -/
def dialings (transcript : Transcript) : List Target :=
  transcript.filterMap fun exchange =>
    match exchange with
    | ⟨.dial target, _⟩ => some target
    | _ => none

/-- The step is a `CONNECT` without a password. -/
def Part.prompts (part : Part) : Bool :=
  match part.step.action with
  | .connect login => login.password.isNone
  | _ => false

/-- The step asked once, was answered so, and went on with the answer: it dialed with the password, or it failed
without dialing. -/
structure Part.Answered (part : Part) (reply : Except IoError String) : Prop where
  once : askings part.transcript = [reply]
  dials : ∀ login, part.action = .connect login →
    dialings part.transcript = (reply.toOption.map (targetOf login)).toList
  fails : ∀ error, reply = .error error → part.outcome.failure = some (.prompt error)

/-- The question could not be shown, and the step failed as one that could not ask. -/
def Part.Unshown (part : Part) (refusal : Refusal) : Prop :=
  ∃ shown error, refusal shown .err (Terminal.question Session.passwordQuestion) = some error ∧
    part.Answered (.error error)

section Steps

variable {setup : Setup} {context : Context} {login : Login} {transcript : Transcript} {outcome : Outcome}

theorem disconnect_apart {closing : Transcript} (closed : (disconnect context).Yields closing context.alone) :
    (∀ exchange ∈ closing, exchange.request.Apart) ∧ askings closing = [] ∧ dialings closing = [] := by
  obtain ⟨_, shape⟩ := yields_disconnect_iff.1 closed
  split at shape
  · subst shape
    exact ⟨by simp, rfl, rfl⟩
  · obtain ⟨answer, rfl⟩ := shape
    exact ⟨by simp [Request.Apart], rfl, rfl⟩

theorem localDirectoryOf_apart {locating : Transcript} {reply : Except IoError String}
    (located : (localDirectoryOf setup).Yields locating reply) :
    (∀ exchange ∈ locating, exchange.request.Apart) ∧ askings locating = [] ∧ dialings locating = [] := by
  rcases localDirectoryOf_cases located with ⟨rfl, _⟩ | rfl
  · exact ⟨by simp, rfl, rfl⟩
  · exact ⟨by simp [Request.Apart], rfl, rfl⟩

theorem askings_append (first second : Transcript) : askings (first ++ second) = askings first ++ askings second :=
  List.filterMap_append

theorem dialings_append (first second : Transcript) :
    dialings (first ++ second) = dialings first ++ dialings second :=
  List.filterMap_append

/-- A connect closes, gets its password, and goes on with it. -/
theorem Connects.parts (connects : Connects setup context login transcript outcome) :
    ∃ closing asking reply rest, (disconnect context).Yields closing context.alone ∧
      (passwordFor login).Yields asking reply ∧ transcript = closing ++ (asking ++ rest) ∧
      (∀ exchange ∈ rest, exchange.request.Apart) ∧ askings rest = [] ∧
      dialings rest = (reply.toOption.map (targetOf login)).toList ∧
      ∀ error, reply = .error error → outcome.failure = some (.prompt error) := by
  cases connects with
  | @unanswered closing asking error closed asked =>
    refine ⟨closing, asking, _, [], closed, asked, by simp, by simp, rfl, rfl, ?_⟩
    rintro _ ⟨⟩
    rfl
  | refused closed asked =>
    exact ⟨_, _, _, _, closed, asked, rfl, by simp [Request.Apart], rfl, rfl, nofun⟩
  | homeless closed asked =>
    exact ⟨_, _, _, _, closed, asked, rfl, by simp [Request.Apart], rfl, rfl, nofun⟩
  | @astray closing asking locating password _ _ _ closed asked located
  | @connected closing asking locating password _ _ _ closed asked located =>
    obtain ⟨apart, unasked, undialed⟩ := localDirectoryOf_apart located
    refine ⟨closing, asking, _, _, closed, asked, rfl, ?_, unasked, ?_, nofun⟩
    · simpa [Request.Apart] using apart
    · change targetOf login password :: dialings locating = _
      rw [undialed]
      rfl

/-- A connect without a password asks once, and nothing else that it asks for has a part in the answer. -/
theorem Connects.prompts (connects : Connects setup context login transcript outcome)
    (asks : login.password = none) : ∃ closing reply rest,
      transcript = closing ++ ⟨.askPassword Session.passwordQuestion, reply⟩ :: rest ∧
      (∀ exchange ∈ closing, exchange.request.Apart) ∧ (∀ exchange ∈ rest, exchange.request.Apart) ∧
      askings transcript = [reply] ∧ dialings transcript = (reply.toOption.map (targetOf login)).toList ∧
      ∀ error, reply = .error error → outcome.failure = some (.prompt error) := by
  obtain ⟨closing, asking, reply, rest, closed, asked, rfl, apart, unasked, dialed, fails⟩ := connects.parts
  obtain ⟨closingApart, closingUnasked, closingUndialed⟩ := disconnect_apart closed
  unfold passwordFor at asked
  rw [asks] at asked
  obtain rfl := Dialogue.yields_request_iff.1 asked
  refine ⟨closing, reply, rest, rfl, closingApart, apart, ?_, ?_, fails⟩
  · rw [askings_append, closingUnasked]
    change reply :: askings rest = _
    rw [unasked]
  · rw [dialings_append, closingUndialed]
    exact dialed

/-- A connect with a password does not ask. -/
theorem Connects.apart (connects : Connects setup context login transcript outcome)
    (given : login.password ≠ none) : ∀ exchange ∈ transcript, exchange.request.Apart := by
  obtain ⟨closing, asking, reply, rest, closed, asked, rfl, apart, -⟩ := connects.parts
  obtain ⟨password, known⟩ := Option.ne_none_iff_exists'.1 given
  unfold passwordFor at asked
  rw [known] at asked
  obtain ⟨rfl, _⟩ := Dialogue.yields_pure_iff.1 asked
  exact List.forall_mem_append.2 ⟨(disconnect_apart closed).1, apart⟩

/-- Nothing else that is carried out asks, and only a `CMD` runs a program that can use the input. -/
theorem apart_of_reach {action : Action} (noProgram : ∀ program arguments, action ≠ .cmd program arguments)
    {request : Request} (reached : reach context action request) : request.Apart := by
  cases request with
  | askPassword => exact reached.elim
  | machine call =>
    cases call with
    | run directory argv =>
      cases action with
      | cmd program arguments => exact noProgram program arguments rfl
      | _ => exact reached.elim
    | _ => trivial
  | _ => trivial

end Steps

/-- Where nothing is refused, every question is shown. -/
theorem Part.not_unshown (part : Part) : ¬ part.Unshown fun _ _ _ => none := by
  rintro ⟨_, _, refused, _⟩
  cases refused

theorem Part.prompts_iff {part : Part} :
    part.prompts = true ↔ ∃ login, part.action = .connect login ∧ login.password = none := by
  unfold Part.prompts Part.action
  cases part.step.action with
  | connect login => simp [Action.substitute]
  | _ => simp [Action.substitute]

theorem Executes.connect {setup : Setup} {context : Context} {login : Login} {transcript : Transcript}
    {outcome : Outcome} (executes : Executes setup context (.connect login) transcript outcome) :
    Connects setup context login transcript outcome := by
  cases executes with
  | unconnected needed => cases needed
  | connects connects => exact connects
  | changed other | failed other => exact absurd rfl (other login)

/-- A step that is no `CONNECT` without a password and runs no program has no part in what the operator
enters. -/
theorem Part.Happens.apart {setup : Setup} {part : Part} (happens : part.Happens setup)
    (noProgram : ∀ program arguments, part.step.action ≠ .cmd program arguments) (quiet : part.prompts = false) :
    ∀ exchange ∈ part.transcript, exchange.request.Apart := by
  have other : ∀ program arguments, part.action ≠ .cmd program arguments := by
    unfold Part.action
    cases written : part.step.action with
    | cmd program arguments => exact absurd written (noProgram program arguments)
    | _ => simp [Action.substitute]
  have executes := happens.executes
  generalize resolved : part.action = action at executes other
  generalize part.transcript = transcript at executes ⊢
  generalize part.outcome = outcome at executes
  cases executes with
  | unconnected => simp
  | @connects login _ _ connects =>
    refine connects.apart fun asks => ?_
    rw [Part.prompts_iff.2 ⟨login, resolved, asks⟩] at quiet
    cases quiet
  | changed _ connected run | failed _ connected run =>
    exact fun exchange member => apart_of_reach other ((change_keeps connected run).asked exchange member)

/-- One step: a `CONNECT` without a password is answered with the first line that is held, unless its question is
refused, and any other step leaves the lines as they are. -/
theorem Part.Happens.answered {setup : Setup} {part : Part} (happens : part.Happens setup)
    (noProgram : ∀ program arguments, part.step.action ≠ .cmd program arguments) {world after : World}
    {console : Console} {input : Terminal.Input} {refusal : Refusal}
    (sits : world.operator = (some console, input, refusal)) (piped : console.keys = false)
    (answered : world.Answers part.transcript after) :
    (part.prompts = true → part.Unshown refusal ∨ part.Answered (answerTo (inputLines input.held).head?)) ∧
      (part.outcome.failure = none → ∃ left, after.operator = (some console, left, refusal) ∧
        inputLines left.held = (inputLines input.held).drop (if part.prompts then 1 else 0)) := by
  cases prompts : part.prompts with
  | true =>
    obtain ⟨login, resolved, asks⟩ := Part.prompts_iff.1 prompts
    have executes := happens.executes
    rw [resolved] at executes
    obtain ⟨closing, reply, rest, said, before, behind, once, dials, fails⟩ := executes.connect.prompts asks
    have given : part.Answered reply := by
      refine ⟨once, fun other same => ?_, fails⟩
      obtain rfl : login = other := by simpa [resolved] using same
      exact dials
    rw [said] at answered
    obtain ⟨between, closed, asked⟩ := World.answers_append_iff.1 answered
    obtain ⟨told, onward⟩ := World.answers_cons asked
    have here := (World.answers_operator closed before).trans sits
    rcases World.ask_spec here piped Session.passwordQuestion with
      ⟨shown, error, refused, failed⟩ | ⟨answer, left, remains, lines⟩
    · obtain rfl : reply = .error error := told.trans failed
      exact ⟨fun _ => .inl ⟨shown, error, refused, given⟩, fun succeeds => by simp [fails error rfl] at succeeds⟩
    · obtain rfl : reply = answerTo (inputLines input.held).head? := told.trans answer
      refine ⟨fun _ => .inr given, fun _ => ⟨left, ?_, by simpa using lines⟩⟩
      exact (World.answers_operator onward behind).trans remains
  | false =>
    have apart := happens.apart noProgram prompts
    exact ⟨nofun, fun _ => ⟨input, (World.answers_operator answered apart).trans sits, by simp⟩⟩

/-- All steps: the `CONNECT` steps without a password are answered with the lines in order, one each, up to one whose
question is refused. -/
theorem Course.answered {setup : Setup} {steps : List Step} {context final : Context} {parts : List Part}
    {result : Except RunError Unit} {transcript : Transcript}
    (course : Course setup steps context parts final result transcript)
    (noProgram : ∀ step ∈ steps, ∀ program arguments, step.action ≠ .cmd program arguments) {world after : World}
    {console : Console} {input : Terminal.Input} {refusal : Refusal}
    (sits : world.operator = (some console, input, refusal)) (piped : console.keys = false)
    (answered : world.Answers transcript after) {before later : List Part}
    {part : Part} (split : parts = before ++ part :: later) (prompts : part.prompts = true) :
    part.Unshown refusal ∨ part.Answered (answerTo (inputLines input.held)[before.countP Part.prompts]?) := by
  induction course generalizing world input before with
  | finished => simp at split
  | failed happens fails =>
    cases before with
    | nil =>
      obtain ⟨rfl, _⟩ := List.cons.inj split
      have here := (happens.answered (noProgram _ List.mem_cons_self) sits piped answered).1 prompts
      simpa [List.head?_eq_getElem?] using here
    | cons => simp at split
  | passed happens succeeds _ ih =>
    obtain ⟨here, others⟩ := List.forall_mem_cons.1 noProgram
    obtain ⟨between, spoken, told⟩ := World.answers_append_iff.1 answered
    obtain ⟨own, remaining⟩ := happens.answered here sits piped spoken
    cases before with
    | nil =>
      obtain ⟨rfl, _⟩ := List.cons.inj split
      simpa [List.head?_eq_getElem?] using own prompts
    | cons first before =>
      obtain ⟨rfl, rest⟩ := List.cons.inj split
      obtain ⟨left, remains, lines⟩ := remaining succeeds
      obtain ⟨-, onward⟩ := World.answers_cons told
      have next := ih others ((World.tell_operator _ _).trans remains) onward rest
      rw [lines, List.getElem?_drop] at next
      rw [List.countP_cons, Nat.add_comm]
      exact next

/-- What is promised of a step that asks, for its line of the standard input. It asks once. If there is a line, it
dials with that line without its ending. If there is none, it fails as one that could not ask, and nothing is
dialed. -/
def Part.KeepsTo (part : Part) (line : Option Bytes) : Prop :=
  (askings part.transcript).length = 1 ∧
    match line with
    | some bytes => ∃ text login, Text.decode? bytes = some text ∧ part.action = .connect login ∧
        dialings part.transcript = [targetOf login (Terminal.withoutEnding text)]
    | none => dialings part.transcript = [] ∧ ∃ error, part.outcome.failure = some (.prompt error)

/-- There is a line, it is text, and no carriage return stands before its ending. -/
def Clear (line : Option Bytes) : Prop :=
  ∃ bytes text, line = some bytes ∧ Text.decode? bytes = some text ∧
    (Terminal.withoutEnding text).toList.getLast? ≠ some '\r'

/-- The promise is kept for a line that is clear and for no other, and never without a line. -/
theorem Part.Answered.keepsTo_iff {part : Part} {line : Option Bytes} {stdin : Bytes}
    (answered : part.Answered (answerTo line)) (prompts : part.prompts = true)
    (among : ∀ bytes ∈ line, bytes ∈ inputLines stdin) : part.KeepsTo line ↔ Clear line := by
  obtain ⟨login, resolved, -⟩ := Part.prompts_iff.1 prompts
  have asked : (askings part.transcript).length = 1 := by rw [answered.once]; rfl
  have dials := answered.dials login resolved
  cases line with
  | none =>
    have dialed : dialings part.transcript = [targetOf login ""] := dials
    simp [Part.KeepsTo, Clear, dialed]
  | some bytes =>
    cases read : Text.decode? bytes with
    | none => simp [Part.KeepsTo, Clear, read]
    | some text =>
      have dialed : dialings part.transcript = [targetOf login (Terminal.withoutEnd text)] := by
        simpa [answerTo, read, Except.toOption] using dials
      have cut := Terminal.withoutEnd_eq_iff (Terminal.newline_not_mem_text (among bytes rfl) read)
      simp [Part.KeepsTo, Clear, read, resolved, asked, dialed, targetOf, cut]

end Deployment

namespace CommandLine

open Rollout.Deployment
open Rollout.Ssh (Console World)

theorem openLog_input {machine after : Machine} {directory path : String}
    (opened : openLog machine directory path = .ok after) : after.input = machine.input := by
  unfold openLog at opened
  split at opened
  next made =>
    cases opened
    exact Machine.ensureFile_input made
  next =>
    split at opened
    · cases opened
    next between made =>
      split at opened
      next madeThere =>
        cases opened
        exact (Machine.ensureFile_input madeThere).trans (Machine.makeDirectoriesWithin_input made)
      next => cases opened

/-- Opening the log leaves the operator as he was. -/
theorem withLog_operator (world : World) (logFile : Option String) :
    (withLog world logFile).2.operator = world.operator := by
  unfold withLog
  split
  · rfl
  · split
    · rfl
    · dsimp only
      split
      next opened =>
        unfold World.operator
        rw [← openLog_input opened]
      next => rfl

theorem begun_operator (world : World) (arguments : Arguments) :
    (begun world arguments).operator = world.operator := by
  have opened := withLog_operator world arguments.logFile
  unfold begun
  generalize withLog world arguments.logFile = begins at *
  obtain ⟨warning, after⟩ := begins
  cases warning with
  | none => exact opened
  | some text =>
    change (after.print .err text).operator = world.operator
    obtain ⟨_, same⟩ := after.print_eq .err text
    rw [same]
    exact opened

/-- A script that is read from the standard input leaves nothing of it. -/
theorem source_operator (world : World) (script : Option String) :
    (source world script).2.operator = (world.operator.1,
      { world.operator.2.1 with waiting := if script.isSome then world.operator.2.1.waiting else [] },
      world.operator.2.2) := by
  cases script with
  | none => rfl
  | some path =>
    simp only [source]
    cases world.machine.contentAt path <;> rfl

section Calls

/-- What of the standard input is there for the run: all of it if the script is read from a file, and nothing if it
is read from the input. -/
def stdinLeft (world : World) (arguments : Arguments) : Bytes :=
  if arguments.script.isSome then world.machine.input else []

theorem answered_of_parts (world : World) (arguments : Arguments) {console : Console}
    (sits : world.console = some console) (piped : console.keys = false) (fresh : world.taken = {}) {setup : Setup}
    {script : Script} (noProgram : ∀ step ∈ script.steps, ∀ program words, step.action ≠ .cmd program words)
    {before after : List Part} {part : Part}
    (split : (surroundings world arguments).parts setup script = before ++ part :: after)
    (prompts : part.prompts = true) :
    part.Unshown world.refusal ∨
      part.Answered (answerTo (inputLines (stdinLeft world arguments))[before.countP Part.prompts]?) := by
  let start := running world arguments
  have operator : start.operator = (some console, { waiting := stdinLeft world arguments }, world.refusal) := by
    have same : start.operator = (source (begun world arguments) arguments.script).2.operator := rfl
    rw [same, source_operator, begun_operator]
    simp [World.operator, sits, fresh, stdinLeft]
  obtain ⟨_, answered⟩ := start.answers_under [] (runSteps setup script.steps {})
  have course := course_under setup start.replies script.steps {} []
  exact course.answered noProgram operator piped answered split prompts

/-- A script of one step has one part. -/
theorem parts_singleton (found : Surroundings) (setup : Setup) (step : Script.Step) :
    found.parts setup { steps := [step] } = [partUnder setup found.behaviour step {} []] := by
  simp only [Surroundings.parts, partsUnder]
  split <;> rfl

end Calls

/-- In a run without a `CMD`, with a standard input that is no terminal, each `CONNECT` without a password that is
reached asks once, and is answered by the next line of what there is of the input: it dials with the line without
the line feed and all carriage returns at its end, with an empty password if there is no line, and fails without
dialing if the line is no text. So it dials with just the line without its ending, or fails where there is no
line, exactly if there is a line, it is text, and no carriage return stands before its ending. One whose question
cannot be shown fails without dialing. -/
theorem prompted_passwords_in_order (world : World) (arguments : Arguments) (console : Console)
    (sits : world.console = some console) (piped : console.keys = false) (fresh : world.taken = {}) :
    let found := surroundings world arguments
    ∀ (setup : Setup) (script : Script),
      (∀ step ∈ script.steps, ∀ program words, step.action ≠ .cmd program words) →
      ∀ before part after, found.parts setup script = before ++ part :: after → part.prompts = true →
        let line := (inputLines (stdinLeft world arguments))[before.countP Part.prompts]?
        part.Unshown world.refusal ∨ (part.Answered (answerTo line) ∧ (part.KeepsTo line ↔ Clear line)) := by
  intro found setup script noProgram before part after split prompts line
  refine (answered_of_parts world arguments sits piped fresh noProgram split prompts).imp_right fun answered => ?_
  exact ⟨answered, answered.keepsTo_iff prompts fun bytes among => List.mem_of_getElem? among⟩

def askingStep : Script.Step :=
  { action := .connect { username := "u", host := "h", port := 22, password := none }, line := 1 }

theorem noProgram_askingStep : ∀ step ∈ [askingStep], ∀ program words, step.action ≠ .cmd program words := by
  simp [askingStep]

/-- A world in which nothing stands but the standard input, at the beginning of a call. -/
def piping (stdin : Bytes) : World where
  machine := { files := {}, directory := "/", input := stdin }
  console := some {}

/-- A line with a carriage return before its line feed, and a second line. -/
theorem prompted_passwords_in_order_piping :
    ∃ part, (surroundings (piping [112, 119, 13, 10, 120]) { script := some "s" }).parts {}
        { steps := [askingStep] } = [part] ∧
      part.Answered (.ok "pw") ∧ part.KeepsTo (some [112, 119, 13, 10]) := by
  let found := surroundings (piping [112, 119, 13, 10, 120]) { script := some "s" }
  let part := partUnder {} found.behaviour askingStep {} []
  have only : found.parts {} { steps := [askingStep] } = [part] := parts_singleton found {} askingStep
  have read : Text.decode? [112, 119, 13, 10] = some "pw\r\n" := by rfl
  obtain ⟨answered, keeps⟩ := (prompted_passwords_in_order (piping [112, 119, 13, 10, 120]) { script := some "s" } {}
    rfl rfl rfl {} { steps := [askingStep] } noProgram_askingStep [] part [] only rfl).resolve_left part.not_unshown
  exact ⟨part, only, answered, keeps.2 ⟨_, _, rfl, read, by decide⟩⟩

/-- At the end of the standard input an empty password is dialed with. -/
theorem empty_password_dialed :
    ∃ part, (surroundings (piping []) { script := some "s" }).parts {}
        { steps := [askingStep] } = [part] ∧ part.prompts = true ∧
      (inputLines (stdinLeft (piping []) { script := some "s" }))[0]? = none ∧
      dialings part.transcript = [{ host := "h", port := 22, username := "u", password := "" }] ∧
      ¬ part.KeepsTo none := by
  let found := surroundings (piping []) { script := some "s" }
  let part := partUnder {} found.behaviour askingStep {} []
  have only : found.parts {} { steps := [askingStep] } = [part] := parts_singleton found {} askingStep
  have split : found.parts {} { steps := [askingStep] } = [] ++ part :: [] := only
  have answered : part.Answered (.ok "") :=
    (answered_of_parts (piping []) { script := some "s" } rfl rfl rfl noProgram_askingStep split rfl).resolve_left
      part.not_unshown
  have dialed : dialings part.transcript = [{ host := "h", port := 22, username := "u", password := "" }] :=
    answered.dials { username := "u", host := "h", port := 22, password := none } (by decide +kernel)
  refine ⟨part, only, rfl, rfl, dialed, fun kept => ?_⟩
  rw [kept.2.1] at dialed
  cases dialed

end CommandLine

end Rollout

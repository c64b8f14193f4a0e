import Rollout.Proofs.Discretion
import Rollout.Proofs.Exchanges
import Rollout.Proofs.Shapes

/-!
# Commands that can be started

A machine refuses to start an empty command, and it does so for no other command. In a run of a script that
was accepted it is never asked to: an action that starts something there has something to start, and
resolving placeholders can empty its words but takes none of them away.
-/

namespace Rollout.Deployment

open Rollout.Script (Action Source Step)

/-- The request does not start an empty command on the operator's machine. -/
def Request.Starts : Request → Prop
  | .machine (.run _ argv) | .machine (.capture _ argv) => argv ≠ []
  | _ => True

/-- If the exchange says that a command is empty, it is. -/
def Exchange.FindsEmpty : Exchange → Prop
  | ⟨.machine (.run _ argv), answer⟩ => answer = (.error .emptyCommand : Except LocalError Unit) → argv = []
  | ⟨.machine (.capture _ argv), answer⟩ => answer = (.error .emptyCommand : Except LocalError String) → argv = []
  | _ => True

section Machine

open Rollout.Machine

theorem spawn_emptyCommand {machine : Machine} {directory : Option String} {argv : List String}
    (refuses : spawn machine directory argv = .error .emptyCommand) : argv = [] := by
  unfold spawn at refuses
  split at refuses
  · rfl
  · dsimp only at refuses
    split at refuses
    · cases refuses
    · split at refuses
      · cases refuses
      · split at refuses <;> cases refuses

theorem result_ne_emptyCommand (ended : Ended) (argv : List String) :
    ended.result argv ≠ .error .emptyCommand := by
  unfold Ended.result
  split <;> simp

/-- The operator's machine finds no command empty but the empty one. -/
theorem machine_findsEmpty (machine : Machine) (call : MachineCall) :
    Exchange.FindsEmpty ⟨.machine call, (machine.answer call).2.2⟩ := by
  cases call with
  | run directory argv =>
    intro refuses
    simp only [Machine.answer, stream] at refuses
    split at refuses
    next error fails => exact spawn_emptyCommand (fails.trans (congrArg _ (Except.error.inj refuses)))
    next ended _ => exact absurd refuses (result_ne_emptyCommand ended argv)
  | capture directory argv =>
    intro refuses
    simp only [Machine.answer, capture] at refuses
    split at refuses
    next error fails => exact spawn_emptyCommand (fails.trans (congrArg _ (Except.error.inj refuses)))
    next ended _ =>
      cases ends : ended.result argv with
      | ok => simp [ends, Except.map] at refuses
      | error error =>
        rw [ends] at refuses
        obtain rfl : error = .emptyCommand := Except.error.inj refuses
        exact absurd ends (result_ne_emptyCommand ended argv)
  | _ => trivial

theorem replies_findsEmpty (world : Ssh.World) (past : Transcript) (request : Request) :
    Exchange.FindsEmpty ⟨request, world.replies past request⟩ := by
  cases request with
  | machine call => exact machine_findsEmpty (world.replay past).machine call
  | _ => trivial

end Machine

section Runs

variable {setup : Setup} {context final : Context} {action : Action} {part : Part} {parts : List Part}
  {steps : List Step} {result : Except RunError Unit} {transcript : Transcript}

/-- An action that lacks nothing starts something, with whatever values its words are resolved. -/
theorem localArgv?_ne_nil {argv : List String} (complete : action.Complete) (table : Variables)
    (starts : localArgv? (action.substitute table) = some argv) : argv ≠ [] := by
  cases action with
  | cmd program arguments =>
    cases starts
    simp
  | var key source =>
    cases source with
    | command side words =>
      cases side with
      | here =>
        cases starts
        have nonempty : words ≠ [] := complete.2
        simpa using nonempty
      | remote => cases starts
    | environment side name => cases side <;> cases starts
    | literal => cases starts
  | _ => cases starts

/-- A step of an action that lacks nothing starts no empty command. -/
theorem Part.Happens.starts (happens : part.Happens setup) (complete : part.step.action.Complete) :
    ∀ exchange ∈ part.transcript, exchange.request.Starts := by
  intro exchange member
  obtain ⟨request, answer⟩ := exchange
  cases request with
  | machine call =>
    cases call with
    | run => exact localArgv?_ne_nil complete _ (executes_argv happens.executes member (.inl rfl))
    | capture => exact localArgv?_ne_nil complete _ (executes_argv happens.executes member (.inr rfl))
    | _ => trivial
  | _ => trivial

/-- A step fails with an empty command only if it is told so. -/
theorem Part.Happens.emptyCommand (happens : part.Happens setup) (complete : part.step.action.Complete)
    (finds : ∀ exchange ∈ part.transcript, exchange.FindsEmpty) :
    part.outcome.failure ≠ some (.onLocal .emptyCommand) := by
  intro fails
  have starts := happens.starts complete
  obtain ⟨last, member, blamed⟩ := (executes_stops happens.executes fails).blamed
  cases blamed with
  | run directory argv error => exact starts _ member (finds _ member rfl)
  | capture directory argv error => exact starts _ member (finds _ member rfl)

/-- Along a course of actions that lack nothing, no empty command is started. -/
theorem Course.starts (course : Course setup steps context parts final result transcript)
    (complete : ∀ step ∈ steps, step.action.Complete) :
    (∀ exchange ∈ transcript, exchange.request.Starts) ∧
      ((∀ exchange ∈ transcript, exchange.FindsEmpty) →
        ∀ number shown, result ≠ .error (.step number shown (.onLocal .emptyCommand))) := by
  induction course with
  | finished => exact ⟨by simp [Request.Starts], fun _ _ _ impossible => by cases impossible⟩
  | @failed part rest cause happens fails =>
    have here := complete part.step List.mem_cons_self
    refine ⟨happens.starts here, fun finds number shown returned => ?_⟩
    cases returned
    exact happens.emptyCommand here finds fails
  | passed happens succeeds _ ih =>
    obtain ⟨here, rest⟩ := List.forall_mem_cons.1 complete
    obtain ⟨starts, never⟩ := ih rest
    refine ⟨List.forall_mem_append.2 ⟨happens.starts here, List.forall_mem_cons.2 ⟨trivial, starts⟩⟩, ?_⟩
    intro finds
    exact never (List.forall_mem_cons.1 (List.forall_mem_append.1 finds).2).2

theorem starts_of_connectReach {request : Request} (reached : connectReach request) : request.Starts := by
  cases request with
  | machine call =>
    cases call with
    | run | capture => exact reached.elim
    | _ => trivial
  | _ => trivial

/-- In a run of actions that lack nothing no empty command is started, and the run does not fail with one
where a command is found empty only if it is. -/
theorem run_starts {script : Script} (complete : ∀ step ∈ script.steps, step.action.Complete) (setup : Setup)
    (behaviour : Behaviour) :
    let said := (run setup script).under behaviour []
    (∀ exchange ∈ said.1, exchange.request.Starts) ∧
      ((∀ exchange ∈ said.1, exchange.FindsEmpty) →
        ∀ number shown, said.2.2 ≠ .error (.step number shown (.onLocal .emptyCommand))) := by
  obtain ⟨starts, never⟩ := (course_under setup behaviour script.steps {} []).starts complete
  intro said
  have split : said = _ := run_under setup script behaviour []
  rw [split]
  refine ⟨List.forall_mem_append.2 ⟨starts, fun exchange member => ?_⟩, fun finds => ?_⟩
  · exact starts_of_connectReach (disconnect_under_reach _ _ _ exchange member)
  · exact never (List.forall_mem_append.1 finds).1

/-- The actions of a script that is accepted are in good shape, and keep their shape whatever the variables
hold. In no run of the script, however it is answered, is an empty command started; no run fails with an
empty command where one is found empty only if it is, and so it is in every world. -/
theorem parse_well_shaped {source : String} {script : Script} (read : Script.parse source = .ok script) :
    (∀ step ∈ script.steps, step.action.WellShaped ∧
      ∀ table : Variables, (step.action.substitute table).shape = step.action.shape) ∧
    (∀ (setup : Setup) (behaviour : Behaviour),
      let said := (run setup script).under behaviour []
      (∀ exchange ∈ said.1, exchange.request.Starts) ∧
        ((∀ exchange ∈ said.1, exchange.FindsEmpty) →
          ∀ number shown, said.2.2 ≠ .error (.step number shown (.onLocal .emptyCommand)))) ∧
    ∀ (setup : Setup) (world : Ssh.World) (number : Nat) (shown : String),
      (world.carryOut (run setup script)).1.2 ≠ .error (.step number shown (.onLocal .emptyCommand)) := by
  have shaped : ∀ step ∈ script.steps, step.action.WellShaped := fun step => Script.wellShaped_of_parse read
  have runs := run_starts fun step member => (shaped step member).complete
  refine ⟨fun step member => ⟨shaped step member, fun table => Action.shape_substitute table _⟩, runs, ?_⟩
  intro setup world number shown
  have carried : (world.carryOut (run setup script)).1 = ((run setup script).under world.replies []).2 :=
    congrArg Prod.fst (world.carryOut_eq_under [] (run setup script))
  rw [carried]
  exact (runs setup world.replies).2 (Dialogue.forall_under (replies_findsEmpty world) _ _) number shown

/-- A login with an at sign in its password, words that a value can empty, and a command of quotes only. -/
theorem parse_well_shaped_emptied :
    let script : Script := { steps := [
      ⟨.connect { username := "u", host := "h", port := 2222, password := some "p@q:r" }, 1⟩,
      ⟨.var "X" (.command .here ["\x7b\x7bA\x7d\x7d", ""]), 2⟩, ⟨.cmd "" [], 3⟩] }
    Script.parse "CONNECT u:p@q:r@h:2222\nVAR X = CMD( \x7b\x7bA\x7d\x7d '' )\nCMD ''" = .ok script ∧
      ∀ step ∈ script.steps, step.action.WellShaped := by
  intro script
  have read : Script.parse "CONNECT u:p@q:r@h:2222\nVAR X = CMD( \x7b\x7bA\x7d\x7d '' )\nCMD ''" = .ok script := by
    decide
  exact ⟨read, fun step member => ((parse_well_shaped read).1 step member).1⟩

end Runs

end Rollout.Deployment

import Rollout.CommandLine.Program
import Rollout.Deployment.Run
import Rollout.Script.Reader
import Rollout.Proofs.Discretion
import Rollout.Terminal.Report

/-!
# What passwords touch

A password that stands in a script goes into the dial and nowhere else. To veil something is to empty the
passwords in it, so that two scripts that differ in nothing but their passwords are those that are one
script veiled. Placeholders are resolved in passwords too, but no password can become a part of anything
else by that.

`Alike` sets two dialogues side by side that differ in the passwords they dial with and tell of. In a world
that is blind to passwords they run alike: what is said is the same veiled, and what they return is the
same as it is.
-/

namespace Rollout

open Rollout.Script (Action Login Step)
open Rollout.Session (Target)

def Session.Target.veiled (target : Target) : Target :=
  { target with password := "" }

namespace Script

/-- The login with its password emptied, if it has one. -/
def Login.veiled (login : Login) : Login :=
  { login with password := login.password.map fun _ => "" }

def Action.veiled : Action → Action
  | .connect login => .connect login.veiled
  | action => action

def Step.veiled (step : Step) : Step :=
  { step with action := step.action.veiled }

end Script

def Script.veiled (script : Script) : Script :=
  { steps := script.steps.map Step.veiled }

section Listings

open Rollout.CommandLine (textListing jsonListing stepLine stepLines)

theorem Script.Action.display_veiled (action : Action) : action.veiled.display = action.display := by
  cases action <;> rfl

theorem Script.Action.json_veiled (action : Action) : action.veiled.json = action.json := by
  cases action <;> rfl

theorem stepLines_veiled (number : Nat) (steps : List Step) :
    stepLines number (steps.map Step.veiled) = stepLines number steps := by
  induction steps generalizing number with
  | nil => rfl
  | cons step rest ih =>
    have line : stepLine number step.veiled = stepLine number step := by
      simp [stepLine, Step.veiled, Action.display_veiled]
    rw [List.map_cons, stepLines, stepLines, line, ih]

theorem textListing_veiled (script : Script) : textListing script.veiled = textListing script := by
  simp [textListing, Script.veiled, stepLines_veiled]

theorem jsonListing_veiled (script : Script) : jsonListing script.veiled = jsonListing script := by
  have each : Step.json ∘ Step.veiled = Step.json := by
    funext step
    simp [Step.json, Step.veiled, Action.json_veiled]
  simp [jsonListing, Script.json, Script.veiled, each]

end Listings

section Alike

variable {login login' : Login} {action action' : Action}

/-- Logins that are one veiled differ in nothing but in passwords that both have. -/
theorem Script.Login.eq_or_of_veiled (same : login.veiled = login'.veiled) :
    login = login' ∨ ∃ password password',
      login.password = some password ∧ login' = { login with password := some password' } := by
  obtain ⟨username, host, port, password⟩ := login
  obtain ⟨username', host', port', password'⟩ := login'
  simp only [Login.veiled, Login.mk.injEq] at same
  obtain ⟨rfl, rfl, rfl, both⟩ := same
  cases password with
  | none =>
    cases password' with
    | none => exact .inl rfl
    | some => cases both
  | some password =>
    cases password' with
    | none => cases both
    | some password' => exact .inr ⟨password, password', rfl, rfl⟩

/-- Actions that are one veiled are one, or they are connects. -/
theorem Script.Action.eq_or_of_veiled (same : action.veiled = action'.veiled) :
    action = action' ∨ ∃ login login',
      action = .connect login ∧ action' = .connect login' ∧ login.veiled = login'.veiled := by
  cases action with
  | connect login =>
    cases action' with
    | connect login' => exact .inr ⟨login, login', rfl, rfl, Action.connect.inj same⟩
    | _ => cases same
  | _ =>
    cases action' with
    | connect => cases same
    | _ => exact .inl same

/-- Resolving placeholders brings no password to light. -/
theorem Script.Action.veiled_substitute (table : Variables) (same : action.veiled = action'.veiled) :
    (action.substitute table).veiled = (action'.substitute table).veiled := by
  rcases eq_or_of_veiled same with rfl | ⟨login, login', rfl, rfl, alike⟩
  · rfl
  · rcases Login.eq_or_of_veiled alike with rfl | ⟨password, password', has, rfl⟩
    · rfl
    · simp [Action.substitute, Action.veiled, Login.veiled, has]

end Alike

namespace Deployment

def Report.veiled : Report → Report
  | .stepCompleted number action => .stepCompleted number action.veiled
  | report => report

/-- The exchange without the password that was dialed with, or that stands in the action told of. -/
def Exchange.veiled : Exchange → Exchange
  | ⟨.dial target, answer⟩ => ⟨.dial target.veiled, answer⟩
  | ⟨.report report, answer⟩ => ⟨.report report.veiled, answer⟩
  | exchange => exchange

theorem Exchange.veiled_dial {target target' : Target} (same : target.veiled = target'.veiled)
    (answer : Except SessionError SessionId) :
    Exchange.veiled ⟨.dial target, answer⟩ = Exchange.veiled ⟨.dial target', answer⟩ := by
  change (⟨.dial target.veiled, answer⟩ : Exchange) = ⟨.dial target'.veiled, answer⟩
  rw [same]

theorem Exchange.veiled_report {report report' : Report} (same : report.veiled = report'.veiled) :
    Exchange.veiled ⟨.report report, ()⟩ = Exchange.veiled ⟨.report report', ()⟩ := by
  change (⟨.report report.veiled, ()⟩ : Exchange) = ⟨.report report'.veiled, ()⟩
  rw [same]

def Exchange.line? (coloured : Bool) (exchange : Exchange) : Option String :=
  match exchange.request with
  | .report report => Terminal.line? coloured report
  | _ => none

theorem Exchange.line?_veiled (coloured : Bool) (exchange : Exchange) :
    exchange.veiled.line? coloured = exchange.line? coloured := by
  obtain ⟨request, answer⟩ := exchange
  cases request with
  | report report =>
    cases report with
    | stepCompleted number action =>
      simp [Exchange.veiled, Report.veiled, Exchange.line?, Terminal.line?, Terminal.describe,
        Action.display_veiled]
    | _ => rfl
  | _ => rfl

/-- A world whose answers to dials do not depend on the password, and that does not come back to a password
later. -/
structure Blind (behaviour : Behaviour) : Prop where
  dials : ∀ past target target', target.veiled = target'.veiled →
    behaviour past (.dial target) = behaviour past (.dial target')
  forgets : ∀ past past' request, past.map Exchange.veiled = past'.map Exchange.veiled →
    behaviour past request = behaviour past' request

namespace Dialogue

variable {α β : Type}

/-- Two dialogues that differ in the passwords they dial with and tell of. -/
inductive Alike : Dialogue α → Dialogue α → Prop
  | done (result : α) : Alike (.done result) (.done result)
  | ask (request : Request) {next next' : request.Answer → Dialogue α}
      (rest : ∀ answer, Alike (next answer) (next' answer)) :
      Alike (.ask request next) (.ask request next')
  | dial {target target' : Target} (same : target.veiled = target'.veiled)
      {next next' : Except SessionError SessionId → Dialogue α}
      (rest : ∀ answer, Alike (next answer) (next' answer)) :
      Alike (.ask (.dial target) next) (.ask (.dial target') next')
  | tell {report report' : Report} (same : report.veiled = report'.veiled)
      {next next' : Unit → Dialogue α} (rest : Alike (next ()) (next' ())) :
      Alike (.ask (.report report) next) (.ask (.report report') next')

theorem Alike.refl (dialogue : Dialogue α) : dialogue.Alike dialogue := by
  induction dialogue with
  | done result => exact .done result
  | ask request next ih => exact .ask request ih

theorem Alike.bind {dialogue dialogue' : Dialogue α} {next next' : α → Dialogue β}
    (first : dialogue.Alike dialogue') (second : ∀ value, (next value).Alike (next' value)) :
    (dialogue >>= next).Alike (dialogue' >>= next') := by
  change (dialogue.bind next).Alike (dialogue'.bind next')
  induction first with
  | done result => exact second result
  | ask request _ ih => exact .ask request ih
  | dial same _ ih => exact .dial same ih
  | tell same _ ih => exact .tell same ih

/-- The same dialogue goes on alike in two ways. -/
theorem Alike.andThen (dialogue : Dialogue α) {next next' : α → Dialogue β}
    (second : ∀ value, (next value).Alike (next' value)) :
    (dialogue >>= next).Alike (dialogue >>= next') :=
  (Alike.refl dialogue).bind second

theorem map_veiled_concat {past past' : Transcript} {exchange exchange' : Exchange}
    (same : past.map Exchange.veiled = past'.map Exchange.veiled)
    (last : exchange.veiled = exchange'.veiled) :
    (past ++ [exchange]).map Exchange.veiled = (past' ++ [exchange']).map Exchange.veiled := by
  rw [List.map_append, List.map_append, same, List.map_singleton, List.map_singleton, last]

/-- In a blind world dialogues that are alike run alike. -/
theorem Alike.under {behaviour : Behaviour} (blind : Blind behaviour) {dialogue dialogue' : Dialogue α}
    (alike : dialogue.Alike dialogue') {past past' : Transcript}
    (same : past.map Exchange.veiled = past'.map Exchange.veiled) :
    (dialogue.under behaviour past).1.map Exchange.veiled =
        (dialogue'.under behaviour past').1.map Exchange.veiled ∧
      (dialogue.under behaviour past).2 = (dialogue'.under behaviour past').2 := by
  induction alike generalizing past past' with
  | done result => exact ⟨rfl, rfl⟩
  | ask request rest ih =>
    have answers := blind.forgets past past' request same
    have first : (⟨request, behaviour past request⟩ : Exchange) = ⟨request, behaviour past' request⟩ := by
      rw [answers]
    obtain ⟨said, returned⟩ := ih (behaviour past request) (map_veiled_concat same (congrArg _ first))
    simp only [Dialogue.under, ← answers, List.map_cons] at said returned ⊢
    exact ⟨congrArg _ said, returned⟩
  | @dial target target' veils next next' rest ih =>
    have answers : behaviour past (.dial target) = behaviour past' (.dial target') :=
      (blind.dials past target target' veils).trans (blind.forgets past past' _ same)
    generalize here : behaviour past (.dial target) = answer at answers
    have first := Exchange.veiled_dial veils answer
    obtain ⟨said, returned⟩ := ih answer (map_veiled_concat same first)
    simp only [Dialogue.under, List.map_cons, here, ← answers]
    exact ⟨congrArg₂ List.cons first said, returned⟩
  | @tell report report' veils next next' rest ih =>
    have first := Exchange.veiled_report veils
    obtain ⟨said, returned⟩ := ih (map_veiled_concat same first)
    exact ⟨congrArg₂ List.cons first said, returned⟩

end Dialogue

section Runs

variable {setup : Setup} {context : Context}

theorem connect_alike {login login' : Login} (same : login.veiled = login'.veiled) :
    (connect setup context login).Alike (connect setup context login') := by
  rcases Login.eq_or_of_veiled same with rfl | ⟨password, password', has, rfl⟩
  · exact .refl _
  · refine .andThen _ fun alone => ?_
    simp only [passwordFor, has]
    refine .dial ?_ fun answer => .refl _
    rfl

theorem execute_alike {action action' : Action} (same : action.veiled = action'.veiled) :
    (execute setup context action).Alike (execute setup context action') := by
  rcases Action.eq_or_of_veiled same with rfl | ⟨login, login', rfl, rfl, alike⟩
  · exact .refl _
  · exact connect_alike alike

/-- The steps of two scripts that are one veiled run alike. -/
theorem runSteps_alike {steps steps' : List Step} (same : steps.map Step.veiled = steps'.map Step.veiled) :
    (runSteps setup steps context).Alike (runSteps setup steps' context) := by
  induction steps generalizing steps' context with
  | nil =>
    cases steps' with
    | nil => exact .refl _
    | cons => cases same
  | cons step rest ih =>
    cases steps' with
    | nil => cases same
    | cons step' rest' =>
      obtain ⟨first, later⟩ := List.cons.inj same
      have veils : step.action.veiled = step'.action.veiled := congrArg Step.action first
      have shown : step.action.display = step'.action.display := by
        rw [← Action.display_veiled, veils, Action.display_veiled]
      refine (execute_alike (Action.veiled_substitute _ veils)).bind fun outcome => ?_
      cases outcome.failure with
      | some cause =>
        rw [shown]
        exact .refl _
      | none =>
        have told : Report.veiled (.stepCompleted (context.step + 1) step.action) =
            Report.veiled (.stepCompleted (context.step + 1) step'.action) := by
          rw [Report.veiled, Report.veiled, veils]
        exact .tell told (ih later)

theorem run_alike {script script' : Script} (same : script.veiled = script'.veiled) :
    (run setup script).Alike (run setup script') :=
  (runSteps_alike (Script.mk.inj same)).bind fun _ => .refl _

/-- Two scripts that differ in nothing but their passwords are listed alike, as text and as JSON. In a world
that is blind to passwords, whatever else it does, the same is said in both runs save for the passwords, the
operator reads the same lines, and the context and the result at the end are the same. -/
theorem passwords_only_dialed (script script' : Script) (same : script.veiled = script'.veiled) :
    CommandLine.textListing script = CommandLine.textListing script' ∧
      CommandLine.jsonListing script = CommandLine.jsonListing script' ∧
      ∀ (setup : Setup) (behaviour : Behaviour), Blind behaviour →
        let one := (run setup script).under behaviour []
        let other := (run setup script').under behaviour []
        one.1.map Exchange.veiled = other.1.map Exchange.veiled ∧
          (∀ coloured, one.1.filterMap (Exchange.line? coloured) = other.1.filterMap (Exchange.line? coloured)) ∧
          one.2 = other.2 := by
  refine ⟨?_, ?_, fun setup behaviour blind => ?_⟩
  · rw [← textListing_veiled, same, textListing_veiled]
  · rw [← jsonListing_veiled, same, jsonListing_veiled]
  · have nothing : ([] : Transcript).map Exchange.veiled = ([] : Transcript).map Exchange.veiled := rfl
    obtain ⟨said, returned⟩ := (run_alike same).under blind nothing
    refine ⟨said, fun coloured => ?_, returned⟩
    have veils : Exchange.line? coloured ∘ Exchange.veiled = Exchange.line? coloured :=
      funext (Exchange.line?_veiled coloured)
    rw [← veils, ← List.filterMap_map, said, List.filterMap_map]

end Runs

/-- A world that answers without looking back, and does not look at passwords. -/
theorem failingWorld_blind (value : String) : Blind (failingWorld value) where
  dials _ _ _ _ := rfl
  forgets past past' request _ := by
    cases request with
    | machine call => cases call <;> rfl
    | session id call => cases call <;> rfl
    | _ => rfl

def loginScript (password : String) : Script where
  steps := [⟨.connect { username := "u", host := "h", port := 22, password := some password }, 1⟩,
    ⟨.run "ls", 2⟩]

/-- A password can look like anything else in a script. -/
theorem passwords_only_dialed_signs :
    Script.parse "CONNECT u:p@h\nRUN ls" = .ok (loginScript "p") ∧
      Script.parse "CONNECT u:\x7b\x7bH\x7d\x7d:p@q@h\nRUN ls" =
        .ok (loginScript "\x7b\x7bH\x7d\x7d:p@q") ∧
      (loginScript "p").veiled = (loginScript "\x7b\x7bH\x7d\x7d:p@q").veiled ∧
      Blind (failingWorld "v") ∧
      ((run {} (loginScript "p")).under (failingWorld "v") []).2 =
        ((run {} (loginScript "\x7b\x7bH\x7d\x7d:p@q")).under (failingWorld "v") []).2 :=
  ⟨by decide, by decide, rfl, failingWorld_blind "v",
    ((passwords_only_dialed (loginScript "p") (loginScript "\x7b\x7bH\x7d\x7d:p@q") rfl).2.2 {} (failingWorld "v")
      (failingWorld_blind "v")).2.2⟩

end Deployment

end Rollout

import Rollout.Proofs.InputLines
import Rollout.Proofs.Leftovers

/-!
# What the operator enters

The standard input is used where a password is asked for and by the programs that a script runs. All other
requests, and all that is done on a session, leave it as it is, with the console and with what was taken of it
before.
-/

namespace Rollout

open Rollout.Terminal (answerTo inputLines)

namespace Machine

variable {machine after : Machine} {path : String}

theorem createFile_input {place : String} (made : machine.createFile path = .ok (place, after)) :
    after.input = machine.input := by
  unfold createFile at made
  grind

theorem makeDirectory_input (made : machine.makeDirectory path = .ok after) : after.input = machine.input := by
  unfold makeDirectory at made
  grind

theorem makeDirectoriesWithin_input {depth : Nat} (made : machine.makeDirectoriesWithin depth path = .ok after) :
    after.input = machine.input := by
  fun_induction makeDirectoriesWithin machine depth path generalizing after <;> grind [makeDirectory_input]

theorem ensureFile_input (made : machine.ensureFile path = .ok after) : after.input = machine.input := by
  unfold ensureFile at made
  split at made
  · grind
  · cases made
  · cases created : machine.createFile path with
    | error => simp [created, Except.map] at made
    | ok opened =>
      simp only [created, Except.map, Except.ok.injEq] at made
      exact made ▸ createFile_input created

theorem setMode_input {mode : Nat} (set : machine.setMode path mode = .ok after) : after.input = machine.input := by
  unfold setMode at set
  grind

theorem append_input (machine : Machine) (place : String) (content : Bytes) :
    (machine.append place content).input = machine.input := by
  unfold append
  grind

theorem changed_input {made : Except OsError Machine} (same : ∀ after, made = .ok after → after.input = machine.input) :
    (machine.changed (forPath path made)).1.input = machine.input := by
  unfold forPath
  split
  · rfl
  · cases made with
    | error error => rfl
    | ok after => exact same after rfl

/-- Of all calls only the run of a program can use the input. -/
theorem answer_input (machine : Machine) {call : Deployment.MachineCall}
    (other : ∀ directory argv, call ≠ .run directory argv) : (machine.answer call).1.input = machine.input := by
  cases call with
  | run directory argv => exact absurd rfl (other directory argv)
  | makeDirectories path => exact changed_input fun after made => makeDirectoriesWithin_input made
  | setMode path mode => exact changed_input fun after set => setMode_input set
  | capture directory argv =>
    simp only [answer, capture]
    split <;> rfl
  | _ => rfl

end Machine

/-- The requests that have no part in what the operator enters. -/
def Deployment.Request.Apart : Deployment.Request → Prop
  | .askPassword _ | .machine (.run ..) => False
  | _ => True

namespace Ssh

open Rollout.Deployment (Transfer)
open Exchange (Keeps exchange_bind)

variable {α β : Type}

/-- The console, the input that is not used yet, and what cannot be written. -/
def World.operator (world : World) : Option Console × Terminal.Input × Refusal :=
  (world.console, { world.taken with waiting := world.machine.input }, world.refusal)

/-- The exchange leaves the operator alone. -/
def Spares (exchange : Exchange α) : Prop :=
  Keeps World.operator exchange

theorem spares_pure (value : α) : Spares (pure value : Exchange α) :=
  fun _ => rfl

theorem spares_throw (error : SessionError) : Spares (throw error : Exchange α) :=
  fun _ => rfl

theorem spares_get {next : World → Exchange α} (each : ∀ world, Spares (next world)) : Spares (get >>= next) :=
  fun world => each world world

theorem spares_change {f : World → World} (same : ∀ world : World, (f world).operator = world.operator) :
    Spares (Exchange.change f) :=
  same

theorem spares_request (asked : Request) : Spares (Exchange.request asked) := by
  intro world
  rw [exchange_request]
  rfl

theorem spares_found (result : Except Sftp.Status α) : Spares (Exchange.found result) := by
  cases result with
  | ok value => exact spares_pure value
  | error status => exact spares_throw _

theorem spares_concluded (result : Except SessionError α) : Spares (concluded result) := by
  cases result with
  | ok value => exact spares_pure value
  | error error => exact spares_throw _

theorem spares_copied (result : Except IoError α) : Spares (copied result) :=
  spares_concluded _

theorem Spares.naming {exchange : Exchange α} (spares : Spares exchange) (path : String) :
    Spares (Exchange.naming path exchange) := by
  refine spares.rescue fun error => ?_
  split
  · split <;> exact spares_throw _
  · exact spares_throw _

theorem spares_progress (transfer : Transfer) (advances : List Nat) (finished : Bool) :
    Spares (Exchange.change (·.progress transfer advances finished)) := by
  refine spares_change fun world => ?_
  obtain ⟨shown, same⟩ := world.progress_eq transfer advances finished
  rw [same]
  rfl

/-- A host with other files. -/
theorem spares_settle (result : Except Sftp.Status Files) : Spares (Exchange.settle result) :=
  (spares_found result).bind fun _ => spares_change fun _ => rfl

theorem spares_attributes (follow : Bool) (path : String) : Spares (attributes follow path) :=
  (spares_request _).bind fun _ => spares_get fun _ => (spares_found _).bind fun _ => spares_pure _

theorem spares_stat (path : String) : Spares (stat path) :=
  ((spares_attributes true path).naming path).bind fun _ => spares_pure _

theorem spares_list (path : String) : Spares (list path) :=
  (spares_request _).bind fun _ => spares_get fun _ => (spares_found _).bind fun _ => spares_pure _

theorem spares_ensureDirectory (path : String) : Spares (ensureDirectory path) := by
  refine Keeps.rescue ((spares_attributes true path).bind fun _ => spares_pure _) fun error => ?_
  split
  · split
    · exact (spares_request _).bind fun _ => spares_get fun _ => spares_settle _
    · exact spares_throw _
  · exact spares_throw _

theorem spares_ensureAll (paths : List String) : Spares (ensureAll paths) := by
  induction paths with
  | nil => exact spares_pure _
  | cons path rest ih => exact (spares_ensureDirectory path).bind fun _ => ih

theorem spares_openRead (path : String) : Spares (openRead path) :=
  Spares.naming ((spares_request _).bind fun _ => spares_get fun _ => spares_found _) path

theorem spares_openWrite (path : String) : Spares (openWrite path) := by
  refine (spares_request _).bind fun _ => spares_get fun _ => (spares_found _).bind fun opened => ?_
  exact Keeps.bind (spares_change fun _ => rfl) fun _ => spares_pure _

theorem spares_store (place : String) (written : Bytes) : Spares (store place written) :=
  spares_change fun _ => rfl

theorem spares_beforeTransfer {exchange : Exchange α} (transfer : Transfer) (spares : Spares exchange) :
    Spares (beforeTransfer transfer exchange) :=
  spares.rescue fun _ => (spares_progress transfer [] false).bind fun _ => spares_throw _

theorem spares_upload (source target : String) (transfer : Transfer) : Spares (upload source target transfer) := by
  refine (spares_beforeTransfer transfer ?_).bind fun opened => ?_
  · exact spares_get fun _ => (spares_copied _).bind fun _ =>
      (spares_openWrite target).bind fun _ => spares_pure _
  · exact spares_get fun _ => (spares_store _ _).bind fun _ =>
      (spares_progress _ _ _).bind fun _ => spares_concluded _

/-- A download writes a local file, which is not what the program reads. -/
theorem spares_download (source target : String) (transfer : Transfer) :
    Spares (download source target transfer) := by
  refine (spares_beforeTransfer transfer ?_).bind fun opened => ?_
  · refine (spares_openRead source).bind fun place world => ?_
    rw [exchange_get, exchange_bind]
    cases created : world.machine.createFile target with
    | error error => rfl
    | ok opened =>
      obtain ⟨localPlace, machine⟩ := opened
      unfold World.operator
      rw [← Machine.createFile_input created]
      rfl
  · refine spares_get fun _ => (spares_change fun world => ?_).bind fun _ =>
      (spares_progress _ _ _).bind fun _ => spares_concluded _
    unfold World.operator
    dsimp only
    rw [Machine.append_input]

theorem spares_copy (source target : String) : Spares (copy source target) :=
  (spares_openRead source).bind fun _ => (spares_openWrite target).bind fun _ => spares_get fun _ =>
    (spares_store _ _).bind fun _ => (spares_copied _).bind fun _ => spares_pure _

theorem spares_setMode (path : String) (mode : Nat) : Spares (setMode path mode) :=
  (spares_request _).bind fun _ => spares_get fun _ => spares_settle _

theorem spares_rename (source target : String) : Spares (rename source target) :=
  (spares_request _).bind fun _ => spares_get fun _ => spares_settle _

theorem spares_remove (path : String) : Spares (remove path) := by
  refine (spares_attributes false path).bind fun attributes => ?_
  split <;> exact (spares_request _).bind fun _ => spares_get fun _ => spares_settle _

theorem spares_execute (line : String) : Spares (execute line) := by
  refine spares_get fun world => ?_
  split
  · exact spares_throw _
  · refine Keeps.bind (spares_change fun _ => rfl) fun _ => Keeps.bind (spares_change fun _ => rfl) fun _ => ?_
    refine spares_get fun world => ?_
    dsimp only
    split
    · exact (spares_throw _).bind fun _ => spares_pure _
    · exact spares_pure _

theorem spares_expectSuccess (command : String) (reply : Reply) : Spares (expectSuccess command reply) := by
  unfold expectSuccess
  split
  · exact spares_pure _
  · exact spares_throw _

/-- The calls of a session are between the program and the host. -/
theorem spares_call (call : Deployment.SessionCall) : Spares (Ssh.call call) := by
  cases call with
  | close => exact spares_pure _
  | home => exact (spares_request _).bind fun _ => spares_get fun _ => spares_pure _
  | run command setting =>
    refine (spares_execute _).bind fun reply => Keeps.bind (spares_change fun _ => rfl) fun _ => ?_
    exact spares_expectSuccess command reply
  | capture command setting =>
    exact (spares_execute _).bind fun reply => (spares_expectSuccess command reply).bind fun _ => spares_pure _
  | stat path => exact spares_stat path
  | list path => exact spares_list path
  | makeDirectories path => exact spares_ensureAll _
  | upload source target transfer => exact spares_upload source target transfer
  | download source target transfer => exact spares_download source target transfer
  | copy source target => exact spares_copy source target
  | chmod path mode => exact spares_setMode path mode
  | rename source target => exact spares_rename source target
  | remove path => exact spares_remove path

/-- What goes on unless it fails first. -/
theorem spares_unless {condition : Prop} [Decidable condition] {error : SessionError} {next : Unit → Exchange α}
    (goesOn : Spares (next ())) : Spares (if condition then throw error >>= next else next ()) := by
  split
  · exact fun _ => rfl
  · exact goesOn

theorem spares_connect (target : Session.Target) : Spares (connect target) := by
  refine spares_get fun world => ?_
  dsimp only
  refine spares_unless (spares_unless (spares_unless (spares_unless ?_)))
  refine Keeps.bind (spares_change fun _ => rfl) fun _ => spares_unless ?_
  refine Keeps.bind (spares_change fun _ => rfl) fun _ => spares_get fun _ => spares_unless ?_
  exact Keeps.bind (spares_change fun _ => rfl) fun _ => spares_unless (spares_pure _)

theorem World.tell_operator (world : World) (report : Deployment.Report) :
    (world.tell report).operator = world.operator := by
  obtain ⟨shown, same⟩ := world.tell_eq report
  rw [same]
  rfl

theorem World.answer_operator (world : World) {request : Deployment.Request} (apart : request.Apart) :
    (world.answer request).1.operator = world.operator := by
  cases request with
  | askPassword => exact apart.elim
  | dial target => exact spares_connect target world
  | session _ call => exact spares_call call world
  | machine call =>
    unfold World.operator
    have other : ∀ directory argv, call ≠ .run directory argv := by
      rintro directory argv rfl
      exact apart
    rw [← world.machine.answer_input other]
    rfl
  | report report => exact world.tell_operator report

/-- Where the input comes from no keys, a question that is not refused is answered with the first of the lines that
are held, and the others stay. -/
theorem World.ask_spec {world : World} {console : Console} {input : Terminal.Input} {refusal : Refusal}
    (sits : world.operator = (some console, input, refusal)) (piped : console.keys = false) (question : String) :
    (∃ shown error, refusal shown .err (Terminal.question question) = some error ∧
        (world.ask question).2 = .error error) ∨
      (world.ask question).2 = answerTo (inputLines input.held).head? ∧
        ∃ left, (world.ask question).1.operator = (some console, left, refusal) ∧
          inputLines left.held = (inputLines input.held).tail := by
  obtain ⟨sitting, rest⟩ := Prod.mk.inj sits
  obtain ⟨rfl, rfl⟩ := Prod.mk.inj rest
  obtain ⟨answer, lines⟩ := Terminal.readLine_spec { world.taken with waiting := world.machine.input }
  obtain ⟨shown, printed⟩ := world.print_eq .err (Terminal.question question)
  unfold World.ask
  rw [sitting]
  cases refused : world.refuses? .err (Terminal.question question) with
  | some error => exact .inl ⟨world.shown, error, refused, rfl⟩
  | none =>
    refine .inr ?_
    simp only [Terminal.answer, piped, Bool.false_eq_true, if_false, printed]
    rw [← answer]
    generalize Terminal.readLine _ = read at lines ⊢
    obtain ⟨error | text, left⟩ := read
    · exact ⟨rfl, left, by simp [World.operator, sitting], lines⟩
    · exact ⟨rfl, left, by simp [World.operator, sitting], lines⟩

/-- Requests that stand apart leave the operator as he was. -/
theorem World.answers_operator {world after : World} {transcript : Deployment.Transcript}
    (answered : world.Answers transcript after) (apart : ∀ exchange ∈ transcript, exchange.request.Apart) :
    after.operator = world.operator := by
  induction answered with
  | done => rfl
  | answer request _ ih =>
    obtain ⟨here, later⟩ := List.forall_mem_cons.1 apart
    exact (ih later).trans (World.answer_operator _ here)

theorem World.answers_append_iff {world after : World} {first second : Deployment.Transcript} :
    world.Answers (first ++ second) after ↔
      ∃ between, world.Answers first between ∧ between.Answers second after := by
  constructor
  · intro answered
    induction first generalizing world with
    | nil => exact ⟨world, .done world, answered⟩
    | cons exchange rest ih =>
      obtain ⟨request, answer⟩ := exchange
      obtain ⟨rfl, onward⟩ := World.answers_cons answered
      obtain ⟨between, before, later⟩ := ih onward
      exact ⟨between, .answer request before, later⟩
  · rintro ⟨between, before, later⟩
    induction before with
    | done => exact later
    | answer request _ ih => exact .answer request (ih later)

/-- What is said under the answers of a world is answered by it. -/
theorem World.answers_under {α : Type} (world : World) (past : Deployment.Transcript)
    (dialogue : Deployment.Dialogue α) :
    ∃ after, (world.replay past).Answers (dialogue.under world.replies past).1 after := by
  induction dialogue generalizing past with
  | done result => exact ⟨_, .done _⟩
  | ask request next ih =>
    obtain ⟨after, answered⟩ := ih (world.replies past request) (past ++ [⟨request, world.replies past request⟩])
    have onward : world.replay (past ++ [⟨request, world.replies past request⟩]) =
        ((world.replay past).answer request).1 := by
      simp [World.replay]
    rw [onward] at answered
    exact ⟨after, .answer request answered⟩

end Ssh

end Rollout

import Rollout.Proofs.Accounting
import Rollout.Proofs.Server
import Rollout.Proofs.Transcript
import Rollout.Ssh.Session

/-!
# Exchanges with a host

A session over SSH is carried out by exchanges, and an exchange that succeeds is a row of requests that
all were carried out. Opened part by part, it says what the file server found in its tree and which tree
it has now. A dialogue that is carried out in a world is one of its runs, with the answers that the world
gives one after the other, so what is known of all runs of a dialogue is known of this one.
-/

namespace Rollout

namespace Ssh

open Rollout.Deployment (Behaviour Dialogue Metadata SessionCall SessionId Transcript)
open Rollout.Sftp (Status)

variable {α β : Type} {world after : World}

namespace Exchange

/-- In the world the exchange succeeds with the value, and it leaves the other world behind. -/
def Succeeds (exchange : Exchange α) (world : World) (value : α) (after : World) : Prop :=
  world.exchange exchange = (after, .ok value)

theorem exchange_bind (world : World) (exchange : Exchange α) (next : α → Exchange β) :
    world.exchange (exchange >>= next) = match world.exchange exchange with
      | (between, .ok middle) => between.exchange (next middle)
      | (between, .error error) => (between, .error error) := by
  unfold World.exchange
  rw [ExceptT.run_bind, StateT.run_bind]
  rcases exchange.run.run world with ⟨error | middle, between⟩ <;> rfl

theorem exchange_tryCatch (world : World) (exchange : Exchange α)
    (rescue : SessionError → Exchange α) :
    world.exchange (tryCatch exchange rescue) = match world.exchange exchange with
      | (between, .ok value) => (between, .ok value)
      | (between, .error error) => between.exchange (rescue error) := by
  unfold World.exchange
  rw [ExceptT.run_tryCatch, StateT.run_bind]
  rcases exchange.run.run world with ⟨error | value, between⟩ <;> rfl

/-- Whatever comes of the exchange, what is seen of the world is the same afterwards. -/
def Keeps {γ : Type} (view : World → γ) (exchange : Exchange α) : Prop :=
  ∀ world : World, view (world.exchange exchange).1 = view world

section Keeping

variable {γ : Type} {view : World → γ} {exchange : Exchange α}

theorem Keeps.bind {next : α → Exchange β} (first : Keeps view exchange)
    (second : ∀ value, Keeps view (next value)) : Keeps view (exchange >>= next) := by
  intro world
  have kept := first world
  rw [exchange_bind]
  generalize world.exchange exchange = done at kept ⊢
  obtain ⟨between, error | value⟩ := done
  · exact kept
  · exact (second value between).trans kept

theorem Keeps.rescue {rescue : SessionError → Exchange α} (first : Keeps view exchange)
    (second : ∀ error, Keeps view (rescue error)) : Keeps view (tryCatch exchange rescue) := by
  intro world
  have kept := first world
  rw [exchange_tryCatch]
  generalize world.exchange exchange = done at kept ⊢
  obtain ⟨between, error | value⟩ := done
  · exact (second error between).trans kept
  · exact kept

end Keeping

/-- Of two exchanges in turn both succeed. -/
theorem succeeds_bind_iff {exchange : Exchange α} {next : α → Exchange β} {value : β} :
    (exchange >>= next).Succeeds world value after ↔ ∃ middle between,
      exchange.Succeeds world middle between ∧ (next middle).Succeeds between value after := by
  unfold Succeeds
  rw [exchange_bind]
  rcases world.exchange exchange with ⟨between, error | middle⟩
  · simp
  · constructor
    · exact fun run => ⟨middle, between, rfl, run⟩
    · rintro ⟨_, _, same, run⟩
      cases same
      exact run

theorem succeeds_pure_iff {value result : α} :
    (pure value : Exchange α).Succeeds world result after ↔ result = value ∧ after = world := by
  constructor
  · intro run
    cases run
    exact ⟨rfl, rfl⟩
  · rintro ⟨rfl, rfl⟩
    rfl

theorem succeeds_get_iff {value : World} :
    (get : Exchange World).Succeeds world value after ↔ value = world ∧ after = world := by
  exact (succeeds_pure_iff : (pure world : Exchange World).Succeeds world value after ↔ _)

theorem succeeds_change_iff {f : World → World} {value : Unit} :
    (change f).Succeeds world value after ↔ after = f world := by
  constructor
  · intro run
    cases run
    rfl
  · rintro rfl
    rfl

theorem not_succeeds_throw {error : SessionError} {value : α} :
    ¬ (throw error : Exchange α).Succeeds world value after := by
  intro run
  cases run

/-- A request that is carried out is noted and changes nothing else. -/
theorem succeeds_request {asked : Request} {value : Unit}
    (run : (request asked).Succeeds world value after) : after = world.note (.requested asked) := by
  obtain ⟨_, _, noted, run⟩ := succeeds_bind_iff.1 run
  obtain rfl := succeeds_change_iff.1 noted
  obtain ⟨_, _, got, run⟩ := succeeds_bind_iff.1 run
  obtain ⟨rfl, rfl⟩ := succeeds_get_iff.1 got
  split at run
  · exact (not_succeeds_throw run).elim
  · exact (succeeds_pure_iff.1 run).2

/-- What follows a request looks at the world as it was, but for the note. -/
theorem succeeds_of_request {asked : Request} {next : World → Exchange α} {value : α}
    (run : (request asked >>= fun _ => get >>= next : Exchange α).Succeeds world value after) :
    (next (world.note (.requested asked))).Succeeds (world.note (.requested asked)) value after := by
  obtain ⟨_, _, noted, looking⟩ := succeeds_bind_iff.1 run
  obtain ⟨_, _, got, rest⟩ := succeeds_bind_iff.1 looking
  obtain rfl := succeeds_request noted
  obtain ⟨rfl, rfl⟩ := succeeds_get_iff.1 got
  exact rest

theorem succeeds_found_iff {result : Except Status α} {value : α} :
    (found result).Succeeds world value after ↔ result = .ok value ∧ after = world := by
  unfold found
  cases result with
  | error status => exact ⟨fun run => (not_succeeds_throw run).elim, fun same => nomatch same.1⟩
  | ok found => rw [succeeds_pure_iff, Except.ok.injEq, eq_comm]

theorem succeeds_copied_iff {result : Except IoError α} {value : α} :
    (copied result).Succeeds world value after ↔ result = .ok value ∧ after = world := by
  unfold copied concluded
  cases result with
  | error error => exact ⟨fun run => (not_succeeds_throw run).elim, fun same => nomatch same.1⟩
  | ok found => exact succeeds_pure_iff.trans (by rw [Except.ok.injEq, eq_comm])

theorem succeeds_settle_iff {result : Except Status Files} {value : Unit} :
    (settle result).Succeeds world value after ↔
      ∃ files, result = .ok files ∧ after = { world with host := { world.host with files } } := by
  unfold settle
  simp only [succeeds_bind_iff, succeeds_found_iff, succeeds_change_iff]
  constructor
  · rintro ⟨files, _, ⟨found, rfl⟩, rfl⟩
    exact ⟨files, found, rfl⟩
  · rintro ⟨files, found, rfl⟩
    exact ⟨files, world, ⟨found, rfl⟩, rfl⟩

/-- Naming a missing path makes no success of a failure. -/
theorem succeeds_naming_iff {path : String} {exchange : Exchange α} {value : α} :
    (naming path exchange).Succeeds world value after ↔ exchange.Succeeds world value after := by
  unfold Succeeds naming
  rw [exchange_tryCatch]
  rcases world.exchange exchange with ⟨between, error | found⟩
  · constructor
    · intro run
      dsimp only at run
      split at run
      · split at run <;> exact (not_succeeds_throw run).elim
      · exact (not_succeeds_throw run).elim
    · intro run
      cases run
  · rfl

end Exchange

open Exchange

/-- What is told of a path is what the server tells of the node it leads to. -/
theorem succeeds_attributes {follow : Bool} {path : String} {told : Sftp.Attributes}
    (run : (attributes follow path).Succeeds world told after) :
    after.host = world.host ∧ ∃ place node,
      Sftp.find world.host.files follow path = .ok (place, node) ∧
        told = world.host.attributes place node := by
  obtain ⟨⟨place, node⟩, _, looked, run⟩ := succeeds_bind_iff.1 (succeeds_of_request run)
  obtain ⟨found, rfl⟩ := succeeds_found_iff.1 looked
  obtain ⟨rfl, rfl⟩ := succeeds_pure_iff.1 run
  exact ⟨rfl, place, node, found, rfl⟩

theorem succeeds_stat {path : String} {metadata : Metadata}
    (run : (stat path).Succeeds world metadata after) :
    after.host = world.host ∧ ∃ place node,
      Sftp.find world.host.files true path = .ok (place, node) ∧
        metadata.mode = ((world.host.attributes place node).permissions.getD 0) &&& Sftp.modeMask := by
  obtain ⟨told, _, asked, run⟩ := succeeds_bind_iff.1 run
  obtain ⟨same, place, node, found, rfl⟩ := succeeds_attributes (succeeds_naming_iff.1 asked)
  obtain ⟨rfl, rfl⟩ := succeeds_pure_iff.1 run
  exact ⟨same, place, node, found, rfl⟩

theorem succeeds_openRead {path place : String}
    (run : (openRead path).Succeeds world place after) :
    after.host = world.host ∧ Sftp.openRead world.host.files path = .ok place := by
  obtain ⟨opened, rfl⟩ := succeeds_found_iff.1 (succeeds_of_request (succeeds_naming_iff.1 run))
  exact ⟨rfl, opened⟩

theorem succeeds_openWrite {path place : String}
    (run : (openWrite path).Succeeds world place after) : ∃ files,
      Sftp.openWrite world.host.files path fileMode = .ok (place, files) ∧
        after.host = { world.host with files } := by
  obtain ⟨⟨there, files⟩, _, looked, run⟩ := succeeds_bind_iff.1 (succeeds_of_request run)
  obtain ⟨opened, rfl⟩ := succeeds_found_iff.1 looked
  obtain ⟨_, _, changed, run⟩ := succeeds_bind_iff.1 run
  obtain rfl := succeeds_change_iff.1 changed
  obtain ⟨rfl, rfl⟩ := succeeds_pure_iff.1 run
  exact ⟨files, opened, rfl⟩

theorem succeeds_setMode {path : String} {mode : Nat} {value : Unit}
    (run : (setMode path mode).Succeeds world value after) : ∃ files,
      Sftp.setMode world.host.files path mode = .ok files ∧
        after.host = { world.host with files } := by
  obtain ⟨files, set, rfl⟩ := succeeds_settle_iff.1 (succeeds_of_request run)
  exact ⟨files, set, rfl⟩

/-- A copy out of an open file that succeeds has written what the file holds by then. -/
theorem written_of_readsAt {host : Host} {writer : Copy.Writer} {reader : String} {count : Nat}
    {progress : Copy.Progress} (copies : Copy.run writer (readsAt host reader) = (.ok count, progress)) :
    progress.written = Sftp.contentAt host.files reader := by
  unfold readsAt at copies
  split at copies
  · cases copies
  · exact Copy.written_of_readsOf copies

/-- A copy fills the file that is emptied for it with what the other file holds by then. -/
theorem succeeds_copy {source target : String} {value : Unit}
    (run : (copy source target).Succeeds world value after) : ∃ reader writer opened,
      Sftp.openRead world.host.files source = .ok reader ∧
      Sftp.openWrite world.host.files target fileMode = .ok (writer, opened) ∧
      after.host = { world.host with
        files := Sftp.fill opened writer (Sftp.contentAt opened reader) } := by
  obtain ⟨reader, _, reading, rest⟩ := succeeds_bind_iff.1 run
  obtain ⟨same, read⟩ := succeeds_openRead reading
  obtain ⟨writer, now, writing, rest⟩ := succeeds_bind_iff.1 rest
  obtain ⟨opened, emptied, host⟩ := succeeds_openWrite writing
  obtain ⟨looked, there, got, filling⟩ := succeeds_bind_iff.1 rest
  obtain ⟨rfl, rfl⟩ := succeeds_get_iff.1 got
  obtain ⟨result, progress, copies⟩ : ∃ result progress,
      Copy.run (writerAt there.host writer) (readsAt there.host reader) = (result, progress) := ⟨_, _, rfl⟩
  simp only [copies] at filling
  obtain ⟨_, _, stored, returning⟩ := succeeds_bind_iff.1 filling
  obtain rfl := succeeds_change_iff.1 stored
  obtain ⟨count, _, returned, ending⟩ := succeeds_bind_iff.1 returning
  obtain ⟨rfl, rfl⟩ := succeeds_copied_iff.1 returned
  obtain ⟨_, rfl⟩ := succeeds_pure_iff.1 ending
  refine ⟨reader, writer, opened, read, same ▸ emptied, ?_⟩
  rw [written_of_readsAt copies, host, same]

namespace World

/-- Whether a text is refused or not, nothing but what is shown can change. -/
theorem print_eq (world : World) (stream : Standard) (text : String) :
    ∃ shown, world.print stream text = { world with shown } := by
  unfold print print?
  split
  · exact ⟨world.shown, rfl⟩
  · exact ⟨_, rfl⟩

theorem tell_eq (world : World) (report : Deployment.Report) :
    ∃ shown, world.tell report = { world.note (.told report) with shown } := by
  unfold tell
  dsimp only
  split
  · exact ⟨world.shown, rfl⟩
  · exact print_eq ..

theorem progress_eq (world : World) (transfer : Deployment.Transfer) (advances : List Nat) (finished : Bool) :
    ∃ shown, world.progress transfer advances finished =
      { world.note (.progressed transfer.label (Copy.reported advances) finished) with shown } := by
  unfold progress
  dsimp only
  split
  · exact ⟨world.shown, rfl⟩
  · exact print_eq ..

/-- The world gives the answers of the transcript, one after the other, and is the other world then. -/
inductive Answers : World → Transcript → World → Prop
  | done (world : World) : Answers world [] world
  | answer {world after : World} {transcript : Transcript} (request : Deployment.Request)
      (rest : Answers (world.answer request).1 transcript after) :
      Answers world (⟨request, (world.answer request).2⟩ :: transcript) after

theorem carryOut_ask (world : World) (request : Deployment.Request)
    (next : request.Answer → Dialogue α) :
    world.carryOut (.ask request next) =
      (world.answer request).1.carryOut (next (world.answer request).2) :=
  rfl

/-- What is carried out in a world is a run of the dialogue with the answers of the world. -/
theorem carryOut_answers (world : World) (dialogue : Dialogue α) : ∃ transcript,
    dialogue.Yields transcript (world.carryOut dialogue).1 ∧
      world.Answers transcript (world.carryOut dialogue).2 := by
  induction dialogue generalizing world with
  | done result => exact ⟨[], .done result, .done world⟩
  | ask request next ih =>
    obtain ⟨transcript, run, answered⟩ := ih (world.answer request).2 (world.answer request).1
    rw [carryOut_ask]
    exact ⟨_, .ask _ run, .answer request answered⟩

/-- The world after it has answered the requests of a transcript. -/
def replay (world : World) (said : Transcript) : World :=
  said.foldl (fun world exchange => (world.answer exchange.request).1) world

/-- The world as it answers a deployment, each request after what was said before it. -/
def replies (world : World) : Behaviour :=
  fun past request => ((world.replay past).answer request).2

/-- What is carried out in a world goes as it does under the behaviour of the world. -/
theorem carryOut_eq_under (world : World) (past : Transcript) (dialogue : Dialogue α) :
    (world.replay past).carryOut dialogue =
      let run := dialogue.under world.replies past
      (run.2, world.replay (past ++ run.1)) := by
  induction dialogue generalizing past with
  | done result =>
    dsimp only [Dialogue.under]
    rw [List.append_nil]
    rfl
  | ask request next ih =>
    have onward : ((world.replay past).answer request).1 =
        world.replay (past ++ [⟨request, world.replies past request⟩]) := by
      simp [replay]
    rw [carryOut_ask, onward]
    refine (ih _ _).trans ?_
    dsimp only
    rw [List.append_assoc]
    rfl

theorem answers_nil (answered : world.Answers [] after) : after = world := by
  cases answered
  rfl

/-- A call of a session that succeeds is an exchange that does. -/
theorem answers_call {id : SessionId} {call : SessionCall} {value : call.Result} {rest : Transcript}
    (answered : world.Answers (⟨.session id call, .ok value⟩ :: rest) after) :
    ∃ between, (Ssh.call call).Succeeds world value between ∧ between.Answers rest after := by
  generalize told : (⟨.session id call, .ok value⟩ :: rest : Transcript) = transcript at answered
  cases answered with
  | done => cases told
  | answer request answered =>
    obtain ⟨same, rfl⟩ := List.cons.inj told
    injection same with asked replied
    subst asked
    exact ⟨_, Prod.ext rfl (eq_of_heq replied).symm, answered⟩

end World

end Ssh

end Rollout

import Rollout.Proofs.Exchanges

/-!
# What is said up to a refused line

What a run tells is written line by line, and the run breaks off at the first line that is refused. Up to there
it goes as it would if nothing were refused: what was said is the first part of that, and all of it if no line
is refused.
-/

namespace Rollout

namespace Deployment

namespace Dialogue

variable {α : Type}

/-- The transcript and the result of a dialogue under a behaviour, when `past` was said before it, up to the first
request at which it breaks off. Nothing comes of a dialogue that breaks off. -/
def aloud (behaviour : Behaviour) (lost : Transcript → Request → Bool) :
    Transcript → Dialogue α → Transcript × Option α
  | _, done result => ([], some result)
  | past, ask request next =>
    if lost past request then ([], none)
    else
      let exchange : Exchange := ⟨request, behaviour past request⟩
      let rest := (next exchange.answer).aloud behaviour lost (past ++ [exchange])
      (exchange :: rest.1, rest.2)

end Dialogue

/-- A request of the transcript, which `past` came before, is one at which a dialogue breaks off. -/
def Transcript.Loses (lost : Transcript → Request → Bool) (past said : Transcript) : Prop :=
  ∃ before exchange after, said = before ++ exchange :: after ∧ lost (past ++ before) exchange.request = true

section Loses

variable {α : Type} {behaviour : Behaviour} {lost : Transcript → Request → Bool} {past said : Transcript}

theorem not_loses_nil : ¬ Transcript.Loses lost past [] := by
  rintro ⟨before, _, _, split, _⟩
  simp at split

theorem loses_cons_iff {exchange : Exchange} : Transcript.Loses lost past (exchange :: said) ↔
    lost past exchange.request = true ∨ Transcript.Loses lost (past ++ [exchange]) said := by
  constructor
  · rintro ⟨before, other, after, split, isLost⟩
    cases before with
    | nil =>
      obtain ⟨rfl, _⟩ := List.cons.inj split
      exact .inl (by simpa using isLost)
    | cons first before =>
      obtain ⟨rfl, rest⟩ := List.cons.inj split
      exact .inr ⟨before, other, after, rest, by simpa using isLost⟩
  · rintro (isLost | ⟨before, other, after, rfl, isLost⟩)
    · exact ⟨[], exchange, said, rfl, by simpa using isLost⟩
    · exact ⟨exchange :: before, other, after, rfl, by simpa using isLost⟩

/-- Whether something comes of a dialogue depends on whether a request is lost in its course. -/
theorem Dialogue.aloud_result (dialogue : Dialogue α) (behaviour : Behaviour)
    (lost : Transcript → Request → Bool) (past : Transcript) :
    let whole := dialogue.under behaviour past
    (Transcript.Loses lost past whole.1 → (dialogue.aloud behaviour lost past).2 = none) ∧
      (¬ Transcript.Loses lost past whole.1 → dialogue.aloud behaviour lost past = (whole.1, some whole.2)) := by
  induction dialogue generalizing past with
  | done result => exact ⟨fun loses => absurd loses not_loses_nil, fun _ => rfl⟩
  | ask request next ih =>
    obtain ⟨breaks, goesOn⟩ := ih (behaviour past request) (past ++ [⟨request, behaviour past request⟩])
    dsimp only [under]
    rw [loses_cons_iff, aloud]
    cases isLost : lost past request with
    | true => simp
    | false => simpa using ⟨breaks, fun whole => by simp [goesOn whole]⟩

/-- What is said up to there is the first part of what would be said. -/
theorem Dialogue.aloud_prefix (dialogue : Dialogue α) (past : Transcript) :
    (dialogue.aloud behaviour lost past).1 <+: (dialogue.under behaviour past).1 := by
  induction dialogue generalizing past with
  | done result => exact List.prefix_rfl
  | ask request next ih =>
    rw [aloud]
    split
    · exact List.nil_prefix
    · exact List.cons_prefix_cons.2 ⟨rfl, ih _ _⟩

end Loses

end Deployment

namespace Ssh

open Rollout.Deployment (Dialogue Transcript)

theorem World.carryOutAloud_ask {α : Type} (world : World) (request : Deployment.Request)
    (next : request.Answer → Dialogue α) : world.carryOutAloud (.ask request next) =
      if world.breaksOff request then (none, world)
      else (world.answer request).1.carryOutAloud (next (world.answer request).2) := by
  have answered : (answerAloud request).run.run world =
      if world.breaksOff request then (none, world)
      else (some (world.answer request).2, (world.answer request).1) := rfl
  rw [carryOutAloud, Dialogue.interpret, OptionT.run_bind, Option.elimM, StateT.run_bind, answered]
  split <;> rfl

/-- What a world carries out aloud goes as it does under the behaviour of the world. -/
theorem World.carryOutAloud_eq_aloud {α : Type} (world : World) (past : Transcript) (dialogue : Dialogue α) :
    (world.replay past).carryOutAloud dialogue =
      let run := dialogue.aloud world.replies (fun past request => (world.replay past).breaksOff request) past
      (run.2, world.replay (past ++ run.1)) := by
  induction dialogue generalizing past with
  | done result =>
    dsimp only [Dialogue.aloud]
    rw [List.append_nil]
    rfl
  | ask request next ih =>
    have onward : ((world.replay past).answer request).1 =
        world.replay (past ++ [⟨request, world.replies past request⟩]) := by
      simp [replay]
    rw [carryOutAloud_ask, Dialogue.aloud]
    split
    · simp
    · rw [onward]
      refine (ih _ _).trans ?_
      dsimp only
      rw [List.append_assoc]
      rfl

end Ssh

end Rollout

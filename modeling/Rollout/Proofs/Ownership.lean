import Rollout.Proofs.Recall

/-!
# Who changes what

The context of a run is made of cells: the session, the two working directories, the number of the step,
one cell for each variable and one for each export. Every kind of action owns a few of them, and a step
leaves all other cells as they are. A step that fails leaves even its own cells, but for one: a connect
that fails has closed the old session and may have left a new one open.
-/

namespace Rollout

/-- What is put under a name is found there, and nothing else is found differently. -/
theorem Session.Environment.lookup_set (environment : Session.Environment) (name value other : String) :
    List.lookup other (environment.set name value) =
      if other = name then some value else List.lookup other environment := by
  induction environment with
  | nil => exact Variables.lookup_cons_ite name value other []
  | cons binding rest ih =>
    obtain ⟨key, bound⟩ := binding
    rw [set]
    split
    next same =>
      subst same
      rw [Variables.lookup_cons_ite, Variables.lookup_cons_ite]
      split <;> rfl
    next different =>
      split
      next => rw [Variables.lookup_cons_ite]
      next =>
        rw [Variables.lookup_cons_ite, ih, Variables.lookup_cons_ite]
        by_cases here : other = key
        · subst here
          rw [if_pos rfl, if_neg (Ne.symm different), if_pos rfl]
        · rw [if_neg here, if_neg here]

namespace Deployment

open Rollout.Script (Action Login Step)

/-- A part of the context that can change while the others stay. -/
inductive Cell where
  | session
  | localDirectory
  | remoteDirectory
  /-- What a variable stands for. -/
  | binding (name : String)
  /-- What is exported under a name. -/
  | exported (name : String)
  | step

/-- The cell holds the same in both contexts. -/
def Cell.Same (before after : Context) : Cell → Prop
  | session => after.session = before.session
  | localDirectory => after.localDirectory = before.localDirectory
  | remoteDirectory => after.remoteDirectory = before.remoteDirectory
  | binding name => after.bindings.get? name = before.bindings.get? name
  | exported name => List.lookup name after.environment = List.lookup name before.environment
  | step => after.step = before.step

/-- The cells that an action changes when it succeeds. -/
def owns : Action → Cell → Prop
  | .connect _, .session | .connect _, .localDirectory | .connect _, .remoteDirectory => True
  | .var key _, .binding name => name = key
  | .env key _, .exported name => name = key
  | .cd _, .remoteDirectory => True
  | _, _ => False

/-- The cells that an action may have changed when it fails. -/
def risks : Action → Cell → Prop
  | .connect _, .session => True
  | _, _ => False

/-- The cells that an action may change, by how it ends. -/
def mayChange (action : Action) : Option ActionError → Cell → Prop
  | none => owns action
  | some _ => risks action

def Effects (action : Action) (before after : Context) : Prop :=
  match action with
  | .connect _ => ∃ session remoteDirectory localDirectory,
      after = { before with session := some session, remoteDirectory, localDirectory }
  | action => Changes action before after

/-- What an action leaves of the context when it fails: all of it, but a connect may leave another
session, or none. -/
def Leaves (action : Action) (before after : Context) : Prop :=
  match action with
  | .connect _ => ∃ session, after = { before with session }
  | _ => after = before

theorem Effects.same {action : Action} {before after : Context} (effects : Effects action before after)
    {cell : Cell} (unowned : ¬ owns action cell) : cell.Same before after := by
  cases action with
  | connect login =>
    obtain ⟨session, remoteDirectory, localDirectory, rfl⟩ := effects
    cases cell with
    | session | localDirectory | remoteDirectory => exact absurd trivial unowned
    | _ => rfl
  | var key source =>
    obtain ⟨value, rfl⟩ := effects
    cases cell with
    | binding name => exact (Variables.get?_set ..).trans (if_neg unowned)
    | _ => rfl
  | env key value =>
    obtain rfl := effects
    cases cell with
    | exported name => exact (Session.Environment.lookup_set ..).trans (if_neg unowned)
    | _ => rfl
  | cd target =>
    obtain rfl := effects
    cases cell with
    | remoteDirectory => exact absurd trivial unowned
    | _ => rfl
  | _ =>
    obtain rfl := effects
    cases cell <;> rfl

theorem Leaves.same {action : Action} {before after : Context} (leaves : Leaves action before after)
    {cell : Cell} (safe : ¬ risks action cell) : cell.Same before after := by
  cases action with
  | connect login =>
    obtain ⟨session, rfl⟩ := leaves
    cases cell with
    | session => exact absurd trivial safe
    | _ => rfl
  | _ =>
    obtain rfl := leaves
    cases cell <;> rfl

section Steps

variable {setup : Setup} {context : Context} {action : Action} {transcript : Transcript}
  {outcome : Outcome}

/-- Of the five ways in which a connect can go, four fail and leave all but the session. -/
theorem Connects.effects {login : Login} (connects : Connects setup context login transcript outcome) :
    match outcome.failure with
    | none => Effects (.connect login) context outcome.context
    | some _ => Leaves (.connect login) context outcome.context := by
  cases connects with
  | unanswered | refused => exact ⟨none, rfl⟩
  | homeless | astray => exact ⟨some _, rfl⟩
  | connected => exact ⟨_, _, _, rfl⟩

theorem Executes.effects (executes : Executes setup context action transcript outcome) :
    match outcome.failure with
    | none => Effects action context outcome.context
    | some _ => Leaves action context outcome.context := by
  cases executes with
  | unconnected needed =>
    cases action with
    | connect login => cases needed
    | _ => exact rfl
  | connects connects => exact connects.effects
  | changed other connected run =>
    have changes := (change_keeps connected run).ended
    cases action with
    | connect login => exact absurd rfl (other login)
    | _ => exact changes
  | failed other =>
    cases action with
    | connect login => exact absurd rfl (other login)
    | _ => exact rfl

/-- One step: a cell that the action may not change holds the same after it. -/
theorem Executes.same (executes : Executes setup context action transcript outcome) {cell : Cell}
    (kept : ¬ mayChange action outcome.failure cell) : cell.Same context outcome.context := by
  have effects := executes.effects
  cases failure : outcome.failure with
  | none =>
    rw [failure] at effects kept
    exact Effects.same effects kept
  | some cause =>
    rw [failure] at effects kept
    exact Leaves.same effects kept

end Steps

/-- In every context, and however the world answers, an action changes no cell but its own: a variable,
an export, the remote directory, or for a connect the session with both directories; all other actions
own nothing. An action that fails changes no cell at all, but for the session if it is a connect. -/
theorem execute_keeps_other_cells (setup : Setup) (context : Context) (action : Action)
    (behaviour : Behaviour) (past : Transcript) :
    let outcome := ((execute setup context action).under behaviour past).2
    (∀ cell, ¬ mayChange action outcome.failure cell → cell.Same context outcome.context) ∧
      match outcome.failure with
      | none => Effects action context outcome.context
      | some _ => Leaves action context outcome.context := by
  intro outcome
  have executes : Executes setup context action _ outcome :=
    executes_of_yields (Dialogue.yields_under behaviour past (execute setup context action))
  exact ⟨fun cell kept => executes.same kept, executes.effects⟩

end Deployment

end Rollout

import Rollout.Proofs.Recall

/-!
# Steps that come too early for a connection

A step that fails for want of a connection is the first that requires one, with no `CONNECT` before it; after a
`CONNECT` that succeeded there is always a session, whatever the steps in between do. A run that fails so has
dialed nothing.
-/

namespace Rollout

namespace Deployment

open Rollout.Script (Action Step)

def StepSucceeds (parts : List Part) (index : Nat) : Prop :=
  ∃ part, parts[index]? = some part ∧ part.outcome.failure = none

def StepFails (parts : List Part) (index : Nat) : Prop :=
  ∃ part, parts[index]? = some part ∧ part.outcome.failure ≠ none

/-- All steps were carried out and succeeded. -/
def AllSucceed (steps : List Step) (parts : List Part) : Prop :=
  ∀ index < steps.length, StepSucceeds parts index

/-- The step that fails is the first that requires a connection, no `CONNECT` comes before it, and all steps
before it succeeded. -/
def FailsUnconnected (steps : List Step) (parts : List Part) : Prop :=
  ∃ index step, steps[index]? = some step ∧ step.action.needsConnection = true ∧
    (∀ earlier ∈ steps.take index,
      earlier.action.needsConnection = false ∧ ∀ login, earlier.action ≠ .connect login) ∧
    (∀ before < index, StepSucceeds parts before) ∧ StepFails parts index

def exitCodeOf : Except RunError Unit → Nat
  | .ok () => 0
  | .error error => error.exitCode

section Steps

variable {setup : Setup} {context : Context} {action : Action} {transcript : Transcript}
  {outcome : Outcome}

/-- No answer of the world and no other action makes an action fail for want of a connection. -/
theorem Executes.notConnected_iff (executes : Executes setup context action transcript outcome) :
    outcome.failure = some .notConnected ↔
      action.needsConnection = true ∧ context.session = none := by
  constructor
  · intro fails
    cases executes with
    | unconnected needed closed => exact ⟨needed, closed⟩
    | connects connects => cases connects <;> cases fails
    | changed => cases fails
    | failed _ connected run =>
      cases fails
      rcases (change_keeps connected run).ended with ⟨_, path, impossible⟩ | ⟨_, _, _, blamed⟩
      · cases impossible
      · cases blamed
  · rintro ⟨needed, closed⟩
    exact (executes_unconnected needed closed executes).2

/-- Only a connect dials. -/
theorem Executes.dial (executes : Executes setup context action transcript outcome)
    {exchange : Exchange} (member : exchange ∈ transcript) {target : Session.Target}
    (dials : exchange.request = .dial target) : ∃ login, action = .connect login := by
  cases executes with
  | unconnected => cases member
  | connects => exact ⟨_, rfl⟩
  | changed _ connected run | failed _ connected run =>
    have within := (change_keeps connected run).asked exchange member
    rw [dials] at within
    exact within.elim

theorem Part.Happens.notConnected_iff {part : Part} (happens : part.Happens setup) :
    part.outcome.failure = some .notConnected ↔
      part.step.action.needsConnection = true ∧ part.before.session = none := by
  rw [happens.executes.notConnected_iff, Part.action, Action.needsConnection_substitute]
  rfl

theorem Part.Happens.dial {part : Part} (happens : part.Happens setup) {exchange : Exchange}
    (member : exchange ∈ part.transcript) {target : Session.Target}
    (dials : exchange.request = .dial target) : part.IsConnect := by
  obtain ⟨login, connects⟩ := happens.executes.dial member dials
  exact part.isConnect_of_action connects

/-- There is a session exactly if a `CONNECT` came before. -/
theorem Recalls.session_eq_none_iff {parts : List Part} (recalls : Recalls parts context) :
    context.session = none ↔ ∀ part ∈ parts, ¬ part.IsConnect := by
  have leads := recalls.leads
  cases isOpen : context.session with
  | none =>
    rw [isOpen] at leads
    exact ⟨fun _ => leads, fun _ => rfl⟩
  | some session =>
    rw [isOpen] at leads
    obtain ⟨before, opening, since, _, rfl, ⟨connect, _⟩, _⟩ := leads
    simp only [reduceCtorEq, false_iff]
    exact fun unconnected => unconnected opening (by simp) connect

end Steps

section Courses

variable {setup : Setup} {steps : List Step} {context final : Context} {parts : List Part}
  {result : Except RunError Unit} {transcript : Transcript}

theorem Course.step_at (course : Course setup steps context parts final result transcript)
    {index : Nat} {part : Part} (at_ : parts[index]? = some part) : steps[index]? = some part.step := by
  obtain ⟨rest, rfl⟩ := course.map_step
  obtain ⟨within, _⟩ := List.getElem?_eq_some_iff.1 at_
  rw [List.getElem?_append_left (by simpa using within), List.getElem?_map, at_]
  rfl

/-- A part fails for want of a connection exactly if it requires one and no `CONNECT` came before it. -/
theorem Course.notConnected_iff (course : Course setup steps {} parts final result transcript)
    {before after : List Part} {part : Part} (split : parts = before ++ part :: after) :
    part.outcome.failure = some .notConnected ↔
      part.step.action.needsConnection = true ∧ ∀ earlier ∈ before, ¬ earlier.IsConnect := by
  have happens : part.Happens setup := course.happens part (by simp [split])
  have recalls : Recalls before part.before := course.recalls recalls_fresh split
  rw [happens.notConnected_iff, recalls.session_eq_none_iff]

/-- The steps before a part are those of the parts before it. -/
theorem Course.take_steps (course : Course setup steps context parts final result transcript)
    {before after : List Part} {part : Part} (split : parts = before ++ part :: after) :
    steps.take before.length = before.map (·.step) := by
  obtain ⟨rest, rfl⟩ := course.map_step
  rw [split, List.map_append, List.append_assoc, List.take_left']
  simp

theorem stepSucceeds_append {before : List Part} (rest : List Part)
    (all : ∀ part ∈ before, part.outcome.failure = none) {index : Nat} (within : index < before.length) :
    StepSucceeds (before ++ rest) index :=
  ⟨before[index], by rw [List.getElem?_append_left within, List.getElem?_eq_getElem within],
    all _ (List.getElem_mem within)⟩

theorem stepFails_concat {before : List Part} {last : Part} (fails : last.outcome.failure ≠ none) :
    StepFails (before ++ [last]) before.length :=
  ⟨last, by simp, fails⟩

theorem StepFails.not_succeeds {index : Nat} (fails : StepFails parts index) : ¬ StepSucceeds parts index := by
  rintro ⟨_, here, succeeds⟩
  obtain ⟨part, there, failed⟩ := fails
  obtain rfl := Option.some.inj (here.symm.trans there)
  exact failed succeeds

/-- The run of a course succeeds exactly if all its steps do. -/
theorem Course.ok_iff (course : Course setup steps context parts final result transcript) :
    result = .ok () ↔ AllSucceed steps parts := by
  rcases course.ends with ⟨returned, same, all⟩ | ⟨before, last, cause, split, all, fails, within, returned⟩
  · refine ⟨fun _ index within => ?_, fun _ => returned⟩
    have short : index < parts.length := by rwa [← same, List.length_map] at within
    simpa using stepSucceeds_append [] all short
  · refine ⟨fun succeeds => ?_, fun succeeds => ?_⟩
    · rw [returned] at succeeds
      cases succeeds
    · have short : before.length < steps.length := by
        have bound := within.length_le
        simp only [split, List.length_map, List.length_append, List.length_singleton] at bound
        omega
      have failed : StepFails parts before.length := split ▸ stepFails_concat (by simp [fails])
      exact absurd (succeeds _ short) failed.not_succeeds

/-- A part that fails is the last one, and the run fails for the same cause. -/
theorem Course.result_of_failure (course : Course setup steps context parts final result transcript)
    {part : Part} (member : part ∈ parts) {cause : ActionError} (fails : part.outcome.failure = some cause) :
    ∃ number shown, result = .error (.step number shown cause) := by
  rcases course.ends with ⟨_, _, all⟩ | ⟨before, last, stopped, split, all, stops, _, returned⟩
  · simp [all part member] at fails
  · rw [split] at member
    rcases List.mem_append.1 member with passed | atEnd
    · simp [all part passed] at fails
    · obtain rfl := List.mem_singleton.1 atEnd
      obtain rfl : stopped = cause := Option.some.inj (stops.symm.trans fails)
      exact ⟨_, _, returned⟩

/-- A run that fails for want of a connection ends with the part that failed so. -/
theorem Course.last_of_unconnected (course : Course setup steps context parts final result transcript)
    {number : Nat} {shown : String} (returned : result = .error (.step number shown .notConnected)) :
    ∃ before last, parts = before ++ [last] ∧ (∀ part ∈ before, part.outcome.failure = none) ∧
      last.outcome.failure = some .notConnected := by
  rcases course.ends with ⟨succeeds, _⟩ | ⟨before, last, cause, split, all, fails, _, failed⟩
  · rw [returned] at succeeds
    cases succeeds
  · rw [returned] at failed
    cases failed
    exact ⟨before, last, split, all, fails⟩

/-- With no `CONNECT` before it, a part that required a connection would have failed for want of it. -/
theorem Course.needless_of_succeeds (course : Course setup steps {} parts final result transcript)
    {before after : List Part} {part : Part} (split : parts = before ++ part :: after)
    (unconnected : ∀ earlier ∈ before, ¬ earlier.IsConnect) (succeeds : part.outcome.failure = none) :
    part.step.action.needsConnection = false := by
  by_contra needs
  have fails := (course.notConnected_iff split).2 ⟨by simpa using needs, unconnected⟩
  rw [succeeds] at fails
  cases fails

/-- A run fails for want of a connection exactly if the step that fails is the first to require one and no
`CONNECT` came before it. -/
theorem Course.unconnected_iff (course : Course setup steps {} parts final result transcript) :
    (∃ number shown, result = .error (.step number shown .notConnected)) ↔
      FailsUnconnected steps parts := by
  constructor
  · rintro ⟨number, shown, returned⟩
    obtain ⟨before, last, split, all, fails⟩ := course.last_of_unconnected returned
    obtain ⟨needed, unconnected⟩ := (course.notConnected_iff split).1 fails
    have here : parts[before.length]? = some last := by simp [split]
    refine ⟨before.length, last.step, course.step_at here, needed, ?_,
      fun index within => split ▸ stepSucceeds_append _ all within, split ▸ stepFails_concat (by simp [fails])⟩
    rw [course.take_steps split]
    intro earlier member
    obtain ⟨part, among, rfl⟩ := List.mem_map.1 member
    obtain ⟨first, later, inside⟩ := List.append_of_mem among
    have wide : parts = first ++ part :: (later ++ [last]) := by simp [split, inside]
    have sooner : ∀ other ∈ first, ¬ other.IsConnect := fun other member =>
      unconnected other (by simp [inside, member])
    exact ⟨course.needless_of_succeeds wide sooner (all part among),
      fun login written => unconnected part among ⟨login, written⟩⟩
  · rintro ⟨index, step, written, needed, earlier, -, part, here, -⟩
    obtain rfl : part.step = step := Option.some.inj ((course.step_at here).symm.trans written)
    obtain ⟨within, at_⟩ := List.getElem?_eq_some_iff.1 here
    have whole : parts = parts.take index ++ part :: parts.drop (index + 1) := by
      rw [← at_, ← List.drop_eq_getElem_cons within, List.take_append_drop]
    have length : (parts.take index).length = index := by simp; omega
    have taken := course.take_steps whole
    rw [length] at taken
    have fails : part.outcome.failure = some .notConnected := by
      refine (course.notConnected_iff whole).2 ⟨needed, ?_⟩
      rintro other among ⟨login, connect⟩
      exact (earlier other.step (taken ▸ List.mem_map_of_mem among)).2 login connect
    exact course.result_of_failure (List.mem_of_getElem? here) fails

/-- After a `CONNECT` no part fails for want of a connection. -/
theorem Course.connected (course : Course setup steps {} parts final result transcript)
    {before between after : List Part} {connect later : Part}
    (split : parts = before ++ connect :: (between ++ later :: after)) (connects : connect.IsConnect) :
    later.outcome.failure ≠ some .notConnected := by
  intro fails
  have wide : parts = (before ++ connect :: between) ++ later :: after := by simp [split]
  exact ((course.notConnected_iff wide).1 fails).2 connect (by simp) connects

/-- Where no part is a `CONNECT`, nothing is dialed. -/
theorem Course.undialed (course : Course setup steps context parts final result transcript)
    (unconnected : ∀ part ∈ parts, ¬ part.IsConnect) :
    ∀ exchange ∈ transcript, ∀ target, exchange.request ≠ .dial target := by
  intro exchange member target dials
  rcases course.member exchange member with ⟨part, among, said⟩ | ⟨report, told⟩
  · exact unconnected part among ((course.happens part among).dial said dials)
  · rw [told] at dials
    cases dials

/-- A step that fails gives code 3 for want of a connection and code 1 otherwise. -/
theorem exitCode_step (number : Nat) (shown : String) (cause : ActionError) :
    (cause = .notConnected ∧ (RunError.step number shown cause).exitCode = 3) ∨
      (cause ≠ .notConnected ∧ (RunError.step number shown cause).exitCode = 1) := by
  cases cause <;> simp [RunError.exitCode]

/-- The exit codes of runs. -/
theorem Course.exitCodeOf_iff (course : Course setup steps {} parts final result transcript) :
    (exitCodeOf result = 0 ↔ AllSucceed steps parts) ∧
      (exitCodeOf result = 3 ↔ FailsUnconnected steps parts) ∧ exitCodeOf result ∈ [0, 1, 3] := by
  rw [← course.ok_iff, ← course.unconnected_iff]
  cases result with
  | ok done => simp [exitCodeOf]
  | error error =>
    obtain ⟨number, shown, cause, rfl⟩ : ∃ number shown cause, error = .step number shown cause := by
      rcases course.ends with ⟨impossible, _⟩ | ⟨_, last, cause, _, _, _, _, returned⟩
      · cases impossible
      · cases returned
        exact ⟨_, _, _, rfl⟩
    rcases exitCode_step number shown cause with ⟨rfl, code⟩ | ⟨other, code⟩ <;>
      simp [exitCodeOf, *]

/-- A run that fails for want of a connection has dialed nothing. -/
theorem Course.undialed_of_unconnected
    (course : Course setup steps {} parts final result transcript) {number : Nat} {shown : String}
    (fails : result = .error (.step number shown .notConnected)) :
    ∀ exchange ∈ transcript, ∀ target, exchange.request ≠ .dial target := by
  obtain ⟨before, last, split, _, failed⟩ := course.last_of_unconnected fails
  obtain ⟨needed, unconnected⟩ := (course.notConnected_iff split).1 failed
  refine course.undialed fun part among => ?_
  rw [split] at among
  rcases List.mem_append.1 among with earlier | atEnd
  · exact unconnected part earlier
  · rw [List.mem_singleton.1 atEnd]
    rintro ⟨login, written⟩
    rw [written] at needed
    cases needed

/-- Closing the last session dials nothing. -/
theorem undialed_disconnect {after : Context} {closing : Transcript}
    (closed : (disconnect final).Yields closing after) :
    ∀ exchange ∈ closing, ∀ target, exchange.request ≠ .dial target := by
  obtain ⟨_, shape⟩ := yields_disconnect_iff.1 closed
  split at shape
  · simp [shape]
  · obtain ⟨answer, closes⟩ := shape
    simp [closes]

end Courses

end Deployment

end Rollout

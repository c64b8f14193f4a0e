import Rollout.Proofs.Course

/-!
# The lifecycle of sessions

A run's transcript is cut down to its contacts: passwords asked for, dials, and calls of sessions. They
form blocks. A block is one dial that succeeded, then calls of that session only, then one close of it;
passwords are asked for and dials refused between blocks only. Nothing is assumed of the world: every
call can fail, the close and the first call after a dial included.
-/

namespace Rollout.Deployment

open Rollout.Script (Action Login)

/-- What an exchange means for the connection. -/
inductive Contact where
  | asked
  | refused
  | dialed (session : SessionId)
  /-- Any call of the session but its close. -/
  | called (session : SessionId)
  | closed (session : SessionId)
  deriving DecidableEq, Repr

def Contact.ofDial : Except SessionError SessionId → Contact
  | .ok session => .dialed session
  | .error _ => .refused

def Exchange.contact? : Exchange → Option Contact
  | ⟨.askPassword _, _⟩ => some .asked
  | ⟨.dial _, answer⟩ => some (.ofDial answer)
  | ⟨.session id .close, _⟩ => some (.closed id)
  | ⟨.session id _, _⟩ => some (.called id)
  | ⟨.machine _, _⟩ | ⟨.report _, _⟩ => none

def contacts (transcript : Transcript) : List Contact :=
  transcript.filterMap Exchange.contact?

/-- Blocks of dial, calls and close, with nothing but questions and refused dials between them. -/
inductive Blocks : List Contact → Prop
  | none : Blocks []
  | asked {rest : List Contact} : Blocks rest → Blocks (.asked :: rest)
  | refused {rest : List Contact} : Blocks rest → Blocks (.refused :: rest)
  | block {session : SessionId} {calls rest : List Contact}
      (same : ∀ contact ∈ calls, contact = .called session) :
      Blocks rest → Blocks (.dialed session :: (calls ++ .closed session :: rest))

def Contact.update (sessions : List SessionId) : Contact → List SessionId
  | .dialed session => session :: sessions
  | .closed session => sessions.erase session
  | .asked | .refused | .called _ => sessions

/-- The sessions that were dialed and not closed since. -/
def openAfter (contacts : List Contact) : List SessionId :=
  contacts.foldl Contact.update []

/-- The sessions that must be open for a contact to be in its place, and none besides. -/
def Contact.needs : Contact → List SessionId
  | .asked | .refused | .dialed _ => []
  | .called session | .closed session => [session]

/-- What the contacts of a whole run keep to. -/
structure Lifecycle (contacts : List Contact) : Prop where
  blocks : Blocks contacts
  /-- At every point at most one session is open. -/
  oneOpen : ∀ before, before <+: contacts → (openAfter before).length ≤ 1
  /-- Sessions are called and closed only while they are open, and a password is asked for and a
  session dialed only while none is. -/
  inPlace : ∀ before contact after, contacts = before ++ contact :: after →
    openAfter before = contact.needs
  /-- Each session is closed as often as it was dialed. -/
  closedOnce : ∀ session, contacts.count (.closed session) = contacts.count (.dialed session)

/-- Contacts that lead from one open session, or none, to another, each in its place. -/
inductive Follows : Option SessionId → List Contact → Option SessionId → Prop
  | nil (state : Option SessionId) : Follows state [] state
  | asked {rest : List Contact} {last : Option SessionId} :
      Follows none rest last → Follows none (.asked :: rest) last
  | refused {rest : List Contact} {last : Option SessionId} :
      Follows none rest last → Follows none (.refused :: rest) last
  | dialed {session : SessionId} {rest : List Contact} {last : Option SessionId} :
      Follows (some session) rest last → Follows none (.dialed session :: rest) last
  | called {session : SessionId} {rest : List Contact} {last : Option SessionId} :
      Follows (some session) rest last → Follows (some session) (.called session :: rest) last
  | closed {session : SessionId} {rest : List Contact} {last : Option SessionId} :
      Follows none rest last → Follows (some session) (.closed session :: rest) last

/-- What is left of an open block, if a session is open, and whole blocks after it. -/
def BlocksFrom : Option SessionId → List Contact → Prop
  | none, contacts => Blocks contacts
  | some session, contacts => ∃ calls rest, (∀ contact ∈ calls, contact = .called session) ∧
      Blocks rest ∧ contacts = calls ++ .closed session :: rest

namespace Follows

variable {first middle last : Option SessionId} {left right contacts : List Contact}

theorem append (before : Follows first left middle) (after : Follows middle right last) :
    Follows first (left ++ right) last := by
  induction before with
  | nil => exact after
  | asked _ ih => exact .asked (ih after)
  | refused _ ih => exact .refused (ih after)
  | dialed _ ih => exact .dialed (ih after)
  | called _ ih => exact .called (ih after)
  | closed _ ih => exact .closed (ih after)

theorem split (follows : Follows first (left ++ right) last) :
    ∃ middle, Follows first left middle ∧ Follows middle right last := by
  induction left generalizing first with
  | nil => exact ⟨first, .nil first, follows⟩
  | cons contact rest ih =>
    cases follows with
    | asked later =>
      obtain ⟨middle, before, after⟩ := ih later
      exact ⟨middle, .asked before, after⟩
    | refused later =>
      obtain ⟨middle, before, after⟩ := ih later
      exact ⟨middle, .refused before, after⟩
    | dialed later =>
      obtain ⟨middle, before, after⟩ := ih later
      exact ⟨middle, .dialed before, after⟩
    | called later =>
      obtain ⟨middle, before, after⟩ := ih later
      exact ⟨middle, .called before, after⟩
    | closed later =>
      obtain ⟨middle, before, after⟩ := ih later
      exact ⟨middle, .closed before, after⟩

theorem blocksFrom (follows : Follows first contacts last) (atEnd : last = none) :
    BlocksFrom first contacts := by
  induction follows with
  | nil state =>
    subst atEnd
    exact .none
  | asked _ ih => exact .asked (ih atEnd)
  | refused _ ih => exact .refused (ih atEnd)
  | dialed _ ih =>
    obtain ⟨calls, rest, same, later, rfl⟩ := ih atEnd
    exact .block same later
  | @called session rest _ _ ih =>
    obtain ⟨calls, rest, same, later, rfl⟩ := ih atEnd
    refine ⟨.called session :: calls, rest, ?_, later, rfl⟩
    exact List.forall_mem_cons.2 ⟨rfl, same⟩
  | @closed session rest _ _ ih => exact ⟨[], rest, by simp, ih atEnd, rfl⟩

theorem foldl_update (follows : Follows first contacts last) :
    contacts.foldl Contact.update first.toList = last.toList := by
  induction follows with
  | nil => rfl
  | asked _ ih | refused _ ih | dialed _ ih | called _ ih => exact ih
  | closed _ ih => simpa [Contact.update] using ih

/-- The contact that comes next is in its place. -/
theorem needs_eq {contact : Contact} (follows : Follows first (contact :: contacts) last) :
    contact.needs = first.toList := by
  cases follows <;> rfl

/-- A session that is open at the start counts as dialed, and one that is open at the end as closed. -/
theorem count_eq (follows : Follows first contacts last) (session : SessionId) :
    contacts.count (.closed session) + last.toList.count session =
      contacts.count (.dialed session) + first.toList.count session := by
  induction follows with
  | nil => rfl
  | asked _ ih | refused _ ih | called _ ih => simpa using ih
  | dialed _ ih =>
    simp only [List.count_cons, Contact.dialed.injEq, beq_iff_eq, Option.toList_some,
      Option.toList_none, List.count_nil, reduceCtorEq, if_false] at ih ⊢
    omega
  | closed _ ih =>
    simp only [List.count_cons, Contact.closed.injEq, beq_iff_eq, Option.toList_some,
      Option.toList_none, List.count_nil, reduceCtorEq, if_false] at ih ⊢
    omega

theorem lifecycle (follows : Follows none contacts none) : Lifecycle contacts where
  blocks := follows.blocksFrom rfl
  oneOpen := by
    rintro before ⟨after, rfl⟩
    obtain ⟨middle, upTo, _⟩ := follows.split
    have same : openAfter before = middle.toList := upTo.foldl_update
    cases middle <;> simp [same]
  inPlace := by
    rintro before contact after rfl
    obtain ⟨middle, upTo, onward⟩ := follows.split
    have same : openAfter before = middle.toList := upTo.foldl_update
    rw [same, onward.needs_eq]
  closedOnce session := by simpa using follows.count_eq session

end Follows

theorem contacts_append (first second : Transcript) :
    contacts (first ++ second) = contacts first ++ contacts second :=
  List.filterMap_append

theorem contacts_cons (exchange : Exchange) (rest : Transcript) :
    contacts (exchange :: rest) = exchange.contact?.toList ++ contacts rest := by
  unfold contacts
  cases contact : exchange.contact? <;> simp [contact]

theorem contacts_disconnect {context after : Context} {closing : Transcript}
    (closed : (disconnect context).Yields closing after) :
    contacts closing = (context.session.map Contact.closed).toList := by
  obtain ⟨_, shape⟩ := yields_disconnect_iff.1 closed
  cases isOpen : context.session with
  | none =>
    rw [isOpen] at shape
    obtain rfl := shape
    rfl
  | some session =>
    rw [isOpen] at shape
    obtain ⟨answer, rfl⟩ := shape
    rfl

/-- Closing the open session, if there is one, leaves none open. -/
theorem follows_closed (state : Option SessionId) {rest : List Contact} {last : Option SessionId}
    (later : Follows none rest last) :
    Follows state ((state.map Contact.closed).toList ++ rest) last := by
  cases state with
  | none => exact later
  | some session => exact .closed later

theorem follows_passwordFor {login : Login} {asking : Transcript} {reply : Except IoError String}
    (asked : (passwordFor login).Yields asking reply) : Follows none (contacts asking) none := by
  rcases passwordFor_cases asked with ⟨rfl, _⟩ | rfl
  · exact .nil none
  · exact .asked (.nil none)

theorem contacts_localDirectoryOf {setup : Setup} {locating : Transcript}
    {reply : Except IoError String} (located : (localDirectoryOf setup).Yields locating reply) :
    contacts locating = [] := by
  rcases localDirectoryOf_cases located with ⟨rfl, _⟩ | rfl <;> rfl

/-- A connect closes the open session before it makes any other contact. -/
theorem follows_connects {setup : Setup} {context : Context} {login : Login}
    {transcript : Transcript} {outcome : Outcome}
    (connects : Connects setup context login transcript outcome) :
    ∃ rest, contacts transcript = (context.session.map Contact.closed).toList ++ rest ∧
      Follows none rest outcome.context.session := by
  cases connects with
  | unanswered closed asked =>
    rw [contacts_append, contacts_disconnect closed]
    exact ⟨_, rfl, follows_passwordFor asked⟩
  | refused closed asked =>
    rw [contacts_append, contacts_disconnect closed, contacts_append]
    exact ⟨_, rfl, (follows_passwordFor asked).append (.refused (.nil none))⟩
  | homeless closed asked =>
    rw [contacts_append, contacts_disconnect closed, contacts_append]
    exact ⟨_, rfl, (follows_passwordFor asked).append (.dialed (.called (.nil _)))⟩
  | astray closed asked located =>
    rw [contacts_append, contacts_disconnect closed, contacts_append]
    refine ⟨_, rfl, (follows_passwordFor asked).append ?_⟩
    rw [contacts_cons, contacts_cons, contacts_localDirectoryOf located]
    exact .dialed (.called (.nil _))
  | connected closed asked located =>
    rw [contacts_append, contacts_disconnect closed, contacts_append]
    refine ⟨_, rfl, (follows_passwordFor asked).append ?_⟩
    rw [contacts_cons, contacts_cons, contacts_localDirectoryOf located]
    exact .dialed (.called (.nil _))

/-- What stays within an action's reach makes no contact but calls of the open session. -/
theorem follows_reach {context : Context} {action : Action} {transcript : Transcript}
    (within : ∀ exchange ∈ transcript, reach context action exchange.request) :
    Follows context.session (contacts transcript) context.session := by
  induction transcript with
  | nil => exact .nil _
  | cons exchange rest ih =>
    obtain ⟨here, there⟩ := List.forall_mem_cons.1 within
    have later := ih there
    rw [contacts_cons]
    obtain ⟨request, answer⟩ := exchange
    cases request with
    | askPassword question => exact here.elim
    | dial target => exact here.elim
    | machine call => exact later
    | report report => exact later
    | session id call =>
      obtain ⟨isOpen, own, _⟩ := here
      rw [isOpen] at later ⊢
      cases call with
      | close => cases action <;> exact own.elim
      | _ => exact .called later

/-- One step: the contacts of an action lead from the session that is open before it to the one that
is open after it, whether it succeeds or fails. -/
theorem follows_executes {setup : Setup} {context : Context} {action : Action}
    {transcript : Transcript} {outcome : Outcome}
    (executes : Executes setup context action transcript outcome) :
    Follows context.session (contacts transcript) outcome.context.session := by
  cases executes with
  | unconnected _ closed => exact .nil _
  | connects connects =>
    obtain ⟨rest, split, follows⟩ := follows_connects connects
    rw [split]
    exact follows_closed _ follows
  | changed other connected run =>
    obtain ⟨within, changes, _⟩ := change_keeps connected run
    rw [changes.frame.1]
    exact follows_reach within
  | failed other connected run => exact follows_reach (change_keeps connected run).asked

theorem follows_part {setup : Setup} {part : Part} (happens : part.Happens setup) :
    Follows part.before.session (contacts part.transcript) part.outcome.context.session := by
  have inStep := follows_executes happens.executes
  exact inStep

/-- All steps: the contacts of a course lead from the session that is open before it to the one that
is open at its end. -/
theorem follows_course {setup : Setup} {steps : List Script.Step} {context final : Context}
    {parts : List Part} {result : Except RunError Unit} {transcript : Transcript}
    (course : Course setup steps context parts final result transcript) :
    Follows context.session (contacts transcript) final.session := by
  induction course with
  | finished context => exact .nil _
  | failed happens _ => exact follows_part happens
  | passed happens _ _ ih =>
    rw [contacts_append]
    exact (follows_part happens).append ih

/-- A connect that succeeds leaves a session open. -/
theorem connects_session {setup : Setup} {context : Context} {login : Login}
    {transcript : Transcript} {outcome : Outcome}
    (connects : Connects setup context login transcript outcome) (succeeds : outcome.failure = none) :
    outcome.context.session.isSome = true := by
  cases connects with
  | connected => rfl
  | _ => cases succeeds

/-- However the world behaves, the contacts of a run form blocks of one dial, calls of its session, and
one close. No session is open when the run returns. A connect first closes the open session, before a
password is asked for and before the new dial, and if it succeeds a session is open after it. -/
theorem run_lifecycle (setup : Setup) (script : Script) (behaviour : Behaviour) :
    let run := (run setup script).under behaviour []
    Lifecycle (contacts run.1) ∧ run.2.1.session = none ∧
      ∀ context login session transcript outcome, context.session = some session →
        (execute setup context (.connect login)).Yields transcript outcome →
        (∃ rest, contacts transcript = .closed session :: rest ∧
          Follows none rest outcome.context.session) ∧
        (outcome.failure = none → outcome.context.session.isSome = true) := by
  intro run
  obtain ⟨parts, final, steps, closing, course, closed, split⟩ :=
    run_course (Dialogue.yields_under behaviour [] (Deployment.run setup script))
  have whole : Follows none (contacts run.1) none := by
    rw [split, contacts_append, contacts_disconnect closed, ← List.append_nil (Option.toList _)]
    exact (follows_course course).append (follows_closed _ (.nil none))
  refine ⟨whole.lifecycle, ?_, ?_⟩
  · rw [show run.2.1 = final.alone from (yields_disconnect_iff.1 closed).1]
    rfl
  · intro context login session transcript outcome isOpen executed
    cases executes_of_yields executed with
    | unconnected needed => cases needed
    | changed other => exact absurd rfl (other login)
    | failed other => exact absurd rfl (other login)
    | connects connects =>
      refine ⟨?_, connects_session connects⟩
      obtain ⟨rest, split, follows⟩ := follows_connects connects
      rw [isOpen] at split
      exact ⟨rest, split, follows⟩

end Rollout.Deployment

import Rollout.Proofs.ByteOrder
import Rollout.Proofs.Deletion

/-!
# What a run remembers

A remote command runs with what the steps before it declared. Its placeholders stand for the values that
`VAR` steps produced, the last one for each name. What is exported to it was set by `ENV` steps, the last
one for each key, with the placeholders filled in as they stood at that `ENV`. Its directory is where the
`CD` steps since the last `CONNECT` lead from the place in which that session starts. All of this is read
off the parts of the run alone, and the context that the run carries is shown to hold just that.
-/

namespace Rollout

namespace Variables

/-- The text with every placeholder replaced by what the values say. -/
def fill (values : String → Option String) (text : String) : String :=
  String.ofList ((segments text.toList).flatMap fun
    | .literal text => text
    | .reference name => ((values (String.ofList (Text.trim name))).getD "").toList)

theorem substitute_eq_fill (table : Variables) (text : String) :
    table.substitute text = fill table.get? text :=
  rfl

theorem lookup_cons_ite (key value name : String) (rest : List (String × String)) :
    ((key, value) :: rest).lookup name = if name = key then some value else rest.lookup name := by
  rw [List.lookup_cons]
  by_cases here : name = key
  · simp [here]
  · rw [beq_false_of_ne here, if_neg here]

theorem lookup_bind (bindings : List (String × String)) (name value other : String) :
    (bind name value bindings).lookup other =
      if other = name then some value else bindings.lookup other := by
  induction bindings with
  | nil => rw [bind, lookup_cons_ite]
  | cons binding rest ih =>
    obtain ⟨key, bound⟩ := binding
    rw [bind, lookup_cons_ite]
    split
    next same =>
      subst same
      rw [lookup_cons_ite]
      split <;> rfl
    next different =>
      rw [lookup_cons_ite, ih]
      by_cases here : other = key
      · subst here
        rw [if_pos rfl, if_neg different, if_pos rfl]
      · rw [if_neg here, if_neg here]

theorem get?_set (table : Variables) (name value other : String) :
    (table.set name value).get? other = if other = name then some value else table.get? other :=
  lookup_bind table.bindings name value other

end Variables

namespace Session.Environment

/-- The names are in ascending order, each once. -/
abbrev Ascending (environment : Environment) : Prop :=
  environment.Pairwise fun first second => first.1 < second.1

variable {environment : Environment} {name value : String}

theorem mem_set_iff (ascending : environment.Ascending) {binding : String × String} :
    binding ∈ environment.set name value ↔
      binding = (name, value) ∨ binding.1 ≠ name ∧ binding ∈ environment := by
  induction environment with
  | nil => simp [set]
  | cons first rest ih =>
    obtain ⟨above, ordered⟩ := List.pairwise_cons.1 ascending
    rw [set]
    split
    next same =>
      -- What was bound to the name goes, and nothing further on is bound to it.
      have others : binding ∈ rest → binding.1 ≠ name := fun member =>
        same ▸ (String.ne_of_lt (above binding member)).symm
      grind
    next different =>
      split
      next less =>
        have others : binding ∈ first :: rest → binding.1 ≠ name := by
          intro member
          rcases List.mem_cons.1 member with rfl | later
          · exact (String.ne_of_lt less).symm
          · exact (String.ne_of_lt (String.lt_trans less (above binding later))).symm
        grind
      next notLess =>
        rw [List.mem_cons, ih ordered]
        grind

theorem ascending_set (ascending : environment.Ascending) :
    (environment.set name value).Ascending := by
  induction environment with
  | nil => simp [set, Ascending]
  | cons first rest ih =>
    obtain ⟨above, ordered⟩ := List.pairwise_cons.1 ascending
    rw [set]
    split
    next same => exact List.pairwise_cons.2 ⟨fun binding member => same ▸ above binding member, ordered⟩
    next different =>
      split
      next less =>
        refine List.pairwise_cons.2 ⟨fun binding member => ?_, ascending⟩
        rcases List.mem_cons.1 member with rfl | later
        · exact less
        · exact String.lt_trans less (above binding later)
      next notLess =>
        refine List.pairwise_cons.2 ⟨fun binding member => ?_, ih ordered⟩
        rcases (mem_set_iff ordered).1 member with rfl | ⟨_, old⟩
        · exact Std.lt_of_le_of_ne (String.not_lt.1 notLess) (Ne.symm different)
        · exact above binding old

end Session.Environment

namespace Deployment

open Rollout.Script (Action Source)
open Rollout.Session (Environment Setting)

/-- The value in an exchange that was made for one. -/
def Exchange.value? : Exchange → Option String
  | ⟨.machine (.environmentVariable _), answer⟩ => some (Option.getD (α := String) answer "")
  | ⟨.machine (.capture ..), .ok output⟩ => some (Text.trimmed output)
  | ⟨.session _ (.capture ..), .ok output⟩ => some (Text.trimmed output)
  | _ => none

/-- The value that a part produced for a name, if it is a `VAR` of that name: the text of the script, or
what the answer to its one request says. -/
def Part.assigned? (part : Part) (name : String) : Option String :=
  match part.step.action with
  | .var key (.literal value) => if name = key then some value else none
  | .var key _ => if name = key then part.transcript.getLast?.bind Exchange.value? else none
  | _ => none

/-- The value of each name after the parts: the last that was produced for it. -/
def values (parts : List Part) (name : String) : Option String :=
  parts.reverse.findSome? fun part => part.assigned? name

/-- What a text of the script stands for after the parts. -/
def filled (parts : List Part) (text : String) : String :=
  Variables.fill (values parts) text

/-- The last of the parts that sets the key sets it to the value, as its text stood for then. -/
def Exported (parts : List Part) (key value : String) : Prop :=
  ∃ before part after text, parts = before ++ part :: after ∧ part.step.action = .env key text ∧
    (∀ later ∈ after, ∀ other, later.step.action ≠ .env key other) ∧ value = filled before text

/-- The environment has one binding for each key that the parts set, in the order of their bytes. -/
structure Exports (parts : List Part) (environment : Environment) : Prop where
  ascending : environment.Pairwise fun first second => Text.bytesOf first.1 < Text.bytesOf second.1
  exact : ∀ key value, (key, value) ∈ environment ↔ Exported parts key value

/-- The targets of `CD` steps among parts that come after others, each as its text stood for then. -/
def targets (before : List Part) : List Part → List String
  | [] => []
  | part :: rest =>
    (match part.step.action with
      | .cd target => [filled before target]
      | _ => []) ++ targets (before ++ [part]) rest

def Part.IsConnect (part : Part) : Prop :=
  ∃ login, part.step.action = .connect login

/-- Resolving placeholders makes no connect of anything else. -/
theorem Part.isConnect_of_action {part : Part} {login : Script.Login}
    (connects : part.action = .connect login) : part.IsConnect := by
  unfold Part.action at connects
  cases written : part.step.action with
  | connect login => exact ⟨login, written⟩
  | _ => simp [written, Action.substitute] at connects

/-- The part dialed the session and was told that it starts in the directory. -/
def Part.Opens (part : Part) (session : SessionId) (home : String) : Prop :=
  part.IsConnect ∧ ∃ before target after, part.transcript =
    before ++ ⟨.dial target, .ok session⟩ :: ⟨.session session .home, .ok home⟩ :: after

/-- The last `CONNECT` of the parts opened the session, and the `CD` steps since then lead from where it
starts to the directory. -/
def Leads (parts : List Part) (session : SessionId) (directory : String) : Prop :=
  ∃ before opening since home, parts = before ++ opening :: since ∧ opening.Opens session home ∧
    (∀ part ∈ since, ¬ part.IsConnect) ∧
    directory = (targets (before ++ [opening]) since).foldl RemotePath.resolve home

/-- The line that a session executes for a call, if the call is a command. -/
def SessionCall.line? : SessionCall → Option String
  | .run command setting | .capture command setting => some (Session.commandLine command setting)
  | _ => none

/-- All that the part asks for is a command on the session of the parts before it, in the directory and
with the exports that these parts declare. -/
def Part.Commands (part : Part) (before : List Part) (command : String) : Prop :=
  ∃ session call answer directory environment,
    part.transcript = [⟨.session session call, answer⟩] ∧
    call.line? = some (Session.commandLine command { directory := some directory, environment }) ∧
    Leads before session directory ∧ Exports before environment

/-- The part gives up without asking for anything, because no part before it is a `CONNECT`. -/
def Part.Unconnected (part : Part) (before : List Part) : Prop :=
  (∀ earlier ∈ before, ¬ earlier.IsConnect) ∧ part.transcript = [] ∧
    part.outcome.failure = some .notConnected

/-- The parts leave the context as it is: its values, its exports, and its session with the directory
there. -/
structure Recalls (parts : List Part) (context : Context) : Prop where
  values_eq : context.bindings.get? = values parts
  ascending : context.environment.Ascending
  exports : ∀ key value, (key, value) ∈ context.environment ↔ Exported parts key value
  leads : match context.session with
    | none => ∀ part ∈ parts, ¬ part.IsConnect
    | some session => Leads parts session context.remoteDirectory

section Snoc

variable {parts : List Part} {part : Part}

theorem values_concat (name : String) :
    values (parts ++ [part]) name = (part.assigned? name).or (values parts name) := by
  simp only [values, List.reverse_append, List.reverse_singleton, List.singleton_append,
    List.findSome?_cons]
  cases part.assigned? name <;> rfl

theorem targets_append (before first second : List Part) :
    targets before (first ++ second) = targets before first ++ targets (before ++ first) second := by
  induction first generalizing before with
  | nil => simp [targets]
  | cons part rest ih => simp [targets, ih]

/-- Where an element can stand in a list with one more at its end. -/
theorem concat_eq_append_cons {α : Type} {items before after : List α} {last item : α}
    (split : items ++ [last] = before ++ item :: after) :
    (before = items ∧ item = last ∧ after = []) ∨
      ∃ shorter, after = shorter ++ [last] ∧ items = before ++ item :: shorter := by
  rcases List.eq_nil_or_concat after with rfl | ⟨shorter, final, rfl⟩
  · obtain ⟨rfl, same⟩ := List.append_inj' split rfl
    exact .inl ⟨rfl, (List.singleton_inj.1 same).symm, rfl⟩
  · rw [List.concat_eq_append, ← List.cons_append, ← List.append_assoc] at split
    obtain ⟨whole, same⟩ := List.append_inj' split rfl
    exact .inr ⟨shorter, by rw [List.concat_eq_append, List.singleton_inj.1 same], whole⟩

theorem exported_concat_of_ne (other : ∀ key text, part.step.action ≠ .env key text)
    {key value : String} : Exported (parts ++ [part]) key value ↔ Exported parts key value := by
  constructor
  · rintro ⟨before, setter, after, text, split, sets, last, rfl⟩
    rcases concat_eq_append_cons split with ⟨_, rfl, _⟩ | ⟨shorter, rfl, rfl⟩
    · exact absurd sets (other key text)
    · refine ⟨before, setter, shorter, text, rfl, sets, fun later member => ?_, rfl⟩
      exact last later (List.mem_append_left _ member)
  · rintro ⟨before, setter, after, text, rfl, sets, last, rfl⟩
    refine ⟨before, setter, after ++ [part], text, by simp, sets, fun later member => ?_, rfl⟩
    rcases List.mem_append.1 member with among | here
    · exact last later among
    · rw [List.mem_singleton.1 here]
      exact other key

theorem exported_concat_env {key text : String} (sets : part.step.action = .env key text)
    {other value : String} :
    Exported (parts ++ [part]) other value ↔
      (other, value) = (key, filled parts text) ∨ other ≠ key ∧ Exported parts other value := by
  constructor
  · rintro ⟨before, setter, after, written, split, setsToo, last, rfl⟩
    rcases concat_eq_append_cons split with ⟨rfl, rfl, _⟩ | ⟨shorter, rfl, rfl⟩
    · rw [sets] at setsToo
      cases setsToo
      exact .inl rfl
    · refine .inr ⟨?_, before, setter, shorter, written, rfl, setsToo, fun later member => ?_, rfl⟩
      · rintro rfl
        exact last part (by simp) text sets
      · exact last later (List.mem_append_left _ member)
  · rintro (same | ⟨different, before, setter, after, written, rfl, setsToo, last, rfl⟩)
    · cases same
      exact ⟨parts, part, [], text, rfl, sets, by simp, rfl⟩
    · refine ⟨before, setter, after ++ [part], written, by simp, setsToo, fun later member => ?_, rfl⟩
      rcases List.mem_append.1 member with among | here
      · exact last later among
      · intro elsewhere again
        rw [List.mem_singleton.1 here, sets] at again
        cases again
        exact different rfl

theorem leads_concat {session : SessionId} {directory : String} (stays : ¬ part.IsConnect)
    (leads : Leads parts session directory) :
    Leads (parts ++ [part]) session
      ((targets parts [part]).foldl RemotePath.resolve directory) := by
  obtain ⟨before, opening, since, home, rfl, opens, none, rfl⟩ := leads
  refine ⟨before, opening, since ++ [part], home, by simp, opens, fun later member => ?_, ?_⟩
  · rcases List.mem_append.1 member with among | here
    · exact none later among
    · rwa [List.mem_singleton.1 here]
  · rw [targets_append, List.foldl_append]
    simp

end Snoc

section Steps

variable {setup : Setup} {context : Context} {transcript : Transcript} {parts : List Part} {part : Part}

theorem substituteSource_eq_literal_iff {table : Variables} {source : Source} {value : String} :
    Action.substituteSource table source = .literal value ↔ source = .literal value := by
  cases source <;> simp [Action.substituteSource]

/-- A call of the open session is one exchange. -/
theorem onSession_of_yields {session : SessionId} {call : SessionCall}
    {result : Except ActionError call.Result} (isOpen : context.session = some session)
    (run : (onSession context call).run.Yields transcript result) :
    ∃ answer, transcript = [⟨.session session call, answer⟩] ∧ result = answer.mapError .remote := by
  unfold onSession sessionOf at run
  rw [isOpen] at run
  rcases Attempt.yields_bind_iff.1 run with ⟨_, failed, _⟩ | ⟨_, _, _, found, called, rfl⟩
  · cases (Attempt.yields_pure_iff.1 failed).2
  · obtain ⟨rfl, same⟩ := Attempt.yields_pure_iff.1 found
    cases same
    obtain ⟨answer, asked, rfl⟩ := Attempt.yields_failingAs_iff.1 called
    exact ⟨answer, Attempt.yields_session_iff.1 asked, rfl⟩

/-- A use of what the open session answers is one exchange, and returns what it makes of the answer. -/
theorem onSession_use {α : Type} {session : SessionId} {call : SessionCall} {use : call.Result → α}
    {result : Except ActionError α} (isOpen : context.session = some session)
    (run : (do
      let output ← onSession context call
      return use output : Attempt ActionError α).run.Yields transcript result) :
    ∃ answer, transcript = [⟨.session session call, answer⟩] ∧
      result = (answer.mapError .remote).map use := by
  rcases Attempt.yields_bind_iff.1 run with ⟨_, failed, rfl⟩ | ⟨_, _, _, passed, atEnd, rfl⟩
  · obtain ⟨answer, said, same⟩ := onSession_of_yields isOpen failed
    exact ⟨answer, said, by rw [← same]; rfl⟩
  · obtain ⟨rfl, rfl⟩ := Attempt.yields_pure_iff.1 atEnd
    obtain ⟨answer, rfl, same⟩ := onSession_of_yields isOpen passed
    exact ⟨answer, rfl, by rw [← same]; rfl⟩

/-- What is captured on the open session and returned without the blanks around it is the value of the
one exchange. -/
theorem captured_value {session : SessionId} {command : String} {setting : Setting} {value : String}
    (isOpen : context.session = some session)
    (run : (do
      let output ← onSession context (.capture command setting)
      return Text.trimmed output : Attempt ActionError String).run.Yields transcript (.ok value)) :
    transcript.getLast?.bind Exchange.value? = some value := by
  obtain ⟨answer, rfl, returned⟩ := onSession_use isOpen run
  cases answer with
  | error error => cases returned
  | ok shown =>
    cases returned
    rfl

/-- The value of a source is the text of the script, or what the one exchange says. -/
theorem valueOf_value {source : Source} {value : String}
    (connected : source.isRemote = true → context.session.isSome = true)
    (run : (valueOf setup context source).run.Yields transcript (.ok value)) :
    source = .literal value ∨
      (∀ text, source ≠ .literal text) ∧ transcript.getLast?.bind Exchange.value? = some value := by
  cases source with
  | literal text =>
    obtain ⟨_, same⟩ := Attempt.yields_pure_iff.1 run
    cases same
    exact .inl rfl
  | environment side name =>
    refine .inr ⟨by simp, ?_⟩
    cases side with
    | here =>
      rcases Attempt.yields_bind_iff.1 run with ⟨_, _, impossible⟩ | ⟨_, _, _, passed, atEnd, rfl⟩
      · cases impossible
      · obtain ⟨rfl, same⟩ := Attempt.yields_pure_iff.1 atEnd
        cases same
        obtain ⟨_, looked, same⟩ := Attempt.yields_lift_iff.1 passed
        cases same
        obtain rfl := Dialogue.yields_request_iff.1 looked
        rfl
    | remote =>
      obtain ⟨session, isOpen⟩ := Option.isSome_iff_exists.1 (connected rfl)
      exact captured_value isOpen run
  | command side argv =>
    refine .inr ⟨by simp, ?_⟩
    cases side with
    | here =>
      rcases Attempt.yields_bind_iff.1 run with ⟨_, _, impossible⟩ | ⟨_, _, _, passed, atEnd, rfl⟩
      · cases impossible
      · obtain ⟨rfl, same⟩ := Attempt.yields_pure_iff.1 atEnd
        cases same
        obtain ⟨answer, asked, returned⟩ := Attempt.yields_asking_iff.1 passed
        obtain rfl := Dialogue.yields_request_iff.1 asked
        cases answer with
        | error error => cases returned
        | ok shown =>
          cases returned
          rfl
    | remote =>
      obtain ⟨session, isOpen⟩ := Option.isSome_iff_exists.1 (connected rfl)
      exact captured_value isOpen run

/-- The number of the step makes no difference. -/
theorem Recalls.renumbered (recalls : Recalls parts context) (number : Nat) :
    Recalls parts { context with step := number } :=
  ⟨recalls.values_eq, recalls.ascending, recalls.exports, recalls.leads⟩

/-- What the placeholders of a step stand for is what the parts before it produced. -/
theorem Recalls.substitute_eq (recalls : Recalls parts context) :
    context.bindings.substitute = filled parts := by
  funext text
  rw [Variables.substitute_eq_fill, recalls.values_eq]
  rfl

theorem recalls_fresh : Recalls [] {} where
  values_eq := rfl
  ascending := .nil
  exports key value := by simp [Exported]
  leads := by simp

/-- A connect that succeeds opens a session and leaves the rest as it was. -/
theorem connects_opens {login : Script.Login} {outcome : Outcome}
    (connects : Connects setup context login transcript outcome) (succeeds : outcome.failure = none) :
    ∃ session home, outcome.context.session = some session ∧ outcome.context.remoteDirectory = home ∧
      outcome.context.bindings = context.bindings ∧
      outcome.context.environment = context.environment ∧
      ∃ before target after, transcript =
        before ++ ⟨.dial target, .ok session⟩ :: ⟨.session session .home, .ok home⟩ :: after := by
  cases connects with
  | @connected closing asking locating password home place session closed asked located =>
    refine ⟨session, home, rfl, rfl, rfl, rfl, closing ++ asking, targetOf login password, locating, ?_⟩
    rw [List.append_assoc]
  | _ => cases succeeds

theorem values_concat_of_ne (other : ∀ key source, part.step.action ≠ .var key source) :
    values (parts ++ [part]) = values parts := by
  funext name
  have silent : part.assigned? name = none := by
    unfold Part.assigned?
    cases written : part.step.action with
    | var key source => exact absurd written (other key source)
    | _ => rfl
  rw [values_concat, silent, Option.none_or]

theorem values_concat_var {key value : String} {source : Source}
    (written : part.step.action = .var key source)
    (produced : source = .literal value ∨ (∀ text, source ≠ .literal text) ∧
      part.transcript.getLast?.bind Exchange.value? = some value) (name : String) :
    values (parts ++ [part]) name = if name = key then some value else values parts name := by
  rw [values_concat]
  have assigned : part.assigned? name = if name = key then some value else none := by
    unfold Part.assigned?
    rw [written]
    rcases produced with rfl | ⟨other, said⟩
    · rfl
    · cases source with
      | literal text => exact absurd rfl (other text)
      | environment side variable_ => simp only [said]
      | command side argv => simp only [said]
  rw [assigned]
  split <;> rfl

/-- What a part other than a connect has to leave in the context. -/
theorem Recalls.concat {after : Context} (recalls : Recalls parts context)
    (stays : ¬ part.IsConnect) (session_eq : after.session = context.session)
    (values_eq : after.bindings.get? = values (parts ++ [part]))
    (ascending : after.environment.Ascending)
    (exports : ∀ key value,
      (key, value) ∈ after.environment ↔ Exported (parts ++ [part]) key value)
    (directory_eq : after.remoteDirectory =
      (targets parts [part]).foldl RemotePath.resolve context.remoteDirectory) :
    Recalls (parts ++ [part]) after := by
  refine ⟨values_eq, ascending, exports, ?_⟩
  have leads := recalls.leads
  rw [session_eq, directory_eq]
  cases isOpen : context.session with
  | none =>
    rw [isOpen] at leads
    exact List.forall_mem_append.2 ⟨leads, by simpa using stays⟩
  | some session =>
    rw [isOpen] at leads
    exact leads_concat stays leads

/-- An action that is no connect and succeeds has run its change. -/
theorem Executes.changes {action : Action} {outcome : Outcome}
    (executes : Executes setup context action transcript outcome)
    (stays : ∀ login, action ≠ .connect login) (succeeds : outcome.failure = none) :
    (action.needsConnection = true → context.session.isSome = true) ∧
      (change setup context action).run.Yields transcript (.ok outcome.context) := by
  cases executes with
  | unconnected | failed => cases succeeds
  | connects => exact absurd rfl (stays _)
  | changed _ connected run => exact ⟨connected, run⟩

theorem Executes.connecting {login : Script.Login} {outcome : Outcome}
    (executes : Executes setup context (.connect login) transcript outcome) :
    Connects setup context login transcript outcome := by
  cases executes with
  | unconnected needed => cases needed
  | connects connects => exact connects
  | changed other | failed other => exact absurd rfl (other login)

theorem Recalls.values_kept (recalls : Recalls parts context)
    (other : ∀ key source, part.step.action ≠ .var key source) :
    context.bindings.get? = values (parts ++ [part]) := by
  rw [values_concat_of_ne other]
  exact recalls.values_eq

theorem Recalls.exports_kept (recalls : Recalls parts context)
    (other : ∀ key text, part.step.action ≠ .env key text) (key value : String) :
    (key, value) ∈ context.environment ↔ Exported (parts ++ [part]) key value := by
  rw [exported_concat_of_ne other]
  exact recalls.exports key value

theorem Recalls.connect (recalls : Recalls parts part.before) {login : Script.Login}
    (written : part.step.action = .connect login) (happens : part.Happens setup)
    (succeeds : part.outcome.failure = none) : Recalls (parts ++ [part]) part.outcome.context := by
  have executes := happens.executes
  rw [Part.action, written] at executes
  obtain ⟨session, home, isOpen, located, bindings, environment, dialed⟩ :=
    connects_opens executes.connecting succeeds
  refine ⟨?_, environment ▸ recalls.ascending, ?_, ?_⟩
  · rw [bindings]
    exact recalls.values_kept (by simp [written])
  · rw [environment]
    exact recalls.exports_kept (by simp [written])
  · rw [isOpen]
    exact ⟨parts, part, [], home, rfl, ⟨⟨login, written⟩, dialed⟩, by simp, located⟩

theorem Recalls.var (recalls : Recalls parts part.before) {key : String} {source : Source}
    (written : part.step.action = .var key source) (happens : part.Happens setup)
    (succeeds : part.outcome.failure = none) : Recalls (parts ++ [part]) part.outcome.context := by
  have during : Recalls parts part.during := recalls.renumbered _
  have executes := happens.executes
  rw [Part.action, written] at executes
  obtain ⟨connected, run⟩ := executes.changes (by simp [Action.substitute]) succeeds
  rcases Attempt.yields_bind_iff.1 run with ⟨_, _, impossible⟩ | ⟨_, value, _, passed, atEnd, said⟩
  · cases impossible
  obtain ⟨rfl, same⟩ := Attempt.yields_pure_iff.1 atEnd
  rw [List.append_nil] at said
  have produced := valueOf_value connected (said ▸ passed)
  simp only [ne_eq, substituteSource_eq_literal_iff] at produced
  injection same with after
  refine during.concat (by simp [Part.IsConnect, written]) ?_ ?_ ?_ ?_ ?_
  all_goals rw [after]
  · funext name
    rw [values_concat_var written produced, ← recalls.values_eq]
    exact Variables.get?_set ..
  · exact recalls.ascending
  · exact recalls.exports_kept (by simp [written])
  · simp [targets, written]

theorem Recalls.env (recalls : Recalls parts part.before) {key text : String}
    (written : part.step.action = .env key text) (happens : part.Happens setup)
    (succeeds : part.outcome.failure = none) : Recalls (parts ++ [part]) part.outcome.context := by
  have during : Recalls parts part.during := recalls.renumbered _
  have executes := happens.executes
  rw [Part.action, written] at executes
  obtain ⟨connected, run⟩ := executes.changes (by simp [Action.substitute]) succeeds
  obtain ⟨_, same⟩ := Attempt.yields_pure_iff.1 run
  injection same with after
  refine during.concat (by simp [Part.IsConnect, written]) ?_ ?_ ?_ ?_ ?_
  all_goals rw [after]
  · exact recalls.values_kept (by simp [written])
  · exact Session.Environment.ascending_set recalls.ascending
  · intro other value
    rw [exported_concat_env written, ← recalls.exports, recalls.substitute_eq]
    exact Session.Environment.mem_set_iff recalls.ascending
  · simp [targets, written]

theorem Recalls.cd (recalls : Recalls parts part.before) {target : String}
    (written : part.step.action = .cd target) (happens : part.Happens setup)
    (succeeds : part.outcome.failure = none) : Recalls (parts ++ [part]) part.outcome.context := by
  have during : Recalls parts part.during := recalls.renumbered _
  have executes := happens.executes
  rw [Part.action, written] at executes
  obtain ⟨connected, run⟩ := executes.changes (by simp [Action.substitute]) succeeds
  obtain ⟨_, same⟩ := Attempt.yields_pure_iff.1 run
  injection same with after
  refine during.concat (by simp [Part.IsConnect, written]) ?_ ?_ ?_ ?_ ?_
  all_goals rw [after]
  · exact recalls.values_kept (by simp [written])
  · exact recalls.ascending
  · exact recalls.exports_kept (by simp [written])
  · simp [targets, written, recalls.substitute_eq, Context.remotePath]

/-- One step: what the parts before it left and what the step itself declares is all there is after
it. -/
theorem Recalls.step (recalls : Recalls parts part.before) (happens : part.Happens setup)
    (succeeds : part.outcome.failure = none) : Recalls (parts ++ [part]) part.outcome.context := by
  cases written : part.step.action with
  | connect login => exact recalls.connect written happens succeeds
  | var key source => exact recalls.var written happens succeeds
  | env key text => exact recalls.env written happens succeeds
  | cd target => exact recalls.cd written happens succeeds
  | _ =>
    -- Every other action leaves the context as it is.
    have during : Recalls parts part.during := recalls.renumbered _
    have executes := happens.executes
    rw [Part.action, written] at executes
    obtain ⟨connected, run⟩ := executes.changes (by simp [Action.substitute]) succeeds
    have after : part.outcome.context = part.during := (change_keeps connected run).ended
    rw [after]
    refine during.concat (by simp [Part.IsConnect, written]) rfl (during.values_kept ?_)
      during.ascending (during.exports_kept ?_) ?_
    · simp [written]
    · simp [written]
    · simp [targets, written]

/-- A use of the open session is one exchange, however it ends. -/
theorem onSession_bind_pure {α : Type} {session : SessionId} {call : SessionCall}
    {use : call.Result → α} {result : Except ActionError α}
    (isOpen : context.session = some session)
    (run : (do
      let output ← onSession context call
      return use output : Attempt ActionError α).run.Yields transcript result) :
    ∃ answer, transcript = [⟨.session session call, answer⟩] := by
  obtain ⟨answer, said, _⟩ := onSession_use isOpen run
  exact ⟨answer, said⟩

/-- A remote action either finds no session or runs its change on the open one. -/
theorem Executes.remotely {action : Action} {outcome : Outcome}
    (executes : Executes setup context action transcript outcome)
    (remote : action.needsConnection = true) :
    (context.session = none ∧ transcript = [] ∧ outcome.failure = some .notConnected) ∨
      ∃ session result, context.session = some session ∧
        (change setup context action).run.Yields transcript result := by
  cases executes with
  | unconnected _ closed => exact .inl ⟨closed, rfl, rfl⟩
  | connects => cases remote
  | changed _ connected run | failed _ connected run =>
    obtain ⟨session, isOpen⟩ := Option.isSome_iff_exists.1 (connected remote)
    exact .inr ⟨session, _, isOpen, run⟩

theorem Recalls.exports_environment (recalls : Recalls parts context) :
    Exports parts context.environment :=
  ⟨recalls.ascending.imp Text.bytesOf_lt, recalls.exports⟩

theorem Recalls.leads_session (recalls : Recalls parts context) {session : SessionId}
    (isOpen : context.session = some session) : Leads parts session context.remoteDirectory := by
  have leads := recalls.leads
  rwa [isOpen] at leads

theorem Recalls.unconnected (recalls : Recalls parts part.before) (closed : part.before.session = none)
    (silent : part.transcript = []) (fails : part.outcome.failure = some .notConnected) :
    part.Unconnected parts := by
  have unconnected := recalls.leads
  rw [closed] at unconnected
  exact ⟨unconnected, silent, fails⟩

theorem Recalls.commands (recalls : Recalls parts part.before) {session : SessionId}
    {call : SessionCall} {answer : (Request.session session call).Answer} {command : String}
    (isOpen : part.before.session = some session)
    (said : part.transcript = [⟨.session session call, answer⟩])
    (line : call.line? = some (Session.commandLine command part.during.setting)) :
    part.Commands parts command :=
  ⟨session, call, answer, _, _, said, line, recalls.leads_session isOpen, recalls.exports_environment⟩

theorem Recalls.runs (recalls : Recalls parts part.before) (happens : part.Happens setup)
    {text : String} (written : part.step.action = .run text) :
    part.Unconnected parts ∨ part.Commands parts (filled parts text) := by
  have executes := happens.executes
  rw [Part.action, written] at executes
  rcases executes.remotely rfl with ⟨closed, silent, fails⟩ | ⟨session, result, isOpen, run⟩
  · exact .inl (recalls.unconnected closed silent fails)
  · obtain ⟨answer, said⟩ := onSession_bind_pure isOpen run
    rw [← recalls.substitute_eq]
    exact .inr (recalls.commands isOpen said rfl)

theorem Recalls.captures (recalls : Recalls parts part.before) (happens : part.Happens setup)
    {key : String} {argv : List String}
    (written : part.step.action = .var key (.command .remote argv)) :
    part.Unconnected parts ∨
      part.Commands parts (Action.spaced (argv.map (filled parts))) := by
  have executes := happens.executes
  rw [Part.action, written] at executes
  rcases executes.remotely rfl with ⟨closed, silent, fails⟩ | ⟨session, result, isOpen, run⟩
  · exact .inl (recalls.unconnected closed silent fails)
  · have single : ∃ answer, part.transcript = [⟨.session session (.capture
        (Action.spaced (argv.map part.before.bindings.substitute)) part.during.setting), answer⟩] := by
      rcases Attempt.yields_bind_iff.1 run with ⟨_, failed, _⟩ | ⟨_, _, _, passed, atEnd, said⟩
      · exact onSession_bind_pure isOpen failed
      · obtain ⟨rfl, _⟩ := Attempt.yields_pure_iff.1 atEnd
        rw [said, List.append_nil]
        exact onSession_bind_pure isOpen passed
    obtain ⟨answer, said⟩ := single
    rw [← recalls.substitute_eq]
    exact .inr (recalls.commands isOpen said rfl)

end Steps

/-- All steps: in the context of every part there is what the parts before it declare. -/
theorem Course.recalls {setup : Setup} {steps : List Script.Step} {context final : Context}
    {parts : List Part} {result : Except RunError Unit} {transcript : Transcript}
    (course : Course setup steps context parts final result transcript) {earlier : List Part}
    (recalls : Recalls earlier context) {before after : List Part} {part : Part}
    (split : parts = before ++ part :: after) : Recalls (earlier ++ before) part.before := by
  induction course generalizing earlier before with
  | finished => simp at split
  | failed =>
    cases before with
    | nil =>
      obtain ⟨rfl, _⟩ := List.cons.inj split
      simpa using recalls
    | cons => simp at split
  | @passed first _ _ _ _ _ happens succeeds _ ih =>
    cases before with
    | nil =>
      obtain ⟨rfl, _⟩ := List.cons.inj split
      simpa using recalls
    | cons head before =>
      obtain ⟨rfl, later⟩ := List.cons.inj split
      have next := ih (recalls.step happens succeeds) later
      rwa [List.append_assoc] at next

/-- Whatever was said before a run, a remote command in it runs with what the parts before it declare and
with nothing else: its placeholders stand for the last value that a `VAR` produced for each name, each
key that an `ENV` set is exported with its last text as it stood for then, and its directory is where the
`CD` steps since the last `CONNECT` lead from the place in which that session starts. -/
theorem run_commands_declared (setup : Setup) (script : Script) (behaviour : Behaviour)
    (past : Transcript) :
    let run := (run setup script).under behaviour past
    ∃ parts final steps closing, Course setup script.steps {} parts final run.2.2 steps ∧
      (disconnect final).Yields closing run.2.1 ∧ run.1 = steps ++ closing ∧
      ∀ before part after, parts = before ++ part :: after →
        (∀ text, part.step.action = .run text →
          part.Unconnected before ∨ part.Commands before (filled before text)) ∧
        ∀ key argv, part.step.action = .var key (.command .remote argv) →
          part.Unconnected before ∨
            part.Commands before (Action.spaced (argv.map (filled before))) := by
  intro run
  obtain ⟨parts, final, steps, closing, course, closed, split⟩ :=
    run_course (Dialogue.yields_under behaviour past (Deployment.run setup script))
  refine ⟨parts, final, steps, closing, course, closed, split, ?_⟩
  intro before part after among
  have recalls : Recalls before part.before := course.recalls recalls_fresh among
  have happens : part.Happens setup := course.happens part (by simp [among])
  exact ⟨fun _ => recalls.runs happens, fun _ _ => recalls.captures happens⟩

end Deployment

end Rollout

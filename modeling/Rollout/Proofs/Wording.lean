import Mathlib.Algebra.GroupWithZero.Nat
import Rollout.Proofs.Placeholders
import Rollout.Proofs.Recall
import Rollout.Proofs.Wrapped

/-!
# The wording of a remote command

The text of a `RUN` line is filled in as a whole. Between the parentheses of `REMOTE_CMD` the same text is
split into words, each word is filled in, and the words are put together by single spaces. Both ways lead to
the same command under every table exactly if the text is its own words with single spaces between them and
no placeholder in it holds a blank.
-/

namespace Rollout

namespace Text

variable {c d : Char}

theorem words_nil : words [] = [] :=
  rfl

theorem words_blank (blank : isBlank c = true) (rest : List Char) : words (c :: rest) = words rest := by
  rw [words.eq_def]
  simp [blank]

theorem words_ne_nil (solid : isBlank c = false) (rest : List Char) : words (c :: rest) ≠ [] := by
  rw [words.eq_def]
  simp only [solid, Bool.false_eq_true, if_false]
  repeat' split
  all_goals simp

theorem words_singleton (solid : isBlank c = false) : words [c] = [[c]] := by
  rw [words.eq_def]
  simp [solid]

theorem words_last (solid : isBlank c = false) (blank : isBlank d = true) (rest : List Char) :
    words (c :: d :: rest) = [c] :: words rest := by
  rw [words.eq_def]
  simp [solid, blank, words_blank]

/-- A character that is not blank joins the word after it. -/
theorem words_solid (solid : isBlank c = false) (next : isBlank d = false) (rest : List Char) :
    words (c :: d :: rest) = (words (d :: rest)).modifyHead (c :: ·) := by
  obtain ⟨word, more, found⟩ := List.exists_cons_of_ne_nil (words_ne_nil next rest)
  rw [words.eq_def]
  simp [solid, next, found]

/-- A blank keeps the words before it from those after it. -/
theorem words_append_blank (blank : isBlank c = true) (before after : List Char) :
    words (before ++ c :: after) = words before ++ words after := by
  induction before with
  | nil => exact words_blank blank after
  | cons d rest ih =>
    cases here : isBlank d with
    | true => rw [List.cons_append, words_blank here, words_blank here, ih]
    | false =>
      cases rest with
      | nil =>
        rw [words_singleton here, List.cons_append, List.nil_append, words_last here blank]
        rfl
      | cons e more =>
        cases next : isBlank e with
        | true =>
          rw [words_blank next] at ih
          rw [words_last here next, List.cons_append, List.cons_append, words_last here next,
            ← words_blank next, ← List.cons_append, ih]
          rfl
        | false =>
          obtain ⟨word, others, found⟩ := List.exists_cons_of_ne_nil (words_ne_nil next more)
          rw [List.cons_append, List.cons_append, words_solid here next, words_solid here next,
            ← List.cons_append, ih, found]
          rfl

theorem words_of_forall {word : List Char} (written : word ≠ [])
    (solid : ∀ c ∈ word, isBlank c = false) : words word = [word] := by
  induction word with
  | nil => exact absurd rfl written
  | cons c rest ih =>
    have here : isBlank c = false := solid c List.mem_cons_self
    cases rest with
    | nil => exact words_singleton here
    | cons d more =>
      have later : ∀ e ∈ d :: more, isBlank e = false := fun e member =>
        solid e (List.mem_cons_of_mem _ member)
      rw [words_solid here (later d List.mem_cons_self), ih (List.cons_ne_nil d more) later]
      rfl

/-- A text is without blanks, or goes on after its first blank. -/
theorem blank_induction {motive : List Char → Prop}
    (word : ∀ text, (∀ c ∈ text, isBlank c = false) → motive text)
    (further : ∀ before c after, (∀ d ∈ before, isBlank d = false) → isBlank c = true → motive after →
      motive (before ++ c :: after))
    (text : List Char) : motive text := by
  have general : ∀ before, (∀ c ∈ before, isBlank c = false) → motive (before ++ text) := by
    induction text with
    | nil => exact fun before solid => by simpa using word before solid
    | cons c rest ih =>
      intro before solid
      cases blank : isBlank c with
      | true => exact further before c rest solid blank (by simpa using ih [] (by simp))
      | false =>
        rw [List.append_cons]
        apply ih
        intro d member
        rcases List.mem_append.1 member with first | last
        · exact solid d first
        · rwa [List.mem_singleton.1 last]
  simpa using general [] (by simp)

/-- The only word of a text without blanks is the text. -/
theorem eq_of_mem_words {text word : List Char} (solid : ∀ c ∈ text, isBlank c = false)
    (member : word ∈ words text) : word = text := by
  by_cases empty : text = []
  · subst empty
    cases member
  · rw [words_of_forall empty solid] at member
    exact List.mem_singleton.1 member

theorem solid_of_mem_words {text word : List Char} (member : word ∈ words text) :
    ∀ c ∈ word, isBlank c = false := by
  induction text using blank_induction with
  | word text solid => exact eq_of_mem_words solid member ▸ solid
  | further before c after solid blank ih =>
    rw [words_append_blank blank] at member
    rcases List.mem_append.1 member with first | later
    · exact eq_of_mem_words solid first ▸ solid
    · exact ih later

end Text

namespace Variables

open Rollout.Text Rollout.Script.Statement

variable {c : Char} {before after inside rest text : List Char}

/-- A text without blanks has none in its placeholders. -/
theorem compact_of_forall (solid : ∀ c ∈ text, isBlank c = false) : Compact text := by
  intro name member c inside
  apply solid
  rw [← flatMap_written text]
  apply List.mem_flatMap_of_mem member
  simp [Segment.written, inside]

/-- Solid texts put together by single spaces are compact with them, and are filled in one by one. -/
theorem resolve_joined {table : Variables} {parts : List (List Char)} (compact : Compact (joined parts)) :
    table.resolve (joined parts) = joined (parts.map table.resolve) := by
  induction parts with
  | nil => exact resolve_of_none rfl
  | cons part others ih =>
    by_cases more : others = []
    · simp [more, joined_singleton]
    · rw [joined_cons part more] at compact ⊢
      rw [resolve_append_blank rfl compact, ih (compact.right rfl), List.map_cons,
        joined_cons _ (by simpa using more)]

/-- The names in the words of a compact text are names in it. -/
theorem names_words {word : List Char} (compact : Compact text) (member : word ∈ words text) :
    names word ⊆ names text := by
  induction text using blank_induction with
  | word text solid =>
    rw [eq_of_mem_words solid member]
    exact List.Subset.refl _
  | further before c after solid blank ih =>
    rw [words_append_blank blank] at member
    rw [names_append_blank blank compact]
    rcases List.mem_append.1 member with first | later
    · rw [eq_of_mem_words solid first]
      exact List.subset_append_left _ _
    · exact List.Subset.trans (ih (compact.right blank) later) (List.subset_append_right _ _)

/-- How many characters that are not blank a text has when every placeholder in it stands for nothing. -/
def bareCount (text : List Char) : Nat :=
  (empty.resolve text).countP fun c => !isBlank c

theorem bareCount_nil : bareCount [] = 0 := by
  rw [bareCount, resolve_of_none rfl]
  rfl

theorem bareCount_of_some {name : List Char} (found : placeholder? text = some (before, name, rest)) :
    bareCount text = before.countP (fun c => !isBlank c) + bareCount rest := by
  have gone : empty.expand (.reference name) = [] := rfl
  simp [bareCount, resolve_of_some found, gone]

theorem bareCount_unopened (unopened : cutAtPair '{' before = none) (different : c ≠ '{')
    (after : List Char) :
    bareCount (before ++ c :: after) =
      before.countP (fun c => !isBlank c) + ((if isBlank c then 0 else 1) + bareCount after) := by
  unfold bareCount
  rw [resolve_unopened unopened different, List.countP_append, List.countP_cons]
  cases isBlank c <;> simp [Nat.add_comm]

/-- What stands after the first closing is left by any text that ends with it. -/
theorem bareCount_rest_le (closed : cutAtPair '}' text = some (inside, rest)) :
    bareCount rest ≤ bareCount text := by
  have whole := cutAtPair_eq closed
  cases opened : cutAtPair '{' inside with
  | none =>
    have nothing : cutAtPair '{' ([] : List Char) = none := rfl
    have second := bareCount_unopened nothing (show '}' ≠ '{' by decide) rest
    have first := bareCount_unopened opened (show '}' ≠ '{' by decide) ('}' :: rest)
    rw [List.nil_append] at second
    rw [whole, first, second]
    omega
  | some parts =>
    -- What was opened before the closing ends there, so the rest follows that placeholder.
    obtain ⟨before, name⟩ := parts
    have start := cutAtPair_append_some opened ('}' :: '}' :: rest)
    rw [← whole] at start
    have ends : cutAtPair '}' (name ++ '}' :: '}' :: rest) = some (name, rest) := by
      have inner : cutAtPair '}' ((before ++ ['{']) ++ '{' :: (name ++ '}' :: '}' :: rest)) =
          some ((before ++ ['{']) ++ '{' :: name, rest) := by
        rw [whole, cutAtPair_eq opened] at closed
        simpa using closed
      exact cutAtPair_of_append inner (by decide)
    have found : placeholder? text = some (before, name, rest) := by
      simp [placeholder?, start, ends]
    rw [bareCount_of_some found]
    omega

/-- At a blank nothing is lost but by a placeholder that holds the blank, and that loses its braces too. -/
theorem bareCount_append_blank (blank : isBlank c = true) (plain : ∀ d ∈ before, isBlank d = false)
    (after : List Char) :
    bareCount (before ++ c :: after) ≤ bareCount before + bareCount after ∧
      (bareCount (before ++ c :: after) = bareCount before + bareCount after → Compact after →
        Compact (before ++ c :: after)) := by
  have different {d : Char} (solid : isBlank d = false) : c ≠ d := by
    rintro rfl
    simp [blank] at solid
  fun_induction segments before with
  | case1 before missing =>
    have alone : bareCount before = before.countP fun c => !isBlank c := by
      rw [bareCount, resolve_of_none missing]
    cases passes_of_none missing (different rfl) (different rfl) after with
    | nothing whole later =>
      have count : bareCount (before ++ c :: after) = bareCount before + bareCount after := by
        simp [bareCount, resolve_of_none whole, resolve_of_none later, resolve_of_none missing, blank]
      exact ⟨Nat.le_of_eq count, fun _ _ => compact_of_none whole⟩
    | later later whole =>
      have count : bareCount (before ++ c :: after) = bareCount before + bareCount after := by
        rw [bareCount_of_some whole, bareCount_of_some later, alone]
        simp [blank, Nat.add_assoc]
      refine ⟨Nat.le_of_eq count, fun _ compact => ?_⟩
      exact (compact_iff_of_some whole).2 ((compact_iff_of_some later).1 compact)
    | @holds first inside name rest opened closed whole =>
      -- The two braces that open it are part of the text before the blank, and of nothing in the whole.
      have count := bareCount_of_some whole
      have left : bareCount rest ≤ bareCount after := bareCount_rest_le closed
      have lost : bareCount before =
          first.countP (fun c => !isBlank c) + (inside.countP (fun c => !isBlank c) + 2) := by
        rw [alone, opened]
        simp [isBlank]
      constructor
      · omega
      · intro same
        omega
  | case2 before first name rest found ih =>
    have whole := placeholder?_append_some found (c :: after)
    have further := ih fun d member => plain d (by rw [placeholder?_eq found]; simp [member])
    rw [bareCount_of_some whole, bareCount_of_some found]
    refine ⟨by omega, fun same compact => ?_⟩
    have solid := ((compact_iff_of_some found).1 (compact_of_forall plain)).1
    exact (compact_iff_of_some whole).2 ⟨solid, further.2 (by omega) compact⟩

theorem sum_bareCount_words (solid : ∀ c ∈ text, isBlank c = false) :
    ((words text).map bareCount).sum = bareCount text := by
  by_cases empty : text = []
  · subst empty
    rw [bareCount_nil, words_nil]
    rfl
  · simp [words_of_forall empty solid]

/-- The words of a text have as many such characters as the text, or more, and more if it is not compact. -/
theorem bareCount_le_words (text : List Char) :
    bareCount text ≤ ((words text).map bareCount).sum ∧
      (bareCount text = ((words text).map bareCount).sum → Compact text) := by
  induction text using blank_induction with
  | word text solid =>
    exact ⟨Nat.le_of_eq (sum_bareCount_words solid).symm, fun _ => compact_of_forall solid⟩
  | further before c after solid blank ih =>
    obtain ⟨less, compact⟩ := bareCount_append_blank blank solid after
    rw [words_append_blank blank, List.map_append, List.sum_append, sum_bareCount_words solid]
    refine ⟨by omega, fun same => ?_⟩
    exact compact (by omega) (ih.2 (by omega))

theorem countP_joined (parts : List (List Char)) :
    (joined parts).countP (fun c => !isBlank c) =
      (parts.map (List.countP fun c => !isBlank c)).sum := by
  induction parts with
  | nil => rfl
  | cons part others ih =>
    by_cases more : others = []
    · simp [more, joined_singleton]
    · simp [joined_cons part more, ih, show isBlank ' ' = true from rfl]

/-- A text is filled in word by word under every table exactly if it is its own words with single spaces
between them and no placeholder in it holds a blank. -/
theorem resolves_by_words_iff (text : List Char) :
    (∀ table, resolve table text = joined ((words text).map table.resolve)) ↔
      joined (words text) = text ∧ Compact text := by
  constructor
  · intro agree
    have counts : bareCount text = ((words text).map bareCount).sum := by
      rw [bareCount, agree, countP_joined, List.map_map]
      rfl
    have compact : Compact text := (bareCount_le_words text).2 counts
    refine ⟨?_, compact⟩
    have same : ∀ word ∈ words text, (mirror text).resolve word = id word := fun word member =>
      resolve_mirror (compact_of_forall (solid_of_mem_words member)) (names_words compact member)
    have kept : (words text).map (mirror text).resolve = words text := by
      rw [List.map_congr_left same, List.map_id]
    have whole := agree (mirror text)
    rw [kept, resolve_mirror compact (List.Subset.refl _)] at whole
    exact whole.symm
  · rintro ⟨spaced, compact⟩ table
    rw [← spaced] at compact
    have filled : table.resolve (joined (words text)) = _ := resolve_joined compact
    rwa [spaced] at filled

end Variables

namespace Deployment

open Rollout.Script Rollout.Script.Statement Rollout.Text

namespace Attempt

/-- All that is said is one request, and it can be answered in any way. -/
def Asks {ε α : Type} (attempt : Attempt ε α) (request : Request) : Prop :=
  ∀ transcript, (∃ result, attempt.run.Yields transcript result) ↔ ∃ answer, transcript = [⟨request, answer⟩]

theorem asks_onSession {context : Context} {session : SessionId} (isOpen : context.session = some session)
    (call : SessionCall) : (onSession context call).Asks (.session session call) := by
  intro transcript
  constructor
  · rintro ⟨result, run⟩
    obtain ⟨answer, said, _⟩ := onSession_of_yields isOpen run
    exact ⟨answer, said⟩
  · rintro ⟨answer, rfl⟩
    refine ⟨answer.mapError .remote, Attempt.yields_bind_iff.2 (.inr ⟨[], session, _, ?_, ?_, rfl⟩)⟩
    · unfold sessionOf
      rw [isOpen]
      exact Attempt.yields_pure_iff.2 ⟨rfl, rfl⟩
    · exact Attempt.yields_failingAs_iff.2 ⟨answer, Attempt.yields_session_iff.2 rfl, rfl⟩

/-- What is made of the answer says nothing more. -/
theorem Asks.use {ε α β : Type} {attempt : Attempt ε α} {request : Request} (asks : attempt.Asks request)
    (use : α → β) : (do return use (← attempt) : Attempt ε β).Asks request := by
  intro transcript
  rw [← asks transcript]
  constructor
  · rintro ⟨result, run⟩
    rcases Attempt.yields_bind_iff.1 run with ⟨error, failed, _⟩ | ⟨first, value, _, passed, atEnd, rfl⟩
    · exact ⟨.error error, failed⟩
    · obtain ⟨rfl, _⟩ := Attempt.yields_pure_iff.1 atEnd
      exact ⟨.ok value, by simpa using passed⟩
  · rintro ⟨error | value, run⟩
    · exact ⟨.error error, Attempt.yields_bind_iff.2 (.inl ⟨error, run, rfl⟩)⟩
    · refine ⟨.ok (use value), Attempt.yields_bind_iff.2 (.inr ⟨transcript, value, [], run, ?_, ?_⟩)⟩
      · exact Attempt.yields_pure_iff.2 ⟨rfl, rfl⟩
      · rw [List.append_nil]

end Attempt

variable {setup : Setup} {context : Context} {session : SessionId}

/-- All that an action says when its turn comes is one call of the open session. -/
def CallsOnly (setup : Setup) (context : Context) (action : Action) (call : SessionCall) : Prop :=
  ∃ session, context.session = some session ∧ ∀ transcript,
    (∃ outcome, (execute setup context (action.substitute context.bindings)).Yields transcript outcome) ↔
      ∃ answer, transcript = [⟨.session session call, answer⟩]

/-- What an action sends is one call and no other. -/
theorem CallsOnly.unique {action : Action} {call call' : SessionCall}
    (calls : CallsOnly setup context action call) (calls' : CallsOnly setup context action call') :
    call = call' := by
  obtain ⟨session, isOpen, one⟩ := calls
  obtain ⟨_, isOpen', other⟩ := calls'
  have refused : ∃ answer, [(⟨.session session call, .error (.task "")⟩ : Exchange)] =
      [⟨.session session call, answer⟩] := ⟨_, rfl⟩
  rw [isOpen] at isOpen'
  cases isOpen'
  obtain ⟨answer, same⟩ := (other _).1 ((one _).2 refused)
  cases same
  rfl

/-- An action on the open session says what its change says. -/
theorem callsOnly_of_change {action : Action} {call : SessionCall} (isOpen : context.session = some session)
    (other : ∀ login, action.substitute context.bindings ≠ .connect login)
    (asks : (change setup context (action.substitute context.bindings)).Asks (.session session call)) :
    CallsOnly setup context action call := by
  refine ⟨session, isOpen, fun transcript => ?_⟩
  rw [← asks transcript]
  generalize action.substitute context.bindings = filled at *
  constructor
  · rintro ⟨outcome, run⟩
    cases executes_of_yields run with
    | unconnected _ closed => simp [isOpen] at closed
    | connects => exact absurd rfl (other _)
    | changed _ _ changed => exact ⟨_, changed⟩
    | failed _ _ failed => exact ⟨_, failed⟩
  · rintro ⟨result, run⟩
    unfold execute
    rw [if_neg (by simp [isOpen])]
    split
    next login => exact absurd rfl (other login)
    next =>
      cases result with
      | error failure =>
        exact ⟨_, Dialogue.yields_bind_iff.2 ⟨transcript, .error failure, [], run,
          Dialogue.yields_pure_iff.2 ⟨rfl, rfl⟩, (List.append_nil _).symm⟩⟩
      | ok after =>
        exact ⟨_, Dialogue.yields_bind_iff.2 ⟨transcript, .ok after, [], run,
          Dialogue.yields_pure_iff.2 ⟨rfl, rfl⟩, (List.append_nil _).symm⟩⟩

/-- A `RUN` sends its text, filled in as a whole. -/
theorem callsOnly_run (isOpen : context.session = some session) (text : String) :
    CallsOnly setup context (.run text) (.run (context.bindings.substitute text) context.setting) := by
  apply callsOnly_of_change isOpen
  · simp [Action.substitute]
  · exact (Attempt.asks_onSession isOpen _).use fun _ => context

/-- A captured command sends its words, each filled in, with single spaces between them. -/
theorem callsOnly_capture (isOpen : context.session = some session) (key : String) (argv : List String) :
    CallsOnly setup context (.var key (.command .remote argv))
      (.capture (Action.spaced (argv.map context.bindings.substitute)) context.setting) := by
  apply callsOnly_of_change isOpen
  · simp [Action.substitute]
  · have output := Attempt.asks_onSession isOpen
      (.capture (Action.spaced (argv.map context.bindings.substitute)) context.setting)
    have value := output.use Text.trimmed
    exact value.use fun value => { context with bindings := context.bindings.set key value }

/-- The text of a `RUN` line and the same text between the parentheses of `REMOTE_CMD` are both read, and send
the open session the same command with the same directory and variables, whatever values the variables have,
exactly if the text's arguments are, put together, their own words with single spaces between them, and no
placeholder in them holds a blank. -/
theorem commands_worded_alike_iff (text : String) {arguments : List String}
    (oneLine : '\n' ∉ text.toList) (uncommented : hasComment text.toList = false)
    (stated : Statement.ofSource ("RUN " ++ text) = .ok [{ keyword := .run, arguments, line := 1 }]) :
    ∃ run capture,
      parse ("RUN " ++ text) = .ok { steps := [{ action := run, line := 1 }] } ∧
      parse ("VAR X = REMOTE_CMD(" ++ text ++ ")") = .ok { steps := [{ action := capture, line := 1 }] } ∧
      ((∀ setup context, context.session.isSome = true → ∃ command,
          CallsOnly setup context run (.run command context.setting) ∧
          CallsOnly setup context capture (.capture command context.setting)) ↔
        joined (words (Action.spaced arguments).toList) = (Action.spaced arguments).toList ∧
          Variables.Compact (Action.spaced arguments).toList) := by
  obtain ⟨tokens, read, written, rfl⟩ := tokens_of_ofSource .run rfl oneLine stated
  have solid : Solid (joined tokens) :=
    solid_joined written fun _ member => (isToken_of_tokensFrom .nothing read member).solid
  have made : (Form.command .remote).source (joined tokens) =
      .ok (.command .remote ((words (joined tokens)).map String.ofList)) := by
    simp [Form.source, solid.ne_nil]
  have captured := parse_wrapped (.command .remote) oneLine uncommented read written made
  have started := parse_statement stated
  rw [Action.ofArguments, if_neg (by simpa using written), spaced_map_ofList] at started
  refine ⟨_, _, started, captured, ?_⟩
  rw [spaced_map_ofList, String.toList_ofList, ← Variables.resolves_by_words_iff]
  have worded (table : Variables) :
      table.substitute (String.ofList (joined tokens)) =
          Action.spaced (((words (joined tokens)).map String.ofList).map table.substitute) ↔
        table.resolve (joined tokens) = joined ((words (joined tokens)).map table.resolve) := by
    have filled : ((words (joined tokens)).map String.ofList).map table.substitute =
        ((words (joined tokens)).map table.resolve).map String.ofList := by
      simp [Variables.substitute_ofList]
    rw [filled, spaced_map_ofList, Variables.substitute_ofList]
    exact ⟨fun same => String.ofList_injective same, congrArg String.ofList⟩
  constructor
  · intro alike table
    obtain ⟨command, ran, capture⟩ := alike {} { session := some 0, bindings := table } rfl
    have first := ran.unique (callsOnly_run rfl _)
    have second := capture.unique (callsOnly_capture rfl _ _)
    obtain ⟨same, -⟩ := SessionCall.run.inj first
    obtain ⟨again, -⟩ := SessionCall.capture.inj second
    exact (worded table).1 (same.symm.trans again)
  · intro same setup context isOpen
    obtain ⟨session, isOpen⟩ := Option.isSome_iff_exists.1 isOpen
    refine ⟨context.bindings.substitute (String.ofList (joined tokens)), callsOnly_run isOpen _, ?_⟩
    rw [(worded context.bindings).2 (same context.bindings)]
    exact callsOnly_capture isOpen _ _

theorem commands_worded_alike_quoted :
    Statement.ofSource "RUN  echo 'a b'  {{X}}" =
      .ok [{ keyword := .run, arguments := ["echo", "'a b'", "{{X}}"], line := 1 }] ∧
    ∃ run capture,
      parse "RUN  echo 'a b'  {{X}}" = .ok { steps := [{ action := run, line := 1 }] } ∧
      parse "VAR X = REMOTE_CMD( echo 'a b'  {{X}})" =
        .ok { steps := [{ action := capture, line := 1 }] } ∧
      ∀ setup context, context.session.isSome = true → ∃ command,
        CallsOnly setup context run (.run command context.setting) ∧
        CallsOnly setup context capture (.capture command context.setting) := by
  have stated : Statement.ofSource "RUN  echo 'a b'  {{X}}" =
      .ok [{ keyword := .run, arguments := ["echo", "'a b'", "{{X}}"], line := 1 }] := rfl
  have pieces : Variables.segments (Action.spaced ["echo", "'a b'", "{{X}}"]).toList =
      [.literal "echo 'a b' ".toList, .reference ['X'], .literal []] := by cbv
  have compact : Variables.Compact (Action.spaced ["echo", "'a b'", "{{X}}"]).toList := by
    intro name member
    rw [pieces] at member
    obtain rfl : name = ['X'] := by simpa using member
    exact List.forall_mem_singleton.2 rfl
  obtain ⟨run, capture, started, captured, alike⟩ :=
    commands_worded_alike_iff " echo 'a b'  {{X}}" (by decide) rfl stated
  exact ⟨stated, run, capture, started, captured, alike.2 ⟨rfl, compact⟩⟩

/-- Two blanks between quotes reach the remote shell from a `RUN` line, and one of them from `REMOTE_CMD`. -/
theorem quoted_blanks_lost :
    Statement.ofSource "RUN echo \"a  b\"" =
      .ok [{ keyword := .run, arguments := ["echo", "\"a  b\""], line := 1 }] ∧
    hasComment "echo \"a  b\"".toList = false ∧
    parse "RUN echo \"a  b\"" = .ok { steps := [{ action := .run "echo \"a  b\"", line := 1 }] } ∧
    parse "VAR X = REMOTE_CMD(echo \"a  b\")" =
      .ok { steps := [{ action := .var "X" (.command .remote ["echo", "\"a", "b\""]), line := 1 }] } ∧
    CallsOnly {} { session := some 0 } (.run "echo \"a  b\"") (.run "echo \"a  b\"" { directory := some "" }) ∧
    CallsOnly {} { session := some 0 } (.var "X" (.command .remote ["echo", "\"a", "b\""]))
      (.capture "echo \"a b\"" { directory := some "" }) ∧
    ¬ ∃ command,
      CallsOnly {} { session := some 0 } (.run "echo \"a  b\"") (.run command { directory := some "" }) ∧
      CallsOnly {} { session := some 0 } (.var "X" (.command .remote ["echo", "\"a", "b\""]))
        (.capture command { directory := some "" }) := by
  have whole : Variables.empty.substitute "echo \"a  b\"" = "echo \"a  b\"" := by cbv
  have split : Action.spaced (["echo", "\"a", "b\""].map Variables.empty.substitute) = "echo \"a b\"" := by
    cbv
  have ran : CallsOnly {} { session := some 0 } (.run "echo \"a  b\"")
      (.run (Variables.empty.substitute "echo \"a  b\"") { directory := some "" }) := callsOnly_run rfl _
  have captured : CallsOnly {} { session := some 0 } (.var "X" (.command .remote ["echo", "\"a", "b\""]))
      (.capture (Action.spaced (["echo", "\"a", "b\""].map Variables.empty.substitute))
        { directory := some "" }) := callsOnly_capture rfl _ _
  rw [whole] at ran
  rw [split] at captured
  refine ⟨rfl, rfl, rfl, rfl, ran, captured, ?_⟩
  rintro ⟨command, first, second⟩
  obtain ⟨rfl, -⟩ := SessionCall.run.inj (ran.unique first)
  obtain ⟨same, -⟩ := SessionCall.capture.inj (captured.unique second)
  exact absurd same (by decide)

end Deployment

end Rollout

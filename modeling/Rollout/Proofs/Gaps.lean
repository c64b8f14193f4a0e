import Mathlib
import Rollout.Proofs.Placeholders

/-!
# Blanks between the braces

Lines are split into tokens before placeholders are looked for, so blanks between the braces of an unquoted
placeholder cut it into tokens of their own. Where the tokens are put together again before anything is
looked up, in the text of a `RUN` and in the value of an `ENV`, the placeholder is whole again and the
blanks do not matter. Everywhere else the parts stay apart, and the line says something else.
-/

namespace Rollout.Script

open Rollout.Text Statement

namespace Statement

variable {token text gap name : List Char} {found : Option (List (List Char))}

theorem joined_append {tokens more : List (List Char)} (written : more ≠ []) :
    joined (tokens ++ more) = tokens.flatMap (· ++ [' ']) ++ joined more := by
  induction tokens with
  | nil => rfl
  | cons first rest ih => simp [joined_cons, ih, written]

/-- Reading a text comes down to finding tokens further on: some number of tokens is added to them, and put
together they have the given text before them. -/
def ReadsTo (token text : List Char) (found : Option (List (List Char))) (count : Nat)
    (lead : List Char) : Prop :=
  ∃ f : List (List Char) → List (List Char), tokensFrom none token text = found.map f ∧
    ∀ tokens, tokens ≠ [] → (f tokens).length = tokens.length + count ∧
      joined (f tokens) = lead ++ joined tokens

/-- Two braces that close go on with any token. -/
theorem readsTo_closing (token after : List Char) :
    ReadsTo token ('}' :: '}' :: after) (tokensFrom none ['}', '}'] after) 0 token.reverse := by
  refine ⟨List.modifyHead (token.reverse ++ ·), ?_, fun tokens written => ?_⟩
  · exact tokensFrom_after none (show ['}', '}'] ≠ [] by simp) token after
  · exact ⟨by simp, joined_modifyHead _ written⟩

/-- Blanks end the token under way, if there is one. -/
theorem readsTo_blanks {count : Nat} {lead : List Char} (blank : ∀ c ∈ gap, isBlank c = true)
    (reads : ReadsTo [] text found count lead) (written : gap ≠ []) (token : List Char) :
    ∃ space, (∀ c ∈ space, isBlank c = true) ∧
      ReadsTo token (gap ++ text) found (count + (endToken token).length)
        (token.reverse ++ (space ++ lead)) := by
  obtain ⟨f, read, adds⟩ := reads
  have ended : tokensFrom none token (gap ++ text) = (found.map f).map (endToken token ++ ·) := by
    rw [tokensFrom_gap blank written, read]
  rw [Option.map_map] at ended
  cases token with
  | nil =>
    refine ⟨[], by simp, _, ended, fun tokens written => ?_⟩
    simpa [endToken] using adds tokens written
  | cons c rest =>
    refine ⟨[' '], blank_space, _, ended, fun tokens written => ?_⟩
    obtain ⟨length, put⟩ := adds tokens written
    have filled : f tokens ≠ [] := by
      rintro empty
      rw [empty] at length
      have := List.length_pos_iff.2 written
      simp at length
      omega
    simp [endToken, joined_cons _ filled, length, put]
    omega

/-- Characters that mean nothing to the reader belong to the token under way. -/
theorem tokensFrom_plain (plain : ∀ c ∈ name, isQuote c = false ∧ isBlank c = false ∧ c ≠ '#')
    (next : text.head? ≠ some '#') (token : List Char) :
    tokensFrom none token (name ++ text) = tokensFrom none (name.reverse ++ token) text := by
  induction name generalizing token with
  | nil => rfl
  | cons c rest ih =>
    obtain ⟨notQuote, notBlank, notSharp⟩ := plain c List.mem_cons_self
    have later : ∀ d ∈ rest, isQuote d = false ∧ isBlank d = false ∧ d ≠ '#' := fun d member =>
      plain d (List.mem_cons_of_mem c member)
    have unescaped : (rest ++ text).head? ≠ some '#' := by
      cases rest with
      | nil => exact next
      | cons d more => simpa using (later d List.mem_cons_self).2.2
    rw [List.cons_append, tokensFrom_cons fun _ => unescaped]
    simp [notQuote, notBlank, notSharp, ih later]

/-- A name between two braces and two braces, outside quotes, and the blanks around it. -/
structure Padded (lead name trail : List Char) : Prop where
  plain : ∀ c ∈ name, isQuote c = false ∧ isBlank c = false ∧ c ≠ '#'
  unclosed : '}' ∉ name
  before : ∀ c ∈ lead, isBlank c = true
  behind : ∀ c ∈ trail, isBlank c = true

variable {keyword : Keyword} {before lead trail after : List Char} {cursor : Cursor}
  {earlier tokens : List (List Char)}

theorem Padded.tight (padded : Padded lead name trail) : Padded [] name [] :=
  ⟨padded.plain, padded.unclosed, by simp, by simp⟩

theorem Padded.trim_eq (padded : Padded lead name trail) : trim (lead ++ (name ++ trail)) = name := by
  rw [← List.append_assoc]
  exact trim_of_forall (fun c member => (padded.plain c member).2.1) padded.before padded.behind

theorem Padded.not_mem (padded : Padded lead name trail) : '}' ∉ lead ++ (name ++ trail) := by
  simp only [List.mem_append, not_or]
  refine ⟨fun member => ?_, padded.unclosed, fun member => ?_⟩
  · cases padded.before _ member
  · cases padded.behind _ member

/-- What the reader makes of a name, the blanks behind it and what follows the placeholder. -/
theorem readsTo_name (padded : Padded lead name trail) (after token : List Char) :
    ∃ space count, Padded [] name space ∧ (trail = [] → count = 0) ∧
      (trail ≠ [] → count = (endToken (name.reverse ++ token)).length) ∧
      ReadsTo token (name ++ (trail ++ '}' :: '}' :: after)) (tokensFrom none ['}', '}'] after) count
        (token.reverse ++ (name ++ space)) := by
  have next : (trail ++ '}' :: '}' :: after).head? ≠ some '#' := by
    cases trail with
    | nil => simp
    | cons c rest =>
      intro sharp
      obtain rfl : c = '#' := by simpa using sharp
      cases padded.behind '#' List.mem_cons_self
  unfold ReadsTo
  rw [tokensFrom_plain padded.plain next]
  by_cases tight : trail = []
  · refine ⟨[], 0, padded.tight, fun _ => rfl, fun gap => absurd tight gap, ?_⟩
    rw [tight]
    simpa [ReadsTo] using readsTo_closing (name.reverse ++ token) after
  · obtain ⟨space, blank, reads⟩ :=
      readsTo_blanks padded.behind (readsTo_closing [] after) tight (name.reverse ++ token)
    refine ⟨space, _, { padded.tight with behind := blank }, fun empty => absurd empty tight,
      fun _ => rfl, ?_⟩
    simpa [ReadsTo] using reads

/-- What the reader makes of the inside of a placeholder and of what follows it: blanks around the name end
tokens, and leave blanks when the tokens are put together. -/
theorem readsTo_placeholder {base : List Char} (begun : base ≠ []) (padded : Padded lead name trail)
    (after : List Char) :
    ∃ space space' count, Padded space name space' ∧ (0 < count ↔ lead ++ trail ≠ []) ∧
      ReadsTo base (lead ++ (name ++ (trail ++ '}' :: '}' :: after)))
        (tokensFrom none ['}', '}'] after) count (base.reverse ++ (space ++ (name ++ space'))) := by
  by_cases tight : lead = []
  · obtain ⟨space, count, around, without, within, reads⟩ := readsTo_name padded after base
    refine ⟨[], space, count, around, ?_, by simpa [tight] using reads⟩
    by_cases ends : trail = []
    · simp [tight, ends, without ends]
    · have ended : endToken (name.reverse ++ base) ≠ [] := by
        rw [endToken_of_ne_nil (by simp [begun])]
        simp
      simp [tight, ends, within ends, List.length_pos_iff, ended]
  · -- The blanks before the name have ended the token with the opening braces, so a new one begins.
    obtain ⟨space', count, around, -, -, reads⟩ := readsTo_name padded after []
    obtain ⟨space, blank, reads'⟩ := readsTo_blanks padded.before reads tight base
    refine ⟨space, space', _, { around with before := blank }, ?_, by simpa using reads'⟩
    simp [tight, endToken_of_ne_nil begun]

/-- A line with a placeholder: the text before it, what stands between its braces, the text after it. -/
def lineWith (before inside after : List Char) : List Char :=
  before ++ '{' :: '{' :: (inside ++ '}' :: '}' :: after)

/-- Reading the text before a placeholder leads out of quotes to a place among the arguments of a keyword. -/
structure Stands (keyword : Keyword) (before : List Char) (cursor : Cursor) (earlier : List (List Char)) :
    Prop where
  reached : scan none [] before = some cursor
  unquoted : cursor.quote = none
  begins : cursor.tokens = keyword.word.toList :: earlier

/-- What the arguments say up to a place, put together: those behind it and the one under way. -/
def saidAt (earlier : List (List Char)) (cursor : Cursor) : List Char :=
  earlier.flatMap (· ++ [' ']) ++ cursor.token.reverse

/-- A token that has begun is begun in what is read. -/
theorem begins_of_tokensFrom {quote : Option Char} {tokens : List (List Char)} (begun : token ≠ [])
    (read : tokensFrom quote token text = some tokens) :
    ∃ rest, joined tokens = token.reverse ++ rest ∧ tokens ≠ [] := by
  have further {c : Char} {token : List Char}
      (later : ∃ rest, joined tokens = (c :: token).reverse ++ rest ∧ tokens ≠ []) :
      ∃ rest, joined tokens = token.reverse ++ rest ∧ tokens ≠ [] := by
    obtain ⟨rest, put, written⟩ := later
    exact ⟨c :: rest, by simp [put], written⟩
  fun_induction tokensFrom quote token text generalizing tokens with
  | case1 token =>
    cases read
    rw [endToken_of_ne_nil begun]
    exact ⟨[], by simp [joined_singleton], by simp⟩
  | case2 => cases read
  | case3 quote token c rest ih => exact further (ih (List.cons_ne_nil c token) read further)
  | case4 token rest ih => exact further (ih (List.cons_ne_nil '#' token) read further)
  | case5 token c rest unescaped sharp => simp [begun] at sharp
  | case6 token c rest _ _ quotes ih => exact further (ih (List.cons_ne_nil c token) read further)
  | case7 token c rest _ _ _ _ ih =>
    obtain ⟨later, -, rfl⟩ := Option.map_eq_some_iff.1 read
    rw [endToken_of_ne_nil begun]
    by_cases more : later = []
    · exact ⟨[], by simp [more, joined_singleton], by simp⟩
    · exact ⟨' ' :: joined later, by simp [joined_cons _ more], by simp⟩
  | case8 token c rest _ _ _ _ ih => exact further (ih (List.cons_ne_nil c token) read further)

/-- Reading a line up to the inside of a placeholder. -/
theorem tokensFrom_opening (stands : Stands keyword before cursor earlier) (inside after : List Char) :
    tokensFrom none [] (lineWith before inside after) =
      (tokensFrom none ('{' :: '{' :: cursor.token) (inside ++ '}' :: '}' :: after)).map
        (cursor.tokens ++ ·) := by
  rw [lineWith, tokensFrom_append stands.reached (by simp), stands.unquoted]
  rfl

/-- A quote that is left open after a placeholder spoils the line, whatever blanks the placeholder holds. -/
theorem tokensFrom_lineWith_none (stands : Stands keyword before cursor earlier)
    (padded : Padded lead name trail) (unread : tokensFrom none ['}', '}'] after = none) :
    tokensFrom none [] (lineWith before (lead ++ (name ++ trail)) after) = none := by
  obtain ⟨_, _, _, _, _, f, read, _⟩ :=
    readsTo_placeholder (List.cons_ne_nil '{' ('{' :: cursor.token)) padded after
  rw [tokensFrom_opening stands]
  simp only [List.append_assoc] at read ⊢
  rw [read, unread]
  rfl

/-- The arguments of a line with a placeholder: put together they hold it, and there are more of them if there
are blanks at its name. -/
theorem tokensFrom_lineWith (stands : Stands keyword before cursor earlier)
    (padded : Padded lead name trail) (read : tokensFrom none ['}', '}'] after = some tokens) :
    ∃ space space' arguments, Padded space name space' ∧
      tokensFrom none [] (lineWith before (lead ++ (name ++ trail)) after) =
        some (keyword.word.toList :: arguments) ∧
      joined arguments =
        lineWith (saidAt earlier cursor) (space ++ (name ++ space')) ((joined tokens).drop 2) ∧
      earlier.length + tokens.length ≤ arguments.length ∧
      (earlier.length + tokens.length < arguments.length ↔ lead ++ trail ≠ []) := by
  obtain ⟨rest, closes, written⟩ := begins_of_tokensFrom (by simp) read
  obtain ⟨space, space', count, around, counts, f, found, adds⟩ :=
    readsTo_placeholder (List.cons_ne_nil '{' ('{' :: cursor.token)) padded after
  obtain ⟨length, put⟩ := adds tokens written
  have filled : f tokens ≠ [] := by
    rintro empty
    have := List.length_pos_iff.2 written
    simp [empty] at length
    omega
  refine ⟨space, space', earlier ++ f tokens, around, ?_, ?_, ?_, ?_⟩
  · rw [tokensFrom_opening stands]
    simp only [List.append_assoc] at found ⊢
    rw [found, read, stands.begins]
    rfl
  · rw [joined_append filled, put, closes]
    simp [lineWith, saidAt]
  · rw [List.length_append, length]
    omega
  · rw [← counts, List.length_append, length]
    omega

end Statement

section Values

variable {table : Variables} {lead name trail start after text : List Char}

/-- Of a placeholder after a settled text only the name counts. -/
theorem resolve_lineWith (settled : Variables.Settled start) (padded : Padded lead name trail)
    (after : List Char) :
    table.resolve (lineWith start (lead ++ (name ++ trail)) after) =
      table.resolve (lineWith start name after) := by
  have named : trim name = name := by simpa using padded.tight.trim_eq
  unfold lineWith
  rw [Variables.resolve_settled settled padded.not_mem, Variables.resolve_settled settled padded.unclosed]
  simp only [Variables.expand, padded.trim_eq, named]

theorem blanks_lineWith_trimStart (start inside after : List Char) :
    start.takeWhile isBlank ++ lineWith (trimStart start) inside after = lineWith start inside after := by
  unfold lineWith trimStart
  rw [← List.append_assoc, List.takeWhile_append_dropWhile]

/-- The same holds where the blanks before the text are cut off. -/
theorem resolve_trimStart_lineWith (settled : Variables.Settled start) (padded : Padded lead name trail)
    (after : List Char) :
    table.resolve (lineWith (trimStart start) (lead ++ (name ++ trail)) after) =
      table.resolve (lineWith (trimStart start) name after) := by
  have blanks : ∀ c ∈ start.takeWhile isBlank, isBlank c = true := List.all_eq_true.1 List.all_takeWhile
  have whole : table.resolve (lineWith start (lead ++ (name ++ trail)) after) = _ :=
    resolve_lineWith settled padded after
  rw [← blanks_lineWith_trimStart, ← blanks_lineWith_trimStart start name] at whole
  rw [Variables.resolve_blanks blanks, Variables.resolve_blanks blanks] at whole
  exact List.append_cancel_left whole

theorem cutAt_append {mark : Char} {left right : List Char} (found : cutAt mark start = some (left, right))
    (more : List Char) : cutAt mark (start ++ more) = some (left, right ++ more) := by
  induction start generalizing left with
  | nil => cases found
  | cons c rest ih =>
    rw [cutAt] at found
    rw [List.cons_append, cutAt]
    split
    next here =>
      rw [if_pos here] at found
      cases found
      rfl
    next further =>
      rw [if_neg further] at found
      obtain ⟨⟨inner, behind⟩, there, same⟩ := Option.map_eq_some_iff.1 found
      cases same
      rw [ih there]
      rfl

/-- Of a text that holds a placeholder and ends with no blank, only the blanks before it are cut off. -/
theorem trim_lineWith {inside : List Char}
    (ends : ∃ c, (lineWith start inside after).getLast? = some c ∧ isBlank c = false) :
    trim (lineWith start inside after) = lineWith (trimStart start) inside after := by
  have blanks : ∀ c ∈ start.takeWhile isBlank, isBlank c = true := List.all_eq_true.1 List.all_takeWhile
  rw [← blanks_lineWith_trimStart, ← List.append_nil (_ ++ _)]
  apply Solid.trim_eq _ blanks (by simp)
  constructor
  · cases first : trimStart start with
    | nil => exact ⟨'{', rfl, rfl⟩
    | cons c rest =>
      have notBlank := List.head?_dropWhile_not isBlank start
      rw [← trimStart, first] at notBlank
      exact ⟨c, rfl, by simpa using notBlank⟩
  · simpa [lineWith, List.getLast?_append] using ends

/-- The value of an assignment with a placeholder in its value: only the blanks before it are cut off. -/
theorem assignment_lineWith {tokens : List (List Char)} {key value inside : List Char}
    (solid : Solid (joined tokens)) (put : joined tokens = lineWith start inside after)
    (cut : cutAt '=' start = some (key, value)) :
    assignment .env (tokens.map String.ofList) =
      if (trim key).isEmpty || (trim key).any isBlank then .error (.badKey .env (String.ofList (trim key)))
      else .ok [String.ofList (trim key), String.ofList (lineWith (trimStart value) inside after)] := by
  have spelled : (" ".intercalate (tokens.map String.ofList)).toList = lineWith start inside after := by
    rw [intercalate_map_ofList, put]
  have cut' : cutAt '=' (lineWith start inside after) = some (key, lineWith value inside after) := by
    exact cutAt_append cut _
  have trimmed : trim (lineWith value inside after) = lineWith (trimStart value) inside after := by
    apply trim_lineWith
    have ends := solid.ends
    rw [put] at ends
    simpa [lineWith, List.getLast?_append] using ends
  unfold assignment
  rw [spelled, cut']
  simp only [trimmed]
  split
  next => rfl
  next => rw [if_neg (by simp [lineWith])]

end Values

/-- The script with the placeholders of all its actions resolved by one table. -/
def resolved (table : Variables) (script : Script) : Script where
  steps := script.steps.map fun step => { step with action := step.action.substitute table }

/-- A line that is one with blanks at a name is one without them. -/
theorem oneLine_tight {before lead name trail after : List Char}
    (oneLine : '\n' ∉ lineWith before (lead ++ (name ++ trail)) after) :
    '\n' ∉ lineWith before ([] ++ (name ++ [])) after := by
  simp only [lineWith, List.mem_append, List.mem_cons] at oneLine ⊢
  grind

section Parsing

variable {keyword : Keyword} {before lead name trail after : List Char} {cursor : Cursor}
  {earlier tokens : List (List Char)}

/-- The step of a `RUN` line with a placeholder. -/
theorem parse_run_lineWith (table : Variables) (stands : Stands .run before cursor earlier)
    (padded : Padded lead name trail)
    (oneLine : '\n' ∉ lineWith before (lead ++ (name ++ trail)) after)
    (settled : Variables.Settled (saidAt earlier cursor))
    (read : tokensFrom none ['}', '}'] after = some tokens) :
    (parse (String.ofList (lineWith before (lead ++ (name ++ trail)) after))).map (resolved table) =
      .ok { steps := [{ line := 1, action := .run (String.ofList
        (table.resolve (lineWith (saidAt earlier cursor) name ((joined tokens).drop 2)))) }] } := by
  obtain ⟨space, space', arguments, around, found, put, _⟩ := tokensFrom_lineWith stands padded read
  have written : arguments ≠ [] := by
    rintro rfl
    simp [joined, lineWith] at put
  have said : Action.ofArguments .run (arguments.map String.ofList) =
      .ok (.run (String.ofList (joined arguments))) := by
    rw [Action.ofArguments, if_neg (by simpa using written), spaced_map_ofList]
  have shown : table.resolve (joined arguments) =
      table.resolve (lineWith (saidAt earlier cursor) name ((joined tokens).drop 2)) := by
    rw [put, resolve_lineWith settled around]
  rw [parse_of_tokens (by simpa using oneLine) (by simpa using found), ofTokens_word,
    if_neg (by simpa using written), if_neg (by decide)]
  simp [Except.bind, said, Except.map, resolved, Action.substitute, Variables.substitute_ofList, shown]

/-- The step of an `ENV` line with a placeholder in its value, or the fault of its key. -/
theorem parse_env_lineWith (table : Variables) (stands : Stands .env before cursor earlier)
    (padded : Padded lead name trail)
    (oneLine : '\n' ∉ lineWith before (lead ++ (name ++ trail)) after)
    {key value : List Char} (cut : cutAt '=' (saidAt earlier cursor) = some (key, value))
    (settled : Variables.Settled value)
    (read : tokensFrom none ['}', '}'] after = some tokens) :
    (parse (String.ofList (lineWith before (lead ++ (name ++ trail)) after))).map (resolved table) =
      if (trim key).isEmpty || (trim key).any isBlank then
        .error { fault := .badKey .env (String.ofList (trim key)), line := 1 }
      else .ok { steps := [{ line := 1, action := .env (String.ofList (trim key)) (String.ofList
        (table.resolve (lineWith (trimStart value) name ((joined tokens).drop 2)))) }] } := by
  obtain ⟨space, space', arguments, around, found, put, _⟩ := tokensFrom_lineWith stands padded read
  have written : arguments ≠ [] := by
    rintro rfl
    simp [joined, lineWith] at put
  have solid : Solid (joined arguments) := by
    apply solid_joined written
    intro token member
    exact (isToken_of_tokensFrom .nothing found (List.mem_cons_of_mem _ member)).solid
  rw [parse_of_tokens (by simpa using oneLine) (by simpa using found), ofTokens_word,
    if_neg (by simpa using written), if_pos (by decide), assignment_lineWith solid put cut]
  by_cases bad : ((trim key).isEmpty || (trim key).any isBlank) = true
  · rw [if_pos bad, if_pos bad]
    rfl
  · rw [if_neg bad, if_neg bad]
    simp [Except.bind, Except.map, Action.ofArguments, ofTwo, resolved, Action.substitute,
      Variables.substitute_ofList, resolve_trimStart_lineWith settled around]

end Parsing

/-- Blanks at the name between the braces do not matter to a `RUN` line, nor to an `ENV` line for a placeholder
in its value: with them the line is read or refused just as without them, and the step, once its placeholders
are resolved, is the same under every table. Of the keywords that remain, `gaps_counted` is about those that take a
list of arguments; the key of an assignment may have no blank in it at all. -/
theorem gaps_ignored {keyword : Keyword} {before lead name trail after : List Char} {cursor : Cursor}
    {earlier : List (List Char)} (stands : Stands keyword before cursor earlier)
    (padded : Padded lead name trail)
    (oneLine : '\n' ∉ lineWith before (lead ++ (name ++ trail)) after)
    (whole : keyword = .run ∧ Variables.Settled (saidAt earlier cursor) ∨
      keyword = .env ∧ ∃ key value, cutAt '=' (saidAt earlier cursor) = some (key, value) ∧
        Variables.Settled value)
    (table : Variables) :
    (parse (String.ofList (lineWith before (lead ++ (name ++ trail)) after))).map (resolved table) =
      (parse (String.ofList (lineWith before name after))).map (resolved table) := by
  have oneLine' := oneLine_tight oneLine
  have same : (parse (String.ofList (lineWith before (lead ++ (name ++ trail)) after))).map (resolved table) =
      (parse (String.ofList (lineWith before ([] ++ (name ++ [])) after))).map (resolved table) := by
    cases read : tokensFrom none ['}', '}'] after with
    | none =>
      rw [parse_of_none (by simpa using oneLine) (by simpa using tokensFrom_lineWith_none stands padded read),
        parse_of_none (by simpa using oneLine')
          (by simpa using tokensFrom_lineWith_none stands padded.tight read)]
    | some tokens =>
      rcases whole with ⟨rfl, settled⟩ | ⟨rfl, key, value, cut, settled⟩
      · rw [parse_run_lineWith table stands padded oneLine settled read,
          parse_run_lineWith table stands padded.tight oneLine' settled read]
      · rw [parse_env_lineWith table stands padded oneLine cut settled read,
          parse_env_lineWith table stands padded.tight oneLine' cut settled read]
  simpa using same

theorem gaps_ignored_echo :
    Stands .run "RUN echo ".toList ⟨["RUN".toList, "echo".toList], none, []⟩ ["echo".toList] ∧
    Padded [' '] ['X'] [' ', ' '] ∧
    (parse "RUN echo {{ X  }} y").map (resolved { bindings := [("X", "v")] }) =
      (parse "RUN echo {{X}} y").map (resolved { bindings := [("X", "v")] }) := by
  have stands : Stands .run "RUN echo ".toList ⟨["RUN".toList, "echo".toList], none, []⟩ ["echo".toList] :=
    ⟨rfl, rfl, rfl⟩
  have padded : Padded [' '] ['X'] [' ', ' '] := {
    plain := List.forall_mem_singleton.2 ⟨rfl, rfl, by decide⟩
    unclosed := by decide
    before := blank_space
    behind := List.forall_mem_cons.2 ⟨rfl, blank_space⟩ }
  have settled : Variables.Settled (saidAt ["echo".toList] ⟨["RUN".toList, "echo".toList], none, []⟩) := by
    intro last ends
    rw [Variables.segments_of_none rfl] at ends
    cases ends
    rfl
  have oneLine : '\n' ∉ lineWith "RUN echo ".toList ([' '] ++ (['X'] ++ [' ', ' '])) " y".toList := by
    decide
  exact ⟨stands, padded, gaps_ignored stands padded oneLine (.inl ⟨rfl, settled⟩) _⟩

/-- With blanks at the name, the one target of a `DELETE` becomes three, none of them the variable's value. -/
theorem gaps_split_target :
    (parse "DELETE {{ X }}").map (resolved { bindings := [("X", "/a")] }) =
      .ok { steps := [{ action := .delete ["\x7b\x7b", "X", "\x7d\x7d"], line := 1 }] } ∧
    (parse "DELETE {{X}}").map (resolved { bindings := [("X", "/a")] }) =
      .ok { steps := [{ action := .delete ["/a"], line := 1 }] } := by
  have gapped : parse "DELETE {{ X }}" =
      .ok { steps := [{ action := .delete ["\x7b\x7b", "X", "\x7d\x7d"], line := 1 }] } := rfl
  have tight : parse "DELETE {{X}}" = .ok { steps := [{ action := .delete ["{{X}}"], line := 1 }] } := rfl
  rw [gapped, tight]
  constructor
  · cbv
  · cbv

/-- How many arguments an action was made of, for the keywords that keep their arguments apart. -/
def Action.width : Action → Nat
  | .connect _ | .cd _ => 1
  | .move .. | .copy .. => 2
  | .cmd _ arguments => arguments.length + 1
  | .delete targets => targets.length
  | .upload sources _ | .download sources _ => sources.length + 1
  | .run _ | .var .. | .env .. => 0

theorem Action.width_substitute (table : Variables) (action : Action) :
    (action.substitute table).width = action.width := by
  cases action <;> simp [Action.substitute, Action.width]

section Widths

variable {keyword : Keyword} {arguments : List String} {action : Action}

theorem ofOne_eq_ok {make : String → Except Fault Action}
    (made : ofOne keyword arguments make = .ok action) :
    ∃ argument, arguments = [argument] ∧ make argument = .ok action := by
  unfold ofOne at made
  split at made
  next argument => exact ⟨argument, rfl, made⟩
  next => cases made

theorem ofTwo_eq_ok {make : String → String → Except Fault Action}
    (made : ofTwo keyword arguments make = .ok action) :
    ∃ first second, arguments = [first, second] ∧ make first second = .ok action := by
  unfold ofTwo at made
  split at made
  next first second => exact ⟨first, second, rfl, made⟩
  next => cases made

theorem ofSources_eq_ok {make : List String → String → Action}
    (made : ofSources keyword arguments make = .ok action) :
    ∃ sources destination, sources ≠ [] ∧ arguments = sources ++ [destination] ∧
      make sources destination = action := by
  unfold ofSources at made
  split at made
  next source more destination first last =>
    refine ⟨source :: more, destination, List.cons_ne_nil _ _, ?_, Except.ok.inj made⟩
    obtain ⟨sources, rfl⟩ := List.getLast?_eq_some_iff.1 last
    rw [List.dropLast_concat] at first
    rw [first]
  next => cases made

/-- An action of a keyword that keeps its arguments apart is as wide as they are many. -/
theorem Action.width_of_ofArguments (listed : keyword.isAssignment = false) (apart : keyword ≠ .run)
    (made : Action.ofArguments keyword arguments = .ok action) : action.width = arguments.length := by
  cases keyword with
  | var | env => cases listed
  | run => exact absurd rfl apart
  | connect =>
    obtain ⟨argument, rfl, one⟩ := ofOne_eq_ok made
    cases login : Login.ofText argument with
    | error fault => simp [login, Except.map] at one
    | ok value =>
      rw [login] at one
      cases one
      rfl
  | cd =>
    obtain ⟨argument, rfl, one⟩ := ofOne_eq_ok made
    cases one
    rfl
  | cmd =>
    cases arguments with
    | nil => cases made
    | cons program rest =>
      cases made
      simp [Action.width]
  | move | copy =>
    obtain ⟨first, second, rfl, two⟩ := ofTwo_eq_ok made
    cases two
    rfl
  | delete =>
    rw [Action.ofArguments] at made
    split at made
    next => cases made
    next =>
      cases made
      rfl
  | upload | download =>
    obtain ⟨sources, destination, _, rfl, rfl⟩ := ofSources_eq_ok made
    simp [Action.width]

/-- What such a line is read as, and resolved to, is one step that is as wide as its arguments are many. -/
theorem width_of_parse {source : String} {tokens : List (List Char)} {script : Script} {table : Variables}
    (listed : keyword.isAssignment = false) (apart : keyword ≠ .run) (oneLine : '\n' ∉ source.toList)
    (read : tokensFrom none [] source.toList = some (keyword.word.toList :: tokens))
    (parsed : (parse source).map (resolved table) = .ok script) :
    ∃ action, script = { steps := [{ action, line := 1 }] } ∧ action.width = tokens.length := by
  rw [parse_of_tokens oneLine read, ofTokens_word] at parsed
  split at parsed
  next fault _ => cases parsed
  next action made =>
    cases parsed
    refine ⟨action.substitute table, rfl, ?_⟩
    rw [if_neg (show ¬ keyword.isAssignment = true by simp [listed])] at made
    split at made
    next => cases made
    next =>
      rw [Action.width_substitute, Action.width_of_ofArguments listed apart made, List.length_map]

end Widths

/-- Blanks at the name between the braces do matter to every other keyword that takes a list of arguments:
the line is refused or makes another step, whatever the variables hold. Of all keywords but `VAR`, these are the ones
that `gaps_ignored` leaves out. -/
theorem gaps_counted {keyword : Keyword} {before lead name trail after : List Char} {cursor : Cursor}
    {earlier : List (List Char)} {script : Script} (stands : Stands keyword before cursor earlier)
    (padded : Padded lead name trail)
    (oneLine : '\n' ∉ lineWith before (lead ++ (name ++ trail)) after)
    (listed : keyword.isAssignment = false) (apart : keyword ≠ .run) (gaps : lead ++ trail ≠ [])
    (parsed : parse (String.ofList (lineWith before name after)) = .ok script) (table : Variables) :
    (parse (String.ofList (lineWith before (lead ++ (name ++ trail)) after))).map (resolved table) ≠
      .ok (resolved table script) := by
  intro same
  have oneLine' := oneLine_tight oneLine
  cases read : tokensFrom none ['}', '}'] after with
  | none =>
    rw [parse_of_none (by simpa using oneLine')
      (by simpa using tokensFrom_lineWith_none stands padded.tight read)] at parsed
    cases parsed
  | some tokens =>
    obtain ⟨_, _, arguments, -, gapped, -, -, more⟩ := tokensFrom_lineWith stands padded read
    obtain ⟨_, _, arguments', -, tight, -, least, exactly⟩ := tokensFrom_lineWith stands padded.tight read
    have plainly : (parse (String.ofList (lineWith before ([] ++ (name ++ [])) after))).map (resolved table) =
        .ok (resolved table script) := by
      rw [List.nil_append, List.append_nil, parsed]
      rfl
    obtain ⟨action, made, width⟩ :=
      width_of_parse listed apart (by simpa using oneLine) (by simpa using gapped) same
    obtain ⟨action', made', width'⟩ :=
      width_of_parse listed apart (by simpa using oneLine') (by simpa using tight) plainly
    have wider := more.2 gaps
    have asMany : ¬ earlier.length + tokens.length < arguments'.length := fun less => exactly.1 less rfl
    rw [made] at made'
    cases made'
    omega

end Rollout.Script

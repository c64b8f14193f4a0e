import Rollout.Proofs.Reading

/-!
# Commands in parentheses

What a `CMD` or a `RUN` line takes as its arguments can also be written between the parentheses of a
variable's source. The text then has a token before it and a character behind it that are not its own, its
tokens are put together by single spaces, cut at an equals sign and trimmed. All this leaves the text's own
tokens, and taken apart once more they are the program and the arguments that a `CMD` line starts.
-/

namespace Rollout.Script

open Rollout.Text Statement

namespace Form

theorem opening_reverse_ne_nil (form : Form) : form.opening.toList.reverse ≠ [] := by
  obtain side | side := form <;> cases side <;> decide

theorem newline_not_mem_opening (form : Form) : '\n' ∉ form.opening.toList := by
  obtain side | side := form <;> cases side <;> decide

theorem solid_closed (form : Form) (body : List Char) :
    Solid (form.opening.toList ++ body ++ [')']) := by
  constructor
  · obtain side | side := form <;> cases side <;> exact ⟨_, rfl, rfl⟩
  · exact ⟨')', by simp, rfl⟩

end Form

namespace Statement

variable {text : List Char} {tokens : List (List Char)}

theorem exists_cursor (uncommented : hasComment text = false) :
    ∃ cursor, scan none [] text = some cursor := by
  unfold hasComment at uncommented
  exact Option.isSome_iff_exists.1 (by simpa using uncommented)

theorem head?_ne_of_uncommented (uncommented : hasComment text = false) : text.head? ≠ some '#' := by
  intro sharp
  obtain ⟨rest, rfl⟩ := List.head?_eq_some_iff.1 sharp
  cases uncommented

/-- A closing parenthesis ends the last token, or is a token of its own. -/
theorem read_closed (uncommented : hasComment text = false) (read : tokensFrom none [] text = some tokens)
    (written : tokens ≠ []) :
    ∃ trail more, tokensFrom none [] (text ++ [')']) = some more ∧ more ≠ [] ∧
      (∀ c ∈ trail, isBlank c = true) ∧ joined more = joined tokens ++ trail ++ [')'] := by
  obtain ⟨⟨behind, quote, token⟩, reached⟩ := exists_cursor uncommented
  have atEnd := tokensFrom_append reached (show ([] : List Char).head? ≠ some '#' by simp)
  rw [List.append_nil, read] at atEnd
  cases quote with
  | some quote => cases atEnd
  | none =>
    obtain rfl : tokens = behind ++ endToken token := by simpa [tokensFrom] using atEnd
    have further : tokensFrom none [] (text ++ [')']) = some (behind ++ [token.reverse ++ [')']]) := by
      rw [tokensFrom_append reached (by simp)]
      simp [tokensFrom, isQuote, isBlank, endToken]
    by_cases begun : token = []
    · subst begun
      refine ⟨[' '], _, further, by simp, blank_space, ?_⟩
      rcases List.eq_nil_or_concat behind with rfl | ⟨before, last, rfl⟩
      · exact absurd rfl written
      · rw [List.concat_eq_append, joined_concat]
        simp [endToken, joined_concat]
    · refine ⟨[], _, further, by simp, by simp, ?_⟩
      simp [endToken_of_ne_nil begun, joined_concat]

/-- A character that is not blank and begins no comment belongs to a token. -/
theorem tokensFrom_begins {c : Char} (rest : List Char) (notBlank : isBlank c = false)
    (notSharp : c ≠ '#') :
    ∃ quote token more, token ≠ [] ∧
      ∀ base, tokensFrom none base (c :: rest) = tokensFrom quote (token ++ base) more := by
  by_cases escaped : c = '\\' ∧ rest.head? = some '#'
  · obtain ⟨rfl, sharp⟩ := escaped
    obtain ⟨more, rfl⟩ := List.head?_eq_some_iff.1 sharp
    exact ⟨none, ['#'], more, by simp, fun _ => rfl⟩
  · have unescaped : c = '\\' → rest.head? ≠ some '#' := fun same sharp => escaped ⟨same, sharp⟩
    refine ⟨if isQuote c then some c else none, [c], rest, by simp, fun base => ?_⟩
    rw [tokensFrom_cons unescaped]
    cases quotes : isQuote c <;> simp [notSharp, notBlank]

/-- What stands right before a text joins its first token, or is a token of its own. -/
theorem read_opened {base : List Char} (begun : base ≠ []) (uncommented : text.head? ≠ some '#')
    (read : tokensFrom none [] text = some tokens) (written : tokens ≠ []) :
    ∃ lead more, tokensFrom none base text = some more ∧ more ≠ [] ∧
      (∀ c ∈ lead, isBlank c = true) ∧ joined more = base.reverse ++ lead ++ joined tokens := by
  cases text with
  | nil =>
    cases read
    exact absurd rfl written
  | cons c rest =>
    cases blank : isBlank c with
    | true =>
      have alone : tokensFrom none [] rest = some tokens := by
        rw [← read, tokensFrom_blank blank]
        simp [endToken]
      refine ⟨[' '], base.reverse :: tokens, ?_, by simp, blank_space, ?_⟩
      · rw [tokensFrom_blank blank, alone, endToken_of_ne_nil begun]
        rfl
      · simp [joined_cons _ written]
    | false =>
      obtain ⟨quote, token, more, ne, reads⟩ :=
        tokensFrom_begins rest blank (by simpa using uncommented)
      have alone : tokensFrom quote token more = some tokens := by
        rw [← read, reads, List.append_nil]
      have together : tokensFrom none base (c :: rest) = some (tokens.modifyHead (base.reverse ++ ·)) := by
        rw [reads, tokensFrom_after quote ne, alone]
        rfl
      refine ⟨[], _, together, by simpa using written, by simp, ?_⟩
      rw [joined_modifyHead _ written, List.append_nil]

/-- What reading makes of a text between the parentheses of a form. -/
theorem tokensFrom_wrapped (form : Form) (text : List Char) :
    tokensFrom none [] ("VAR X = ".toList ++ form.opening.toList ++ text) =
      (tokensFrom none form.opening.toList.reverse text).map (["VAR".toList, ['X'], ['=']] ++ ·) := by
  obtain side | side := form
  all_goals
    cases side
    all_goals
      change Option.map _ (Option.map _ (Option.map _ _)) = _
      rw [Option.map_map, Option.map_map]
      rfl

/-- An assignment to a key is its value, whatever blanks are around the equals sign. -/
theorem assignment_tokens {tokens : List (List Char)} (written : tokens ≠ [])
    (solid : Solid (joined tokens)) :
    assignment .var ((['X'] :: ['='] :: tokens).map String.ofList) =
      .ok ["X", String.ofList (joined tokens)] := by
  have spelled : (" ".intercalate ((['X'] :: ['='] :: tokens).map String.ofList)).toList =
      'X' :: ' ' :: '=' :: ' ' :: joined tokens := by
    rw [intercalate_map_ofList, joined_cons _ (by simp), joined_cons _ written]
    rfl
  have value : trim (' ' :: joined tokens) = joined tokens := by
    have padded : trim ([' '] ++ joined tokens ++ []) = joined tokens :=
      solid.trim_eq blank_space (by simp)
    simpa using padded
  unfold assignment
  rw [spelled]
  simp [cutAt, value, solid.ne_nil, show trim ['X', ' '] = ['X'] from rfl,
    show isBlank 'X' = false from rfl]

/-- Between the parentheses of a form a text keeps its tokens, with blanks at its two ends at most. -/
theorem read_wrapped (form : Form) (uncommented : hasComment text = false)
    (read : tokensFrom none [] text = some tokens) (written : tokens ≠ []) :
    ∃ lead trail all, (∀ c ∈ lead, isBlank c = true) ∧ (∀ c ∈ trail, isBlank c = true) ∧ all ≠ [] ∧
      tokensFrom none form.opening.toList.reverse (text ++ [')']) = some all ∧
      joined all = form.opening.toList ++ (lead ++ joined tokens ++ trail) ++ [')'] := by
  obtain ⟨trail, closed, readClosed, closedSome, blankTrail, joinedClosed⟩ :=
    read_closed uncommented read written
  have head : (text ++ [')']).head? ≠ some '#' := by
    have first := head?_ne_of_uncommented uncommented
    cases text with
    | nil => decide
    | cons => exact first
  obtain ⟨lead, all, readAll, allSome, blankLead, joinedAll⟩ :=
    read_opened form.opening_reverse_ne_nil head readClosed closedSome
  refine ⟨lead, trail, all, blankLead, blankTrail, allSome, readAll, ?_⟩
  rw [joinedAll, joinedClosed, List.reverse_reverse]
  simp only [List.append_assoc]

/-- The statement that assigns a text between the parentheses of a form. -/
theorem ofSource_wrapped (form : Form) {text : String} (oneLine : '\n' ∉ text.toList)
    (uncommented : hasComment text.toList = false)
    (read : tokensFrom none [] text.toList = some tokens) (written : tokens ≠ []) :
    ∃ lead trail, (∀ c ∈ lead, isBlank c = true) ∧ (∀ c ∈ trail, isBlank c = true) ∧
      Statement.ofSource ("VAR X = " ++ form.opening ++ text ++ ")") =
        .ok [{ keyword := .var, line := 1, arguments :=
          ["X", String.ofList (form.opening.toList ++ (lead ++ joined tokens ++ trail) ++ [')'])] }] := by
  obtain ⟨lead, trail, all, blankLead, blankTrail, allSome, readAll, joinedAll⟩ :=
    read_wrapped form uncommented read written
  refine ⟨lead, trail, blankLead, blankTrail, ?_⟩
  have line : ("VAR X = " ++ form.opening ++ text ++ ")").toList =
      "VAR X = ".toList ++ form.opening.toList ++ (text.toList ++ [')']) := by simp
  have readLine : tokensFrom none [] ("VAR X = " ++ form.opening ++ text ++ ")").toList =
      some (Keyword.var.word.toList :: ['X'] :: ['='] :: all) := by
    rw [line, tokensFrom_wrapped, readAll]
    rfl
  have solid : Solid (joined all) := joinedAll ▸ form.solid_closed _
  have stated : ofLine ("VAR X = " ++ form.opening ++ text ++ ")").toList =
      .ok (some (.var, ["X", String.ofList (joined all)])) := by
    rw [ofLine_of_tokens readLine, ofTokens_word, if_neg (by simp),
      if_pos (show Keyword.var.isAssignment = true from rfl), assignment_tokens allSome solid]
    rfl
  have oneLine' : '\n' ∉ ("VAR X = " ++ form.opening ++ text ++ ")").toList := by
    simp [oneLine, form.newline_not_mem_opening]
  rw [ofSource_line (by simp) oneLine', stated, joinedAll]

end Statement

/-- What stands between the parentheses of a form is its source's text, blanks at the ends apart. -/
theorem Source.ofText_wrapped (form : Form) (body : List Char) :
    Source.ofText (String.ofList (form.opening.toList ++ body ++ [')'])) = form.source (trim body) := by
  have found : Form.all.find? (fun other => other.opening.toList.isPrefixOf
      (form.opening.toList ++ body ++ [')'])) = some form := by
    obtain side | side := form <;> cases side <;> rfl
  have inside : ((form.opening.toList ++ body ++ [')']).drop form.opening.length).dropLast = body := by
    rw [List.append_assoc, ← String.length_toList, List.drop_left, List.dropLast_concat]
  rw [Source.ofText, String.toList_ofList, found]
  simp only [inside, List.getLast?_concat, if_true]

/-- The script that assigns a text between the parentheses of a form has the source that the form makes of
the text's tokens. -/
theorem parse_wrapped (form : Form) {text : String} {tokens : List (List Char)} {source : Source}
    (oneLine : '\n' ∉ text.toList) (uncommented : hasComment text.toList = false)
    (read : tokensFrom none [] text.toList = some tokens) (written : tokens ≠ [])
    (made : form.source (joined tokens) = .ok source) :
    parse ("VAR X = " ++ form.opening ++ text ++ ")") =
      .ok { steps := [{ action := .var "X" source, line := 1 }] } := by
  have solid : Solid (joined tokens) :=
    solid_joined written fun _ member => (isToken_of_tokensFrom .nothing read member).solid
  obtain ⟨lead, trail, blankLead, blankTrail, assigned⟩ :=
    ofSource_wrapped form oneLine uncommented read written
  rw [parse_statement assigned, Action.ofArguments, ofTwo, Source.ofText_wrapped,
    solid.trim_eq blankLead blankTrail, made]
  rfl

/-! ### Taking quotes off -/

section Unquoting

variable {quote : Option Char} {token : List Char}

/-- The quotes of a token under way are taken off before the rest is read. -/
theorem unquote_append (underway : Underway quote token) (rest : List Char) :
    unquote none (token.reverse ++ rest) = unquote none token.reverse ++ unquote quote rest := by
  induction underway generalizing rest with
  | nothing => rfl
  | plain notQuote _ _ ih => simp [ih, unquote, notQuote]
  | opens quotes _ ih => simp [ih, unquote, quotes]
  | within different _ ih => simp [ih, unquote, different]
  | closes _ ih => simp [ih, unquote]

/-- The word that a splitter has collected of a token under way. -/
def wordOf (token : List Char) : Option (List Char) :=
  if token.isEmpty then none else some (unquote none token.reverse).reverse

theorem wordOf_of_ne_nil (begun : token ≠ []) :
    wordOf token = some (unquote none token.reverse).reverse := by
  simp [wordOf, begun]

theorem getD_wordOf (token : List Char) : (wordOf token).getD [] = (unquote none token.reverse).reverse := by
  cases token with
  | nil => rfl
  | cons => rfl

/-- The splitter goes through a token under way as the reader does. -/
theorem unquotedWords_append (underway : Underway quote token) (rest : List Char) :
    unquotedWords none none (token.reverse ++ rest) = unquotedWords quote (wordOf token) rest := by
  have read {quote : Option Char} {c : Char} {token : List Char} (before : Underway quote token) :
      wordOf (c :: token) = some (unquote none token.reverse ++ unquote quote [c]).reverse := by
    rw [wordOf_of_ne_nil (List.cons_ne_nil c token), List.reverse_cons, unquote_append before]
  induction underway generalizing rest with
  | nothing => rfl
  | plain notQuote notBlank before ih =>
    simp [ih, read before, unquotedWords, notQuote, notBlank, getD_wordOf, unquote]
  | opens quotes before ih =>
    simp [ih, read before, unquotedWords, quotes, getD_wordOf, unquote]
  | within different before ih =>
    simp [ih, read before, unquotedWords, different, getD_wordOf, unquote]
  | @closes quote token before ih =>
    have begun : token ≠ [] := by
      rintro rfl
      cases before
    simp [ih, read before, unquotedWords, wordOf_of_ne_nil begun, unquote]

/-- Put together by single spaces and split again, tokens are what they are without their quotes. -/
theorem unquotedWords_joined {tokens : List (List Char)} (whole : ∀ token ∈ tokens, IsToken token) :
    unquotedWords none none (joined tokens) = tokens.map (unquote none) := by
  induction tokens with
  | nil => rfl
  | cons token rest ih =>
    obtain ⟨written, underway⟩ := whole token List.mem_cons_self
    have alone (more : List Char) :
        unquotedWords none none (token ++ more) =
          unquotedWords none (some (unquote none token).reverse) more := by
      have read := unquotedWords_append underway more
      rwa [wordOf_of_ne_nil (by simpa using written), List.reverse_reverse] at read
    by_cases more : rest = []
    · subst more
      have read := alone []
      simpa [joined_singleton, unquotedWords] using read
    · rw [joined_cons token more, alone]
      have later := ih fun token member => whole token (List.mem_cons_of_mem _ member)
      simp [unquotedWords, isQuote, isBlank, later]

end Unquoting

/-- A text without comment that gives a `CMD` line its arguments gives them between the parentheses of a
variable's source as well: the command that is captured there has, word for word, the program and the
arguments that the line starts. -/
theorem local_commands_read_alike (text : String) {arguments : List String}
    (oneLine : '\n' ∉ text.toList) (uncommented : hasComment text.toList = false)
    (stated : Statement.ofSource ("CMD " ++ text) = .ok [{ keyword := .cmd, arguments, line := 1 }]) :
    ∃ program rest,
      parse ("CMD " ++ text) = .ok { steps := [{ action := .cmd program rest, line := 1 }] } ∧
      parse ("VAR X = CMD(" ++ text ++ ")") =
        .ok { steps := [{ action := .var "X" (.command .here (program :: rest)), line := 1 }] } := by
  obtain ⟨tokens, read, written, rfl⟩ := tokens_of_ofSource .cmd rfl oneLine stated
  have whole : ∀ token ∈ tokens, IsToken token := fun _ => isToken_of_tokensFrom .nothing read
  have filled : joined tokens ≠ [] :=
    (solid_joined written fun token member => (whole token member).solid).ne_nil
  have made : (Form.command .here).source (joined tokens) =
      .ok (.command .here (tokens.map fun token => String.ofList (unquote none token))) := by
    simp [Form.source, unquotedWords_joined whole, filled, Function.comp_def]
  have captured := parse_wrapped (.command .here) oneLine uncommented read written made
  have started := parse_statement stated
  obtain ⟨token, more, rfl⟩ := List.exists_cons_of_ne_nil written
  refine ⟨_, _, ?_, captured⟩
  simp [started, Action.ofArguments, Function.comp_def]

theorem local_commands_read_alike_quoted :
    Statement.ofSource "CMD  say 'it''s' \"a  (b)\" '' x#y \\#" =
      .ok [⟨.cmd, ["say", "'it''s'", "\"a  (b)\"", "''", "x#y", "#"], 1⟩] ∧
    ∃ program rest,
      parse "CMD  say 'it''s' \"a  (b)\" '' x#y \\#" = .ok { steps := [⟨.cmd program rest, 1⟩] } ∧
      parse "VAR X = CMD( say 'it''s' \"a  (b)\" '' x#y \\#)" =
        .ok { steps := [⟨.var "X" (.command .here (program :: rest)), 1⟩] } :=
  ⟨rfl, local_commands_read_alike " say 'it''s' \"a  (b)\" '' x#y \\#" (by decide) rfl rfl⟩

end Rollout.Script

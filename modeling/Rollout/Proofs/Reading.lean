import Rollout.Script.Reader

/-!
# Reading a line piece by piece

A line can be read up to any place and on from there: what matters of the first piece is the tokens behind
the place, the quote that is open there and the token under way. Tokens are put together again by single
spaces in assignments and remote commands, and there a token is recognised by what the reader makes sure of:
it begins and ends with a character that is not blank, and blanks in it stand inside quotes.
-/

namespace Rollout

namespace Text

/-- A text without line feeds is one line. -/
theorem lines_eq_singleton {text : List Char} (written : text ≠ []) (oneLine : '\n' ∉ text) :
    lines text = [text] := by
  induction text with
  | nil => exact absurd rfl written
  | cons c rest ih =>
    have different : c ≠ '\n' := fun same => oneLine (by simp [same])
    have later : '\n' ∉ rest := fun member => oneLine (List.mem_cons_of_mem c member)
    rw [lines.eq_3 c rest (fun more _ same => later (by simp [same])), if_neg different]
    cases rest with
    | nil => rfl
    | cons next more => rw [ih (List.cons_ne_nil next more) later]

/-- A text that begins and ends with characters that are not blank. -/
structure Solid (text : List Char) : Prop where
  begins : ∃ c, text.head? = some c ∧ isBlank c = false
  ends : ∃ c, text.getLast? = some c ∧ isBlank c = false

theorem Solid.ne_nil {text : List Char} (solid : Solid text) : text ≠ [] := by
  obtain ⟨c, begins, _⟩ := solid.begins
  rintro rfl
  cases begins

theorem dropWhile_blanks {lead text : List Char} (blank : ∀ c ∈ lead, isBlank c = true)
    (begins : ∃ c, text.head? = some c ∧ isBlank c = false) :
    (lead ++ text).dropWhile isBlank = text := by
  obtain ⟨c, first, solid⟩ := begins
  obtain ⟨rest, rfl⟩ := List.head?_eq_some_iff.1 first
  rw [List.dropWhile_append_of_pos blank, List.dropWhile_cons_of_neg (by simp [solid])]

/-- Blanks around a solid text are cut off, and nothing else. -/
theorem Solid.trim_eq {lead text trail : List Char} (solid : Solid text)
    (before : ∀ c ∈ lead, isBlank c = true) (after : ∀ c ∈ trail, isBlank c = true) :
    trim (lead ++ text ++ trail) = text := by
  have started : trimStart (lead ++ (text ++ trail)) = text ++ trail := by
    apply dropWhile_blanks before
    obtain ⟨c, first, notBlank⟩ := solid.begins
    exact ⟨c, by simp [List.head?_append, first], notBlank⟩
  unfold trim trimEnd
  rw [List.append_assoc, started, List.reverse_append, dropWhile_blanks, List.reverse_reverse]
  · simpa using after
  · simpa using solid.ends

/-- Blanks around a text without blanks are cut off, even if nothing is left. -/
theorem trim_of_forall {lead text trail : List Char} (solid : ∀ c ∈ text, isBlank c = false)
    (before : ∀ c ∈ lead, isBlank c = true) (after : ∀ c ∈ trail, isBlank c = true) :
    trim (lead ++ text ++ trail) = text := by
  by_cases empty : text = []
  · subst empty
    have blank : ∀ c ∈ lead ++ [] ++ trail, isBlank c = true := by
      intro c member
      rcases List.mem_append.1 member with first | last
      · exact before c (by simpa using first)
      · exact after c last
    have gone : trimStart (lead ++ [] ++ trail ++ []) = [] := List.dropWhile_append_of_pos blank
    rw [List.append_nil] at gone
    rw [trim, gone]
    rfl
  · apply Solid.trim_eq _ before after
    constructor
    · exact ⟨text.head empty, List.head?_eq_some_head empty, solid _ (List.head_mem empty)⟩
    · exact ⟨text.getLast empty, List.getLast?_eq_some_getLast empty, solid _ (List.getLast_mem empty)⟩

end Text

namespace Script.Statement

open Rollout.Text

theorem blank_space : ∀ c ∈ [' '], isBlank c = true :=
  List.forall_mem_singleton.2 rfl

theorem isBlank_of_isQuote {c : Char} (quotes : isQuote c = true) : isBlank c = false := by
  simp only [isQuote, Bool.or_eq_true, decide_eq_true_eq] at quotes
  rcases quotes with rfl | rfl <;> rfl

/-- Where reading has got to in a line: the tokens behind it, the open quote, and the characters of the
token under way, last first. -/
structure Cursor where
  tokens : List (List Char)
  quote : Option Char
  token : List Char

def Cursor.behind (tokens : List (List Char)) (cursor : Cursor) : Cursor :=
  { cursor with tokens := tokens ++ cursor.tokens }

/-- Where a text leads, read inside the given open quote and after the characters of the token under way:
nowhere if a comment begins in it. -/
def scan : Option Char → List Char → List Char → Option Cursor
  | quote, token, [] => some ⟨[], quote, token⟩
  | some quote, token, c :: rest =>
    scan (if c = quote then none else some quote) (c :: token) rest
  | none, token, '\\' :: '#' :: rest => scan none ('#' :: token) rest
  | none, token, c :: rest =>
    if c = '#' && token.isEmpty then none
    else if isQuote c then scan (some c) (c :: token) rest
    else if isBlank c then (scan none [] rest).map (·.behind (endToken token))
    else scan none (c :: token) rest

/-- Whether a number sign outside quotes begins a token of the text, and with it a comment. -/
def hasComment (text : List Char) : Bool :=
  (scan none [] text).isNone

/-- How reading goes on outside quotes where no number sign is escaped. -/
theorem tokensFrom_cons {c : Char} {token rest : List Char}
    (unescaped : c = '\\' → rest.head? ≠ some '#') :
    tokensFrom none token (c :: rest) =
      if c = '#' && token.isEmpty then some []
      else if isQuote c then tokensFrom (some c) (c :: token) rest
      else if isBlank c then (tokensFrom none [] rest).map (endToken token ++ ·)
      else tokensFrom none (c :: token) rest := by
  rw [tokensFrom]
  intro more backslash sharp
  exact unescaped backslash (by rw [sharp]; rfl)

/-- Outside quotes a blank ends the token under way. -/
theorem tokensFrom_blank {c : Char} {token rest : List Char} (blank : isBlank c = true) :
    tokensFrom none token (c :: rest) = (tokensFrom none [] rest).map (endToken token ++ ·) := by
  have different {d : Char} (notBlank : isBlank d = false) : c ≠ d := by
    rintro rfl
    simp [notBlank] at blank
  have notQuote : isQuote c = false := by
    cases quotes : isQuote c with
    | false => rfl
    | true => simp [isBlank_of_isQuote quotes] at blank
  rw [tokensFrom_cons fun same => absurd same (different rfl)]
  simp [different (d := '#') rfl, notQuote, blank]

/-- Blanks end the token under way. -/
theorem tokensFrom_gap {gap : List Char} (blank : ∀ c ∈ gap, isBlank c = true) (apart : gap ≠ [])
    (token rest : List Char) :
    tokensFrom none token (gap ++ rest) = (tokensFrom none [] rest).map (endToken token ++ ·) := by
  induction gap generalizing token with
  | nil => exact absurd rfl apart
  | cons c more ih =>
    rw [List.cons_append, tokensFrom_blank (blank c List.mem_cons_self)]
    by_cases last : more = []
    · rw [last, List.nil_append]
    · rw [ih (fun d member => blank d (List.mem_cons_of_mem c member)) last]
      simp [endToken]

/-- A text can be read up to any place and on from there, unless the cut takes a number sign from the
backslash before it. -/
theorem tokensFrom_append {quote : Option Char} {token text rest : List Char} {cursor : Cursor}
    (reached : scan quote token text = some cursor) (next : rest.head? ≠ some '#') :
    tokensFrom quote token (text ++ rest) =
      (tokensFrom cursor.quote cursor.token rest).map (cursor.tokens ++ ·) := by
  have still {c : Char} {more : List Char}
      (unescaped : ∀ later, c = '\\' → more = '#' :: later → False) :
      c = '\\' → (more ++ rest).head? ≠ some '#' := by
    cases more with
    | nil => exact fun _ => next
    | cons d more => exact fun backslash sharp => unescaped more backslash (by simpa using sharp)
  fun_induction scan quote token text generalizing cursor with
  | case1 quote token =>
    cases reached
    simp
  | case2 quote token c more ih => exact ih reached
  | case3 token more ih => exact ih reached
  | case4 => cases reached
  | case5 token c more unescaped notSharp quotes ih =>
    rw [List.cons_append, tokensFrom_cons (still unescaped), if_neg notSharp, if_pos quotes]
    exact ih reached
  | case6 token c more unescaped notSharp notQuote blank ih =>
    obtain ⟨inner, found, rfl⟩ := Option.map_eq_some_iff.1 reached
    rw [List.cons_append, tokensFrom_cons (still unescaped), if_neg notSharp, if_neg notQuote,
      if_pos blank, ih found, Option.map_map]
    congr 1
    funext tokens
    simp [Cursor.behind]
  | case7 token c more unescaped notSharp notQuote notBlank ih =>
    rw [List.cons_append, tokensFrom_cons (still unescaped), if_neg notSharp, if_neg notQuote,
      if_neg notBlank]
    exact ih reached

theorem endToken_of_ne_nil {token : List Char} (begun : token ≠ []) :
    endToken token = [token.reverse] := by
  cases token with
  | nil => exact absurd rfl begun
  | cons => rfl

/-- What stands before a token that has begun is put before it, and changes nothing else. -/
theorem tokensFrom_after (quote : Option Char) {token : List Char} (begun : token ≠ [])
    (base text : List Char) :
    tokensFrom quote (token ++ base) text =
      (tokensFrom quote token text).map (List.modifyHead (base.reverse ++ ·)) := by
  fun_induction tokensFrom quote token text with
  | case1 token =>
    rw [tokensFrom, endToken_of_ne_nil begun, endToken_of_ne_nil (by simp [begun])]
    simp
  | case2 => rfl
  | case3 quote token c rest ih => exact ih (List.cons_ne_nil c token)
  | case4 token rest ih => exact ih (List.cons_ne_nil '#' token)
  | case5 token c rest unescaped sharp => simp [begun] at sharp
  | case6 token c rest unescaped notSharp quotes ih =>
    rw [tokensFrom.eq_5 _ _ _ unescaped, if_neg (by simp [begun]), if_pos quotes]
    exact ih (List.cons_ne_nil c token)
  | case7 token c rest unescaped notSharp notQuote blank ih =>
    rw [tokensFrom.eq_5 _ _ _ unescaped, if_neg (by simp [begun]), if_neg notQuote, if_pos blank,
      endToken_of_ne_nil begun, endToken_of_ne_nil (by simp [begun]), Option.map_map]
    congr 1
    funext tokens
    simp
  | case8 token c rest unescaped notSharp notQuote notBlank ih =>
    rw [tokensFrom.eq_5 _ _ _ unescaped, if_neg (by simp [begun]), if_neg notQuote, if_neg notBlank]
    exact ih (List.cons_ne_nil c token)

/-- What the characters of a token under way, last first, can be when the given quote is open. -/
inductive Underway : Option Char → List Char → Prop
  | nothing : Underway none []
  | plain {c : Char} {token : List Char} (notQuote : isQuote c = false) (notBlank : isBlank c = false)
      (before : Underway none token) : Underway none (c :: token)
  | opens {c : Char} {token : List Char} (quotes : isQuote c = true) (before : Underway none token) :
      Underway (some c) (c :: token)
  | within {quote c : Char} {token : List Char} (different : c ≠ quote)
      (before : Underway (some quote) token) : Underway (some quote) (c :: token)
  | closes {quote : Char} {token : List Char} (before : Underway (some quote) token) :
      Underway none (quote :: token)

/-- Inside an open quote every character but that quote goes on, and outside no character does but one
that is no quote and not blank. -/
theorem Underway.read {quote c : Char} {token : List Char} (before : Underway (some quote) token) :
    Underway (if c = quote then none else some quote) (c :: token) := by
  split
  next same => exact same ▸ .closes before
  next different => exact .within different before

theorem Underway.isQuote {quote : Char} {token : List Char} (underway : Underway (some quote) token) :
    isQuote quote = true := by
  generalize h : some quote = opened at underway
  induction underway with
  | nothing => cases h
  | plain => cases h
  | opens quotes => cases h; exact quotes
  | within _ _ ih => exact ih h
  | closes => cases h

/-- A token as the reader makes it: not empty, all its quotes closed, and blanks only inside them. -/
def IsToken (token : List Char) : Prop :=
  token ≠ [] ∧ Underway none token.reverse

theorem isToken_of_mem_endToken {token found : List Char} (underway : Underway none token)
    (member : found ∈ endToken token) : IsToken found := by
  cases token with
  | nil => cases member
  | cons c rest =>
    obtain rfl := List.mem_singleton.1 member
    exact ⟨by simp, by simpa using underway⟩

/-- The reader makes tokens. -/
theorem isToken_of_tokensFrom {quote : Option Char} {token text found : List Char}
    {tokens : List (List Char)} (underway : Underway quote token)
    (read : tokensFrom quote token text = some tokens) (member : found ∈ tokens) : IsToken found := by
  fun_induction tokensFrom quote token text generalizing tokens with
  | case1 token =>
    cases read
    exact isToken_of_mem_endToken underway member
  | case2 => cases read
  | case3 quote token c rest ih => exact ih underway.read read member
  | case4 token rest ih => exact ih (.plain rfl rfl underway) read member
  | case5 =>
    cases read
    cases member
  | case6 token c rest _ _ quotes ih => exact ih (.opens quotes underway) read member
  | case7 token c rest _ _ _ _ ih =>
    obtain ⟨later, found', rfl⟩ := Option.map_eq_some_iff.1 read
    rcases List.mem_append.1 member with here | there
    · exact isToken_of_mem_endToken underway here
    · exact ih .nothing found' there
  | case8 token c rest _ _ notQuote notBlank ih =>
    exact ih (.plain (by simpa using notQuote) (by simpa using notBlank) underway) read member

/-- A token under way begins with a character that is not blank. -/
theorem Underway.begins {quote : Option Char} {token : List Char} (underway : Underway quote token)
    (begun : token ≠ []) : ∃ c, token.getLast? = some c ∧ isBlank c = false := by
  have extend {c : Char} {token : List Char} (first : token = [] → isBlank c = false)
      (rest : token ≠ [] → ∃ d, token.getLast? = some d ∧ isBlank d = false) :
      ∃ d, (c :: token).getLast? = some d ∧ isBlank d = false := by
    cases token with
    | nil => exact ⟨c, rfl, first rfl⟩
    | cons d more => simpa using rest (List.cons_ne_nil d more)
  induction underway with
  | nothing => exact absurd rfl begun
  | plain _ notBlank _ ih => exact extend (fun _ => notBlank) ih
  | opens quotes _ ih => exact extend (fun _ => isBlank_of_isQuote quotes) ih
  | within _ before ih =>
    refine extend (fun empty => ?_) ih
    subst empty
    cases before
  | closes before ih => exact extend (fun _ => isBlank_of_isQuote before.isQuote) ih

/-- A token begins and ends with a character that is not blank. -/
theorem IsToken.solid {token : List Char} (whole : IsToken token) : Solid token := by
  obtain ⟨written, underway⟩ := whole
  constructor
  · simpa using underway.begins (by simpa using written)
  · rw [← List.head?_reverse]
    generalize ends : token.reverse = reversed at underway
    cases underway with
    | nothing => exact absurd (by simpa using ends) written
    | plain _ notBlank => exact ⟨_, rfl, notBlank⟩
    | closes before => exact ⟨_, rfl, isBlank_of_isQuote before.isQuote⟩

def joined (tokens : List (List Char)) : List Char :=
  [' '].intercalate tokens

theorem joined_singleton (token : List Char) : joined [token] = token :=
  List.intercalate_singleton

theorem joined_cons {tokens : List (List Char)} (token : List Char) (more : tokens ≠ []) :
    joined (token :: tokens) = token ++ ' ' :: joined tokens := by
  obtain ⟨next, rest, rfl⟩ := List.exists_cons_of_ne_nil more
  simp [joined, List.intercalate_cons_cons]

theorem joined_concat (tokens : List (List Char)) (token : List Char) :
    joined (tokens ++ [token]) = tokens.flatMap (· ++ [' ']) ++ token := by
  induction tokens with
  | nil => simp [joined_singleton]
  | cons first rest ih => simp [joined_cons, ih]

theorem joined_modifyHead {tokens : List (List Char)} (base : List Char) (written : tokens ≠ []) :
    joined (tokens.modifyHead (base ++ ·)) = base ++ joined tokens := by
  obtain ⟨token, rest, rfl⟩ := List.exists_cons_of_ne_nil written
  cases rest with
  | nil => simp [joined_singleton]
  | cons => simp [joined_cons]

theorem spaced_map_ofList (tokens : List (List Char)) :
    Action.spaced (tokens.map String.ofList) = String.ofList (joined tokens) := by
  apply String.toList_injective
  simp [Action.spaced, joined, String.toList_intercalate, Function.comp_def]

theorem intercalate_map_ofList (tokens : List (List Char)) :
    (" ".intercalate (tokens.map String.ofList)).toList = joined tokens := by
  change (Action.spaced _).toList = _
  rw [spaced_map_ofList, String.toList_ofList]

/-- What is put together from solid tokens is solid. -/
theorem solid_joined {tokens : List (List Char)} (written : tokens ≠ [])
    (solid : ∀ token ∈ tokens, Solid token) : Solid (joined tokens) := by
  induction tokens with
  | nil => exact absurd rfl written
  | cons token rest ih =>
    have here : Solid token := solid token List.mem_cons_self
    by_cases more : rest = []
    · rwa [more, joined_singleton]
    · have later : Solid (joined rest) := ih more fun token member =>
        solid token (List.mem_cons_of_mem _ member)
      obtain ⟨first, begins, firstNotBlank⟩ := here.begins
      obtain ⟨last, ends, lastNotBlank⟩ := later.ends
      rw [joined_cons token more]
      constructor
      · exact ⟨first, by simp [begins], firstNotBlank⟩
      · exact ⟨last, by simp [List.getLast?_append, List.getLast?_cons, ends], lastNotBlank⟩

/-- A comment has no tokens. -/
theorem tokensFrom_of_isComment {line : List Char} (comment : isComment line = true) :
    tokensFrom none [] line = some [] := by
  induction line with
  | nil => rfl
  | cons c rest ih =>
    cases blank : isBlank c with
    | true =>
      have later : isComment rest = true := by
        unfold isComment trimStart at comment ⊢
        rwa [List.dropWhile_cons_of_pos blank] at comment
      rw [tokensFrom_blank blank, ih later]
      rfl
    | false =>
      obtain rfl : c = '#' := by
        simpa [isComment, trimStart, List.dropWhile_cons, blank] using comment
      rfl

/-- The statement that a keyword makes with its arguments. -/
theorem ofTokens_word (keyword : Keyword) (arguments : List String) :
    ofTokens keyword.word arguments =
      if arguments.isEmpty then .error (.noArguments keyword)
      else if keyword.isAssignment then
        (assignment keyword arguments).map fun pair => (keyword, pair)
      else .ok (keyword, arguments) := by
  have upper : keyword.word.toList.all Char.isUpper = true := by cases keyword <;> rfl
  simp [ofTokens, upper, Keyword.ofWord?_word]

/-- A line states what its keyword makes of the tokens after it. -/
theorem ofLine_of_tokens {line : List Char} {keyword : Keyword} {tokens : List (List Char)}
    (read : tokensFrom none [] line = some (keyword.word.toList :: tokens)) :
    ofLine line = (ofTokens keyword.word (tokens.map String.ofList)).map some := by
  have states : isComment line = false := by
    cases comment : isComment line with
    | false => rfl
    | true => simp [tokensFrom_of_isComment comment] at read
  simp [ofLine, states, Statement.tokens, read]

/-- An open quote spoils a line. -/
theorem ofLine_of_none {line : List Char} (read : tokensFrom none [] line = none) :
    ofLine line = .error .unterminatedQuote := by
  have states : isComment line = false := by
    cases comment : isComment line with
    | false => rfl
    | true => simp [tokensFrom_of_isComment comment] at read
  simp [ofLine, states, Statement.tokens, read]

end Script.Statement

namespace Script

open Rollout.Text Statement

/-- A text of one line has the statement of that line, if it has one. -/
theorem ofSource_line {source : String} (written : source.toList ≠ []) (oneLine : '\n' ∉ source.toList) :
    Statement.ofSource source =
      match ofLine source.toList with
      | .error fault => .error { fault, line := 1 }
      | .ok none => .ok []
      | .ok (some (keyword, arguments)) => .ok [{ keyword, arguments, line := 1 }] := by
  rw [Statement.ofSource, lines_eq_singleton written oneLine, ofLines]
  split <;> simp [*, ofLines, Except.map]

theorem tokensFrom_word (keyword : Keyword) (text : List Char) :
    tokensFrom none [] (keyword.word.toList ++ ' ' :: text) =
      (tokensFrom none [] text).map ([keyword.word.toList] ++ ·) := by
  cases keyword <;> rfl

theorem newline_not_mem_word (keyword : Keyword) : '\n' ∉ keyword.word.toList := by
  cases keyword <;> decide

/-- The arguments of a keyword that takes a list of them are the tokens of the text after it. -/
theorem tokens_of_ofSource (keyword : Keyword) {text : String} {arguments : List String}
    (listed : keyword.isAssignment = false) (oneLine : '\n' ∉ text.toList)
    (stated : Statement.ofSource (keyword.word ++ " " ++ text) =
      .ok [{ keyword, arguments, line := 1 }]) :
    ∃ tokens, tokensFrom none [] text.toList = some tokens ∧ tokens ≠ [] ∧
      arguments = tokens.map String.ofList := by
  have line : (keyword.word ++ " " ++ text).toList = keyword.word.toList ++ ' ' :: text.toList := by simp
  have oneLine' : '\n' ∉ (keyword.word ++ " " ++ text).toList := by
    simp [oneLine, newline_not_mem_word]
  rw [ofSource_line (by simp) oneLine', line] at stated
  cases read : tokensFrom none [] text.toList with
  | none => simp [ofLine_of_none, tokensFrom_word, read] at stated
  | some tokens =>
    have readLine : tokensFrom none [] (keyword.word.toList ++ ' ' :: text.toList) =
        some (keyword.word.toList :: tokens) := by
      rw [tokensFrom_word, read]
      rfl
    rw [ofLine_of_tokens readLine, ofTokens_word] at stated
    by_cases empty : tokens = []
    · simp [empty, Except.map] at stated
    · rw [if_neg (by simpa using empty), if_neg (by simp [listed])] at stated
      cases stated
      exact ⟨tokens, rfl, empty, rfl⟩

/-- A script of one statement has the step of that statement. -/
theorem parse_statement {source : String} {keyword : Keyword} {arguments : List String}
    (stated : Statement.ofSource source = .ok [{ keyword, arguments, line := 1 }]) :
    parse source =
      match Action.ofArguments keyword arguments with
      | .error fault => .error { fault, line := 1 }
      | .ok action => .ok { steps := [{ action, line := 1 }] } := by
  rw [parse, stated]
  simp only [stepsOf, Step.ofStatement]
  cases Action.ofArguments keyword arguments <;> rfl

theorem ne_nil_of_tokens {line token : List Char} {tokens : List (List Char)}
    (read : tokensFrom none [] line = some (token :: tokens)) : line ≠ [] := by
  rintro rfl
  cases read

/-- A script of one line says what the keyword makes of the tokens after it. -/
theorem parse_of_tokens {source : String} {keyword : Keyword} {tokens : List (List Char)}
    (oneLine : '\n' ∉ source.toList)
    (read : tokensFrom none [] source.toList = some (keyword.word.toList :: tokens)) :
    parse source =
      match (ofTokens keyword.word (tokens.map String.ofList)).bind fun stated =>
        Action.ofArguments stated.1 stated.2 with
      | .error fault => .error { fault, line := 1 }
      | .ok action => .ok { steps := [{ action, line := 1 }] } := by
  have stated := ofSource_line (ne_nil_of_tokens read) oneLine
  rw [ofLine_of_tokens read] at stated
  cases made : ofTokens keyword.word (tokens.map String.ofList) with
  | error fault =>
    rw [made] at stated
    rw [parse, stated]
    rfl
  | ok pair =>
    rw [made] at stated
    exact parse_statement stated

/-- A script of one line with an open quote is refused for it. -/
theorem parse_of_none {source : String} (oneLine : '\n' ∉ source.toList)
    (read : tokensFrom none [] source.toList = none) :
    parse source = .error { fault := .unterminatedQuote, line := 1 } := by
  have written : source.toList ≠ [] := by
    intro empty
    rw [empty] at read
    cases read
  rw [parse, ofSource_line written oneLine, ofLine_of_none read]

end Script

end Rollout

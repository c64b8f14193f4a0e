import Rollout.Proofs.Linewise

/-!
# How tokens are written

A token is made of characters and of quoted regions, and says by itself where it ends: at the first blank
outside its regions. Written with a backslash before each number sign outside the regions, and with blanks
between one and the next, tokens are read back as they were, whatever blanks and whatever comment surround
them. And nothing but such tokens is ever read.
-/

namespace Rollout.Script.Statement

open Rollout.Text

/-- A piece of a token: a character that is neither a quote nor blank, or a region between two equal
quotes with anything else in it. -/
inductive Piece where
  | plain (c : Char) (notQuote : isQuote c = false) (notBlank : isBlank c = false)
  | quoted (quote : Char) (inside : List Char) (quotes : isQuote quote = true) (closed : quote ∉ inside)

def Piece.text : Piece → List Char
  | plain c _ _ => [c]
  | quoted quote inside _ _ => quote :: inside ++ [quote]

/-- A piece as it is written in a line, where a number sign outside quotes needs a backslash. -/
def Piece.written : Piece → List Char
  | plain c _ _ => if c = '#' then ['\\', '#'] else [c]
  | quoted quote inside _ _ => quote :: inside ++ [quote]

/-- A well-formed token: it has a piece at least, and no line feed in it. -/
structure Token where
  pieces : List Piece
  nonempty : pieces ≠ []
  oneLine : '\n' ∉ pieces.flatMap Piece.text

namespace Token

def text (token : Token) : List Char :=
  token.pieces.flatMap Piece.text

def written (token : Token) : List Char :=
  token.pieces.flatMap Piece.written

end Token

/-- An argument in a line: a token and the blanks before it. -/
structure Argument where
  gap : List Char
  token : Token
  apart : gap ≠ []
  blank : ∀ c ∈ gap, isBlank c = true ∧ c ≠ '\n'

def Argument.written (argument : Argument) : List Char :=
  argument.gap ++ argument.token.written

/-- A line that states a list of tokens: a keyword, its arguments, blanks before and behind them, and
perhaps a comment, which blanks keep from the last argument. -/
structure Line where
  keyword : Keyword
  lead : List Char
  arguments : List Argument
  trail : List Char
  comment : Option (List Char)
  listed : keyword.isAssignment = false
  stated : arguments ≠ []
  blankLead : ∀ c ∈ lead, isBlank c = true ∧ c ≠ '\n'
  blankTrail : ∀ c ∈ trail, isBlank c = true ∧ c ≠ '\n'
  apart : comment.isSome = true → trail ≠ []
  oneLine : ∀ text ∈ comment, '\n' ∉ text

namespace Line

def ending (line : Line) : List Char :=
  line.trail ++ (line.comment.map ('#' :: ·)).getD []

def written (line : Line) : List Char :=
  line.lead ++ line.keyword.word.toList ++ line.arguments.flatMap Argument.written ++ line.ending

def tokens (line : Line) : List (List Char) :=
  line.arguments.map (·.token.text)

end Line

/-- What can stand behind the last argument of any line: blanks, and perhaps a comment, which blanks keep from
the argument. -/
structure Ending where
  trail : List Char
  comment : Option (List Char)
  blankTrail : ∀ c ∈ trail, isBlank c = true ∧ c ≠ '\n'
  apart : comment.isSome = true → trail ≠ []
  oneLine : ∀ text ∈ comment, '\n' ∉ text

def Ending.written (ending : Ending) : List Char :=
  ending.trail ++ (ending.comment.map ('#' :: ·)).getD []

def Line.closing (line : Line) : Ending where
  trail := line.trail
  comment := line.comment
  blankTrail := line.blankTrail
  apart := line.apart
  oneLine := line.oneLine

theorem Line.written_closing (line : Line) : line.closing.written = line.ending :=
  rfl

section Reading

variable {token rest gap : List Char}

/-- A quoted region goes on up to the next equal quote. -/
theorem tokensFrom_inside {quote : Char} {inside : List Char} (closed : quote ∉ inside)
    (token rest : List Char) :
    tokensFrom (some quote) token (inside ++ quote :: rest) =
      tokensFrom none (quote :: (inside.reverse ++ token)) rest := by
  induction inside generalizing token with
  | nil => simp [tokensFrom]
  | cons c more ih =>
    have different : c ≠ quote := by
      rintro rfl
      exact closed List.mem_cons_self
    rw [List.cons_append, tokensFrom, if_neg different,
      ih (fun member => closed (List.mem_cons_of_mem c member))]
    simp

/-- A piece is added to the token under way, unless the piece is a backslash that what comes next makes an
escape of. -/
theorem tokensFrom_piece (piece : Piece) (next : rest.head? ≠ some '#') (token : List Char) :
    tokensFrom none token (piece.written ++ rest) = tokensFrom none (piece.text.reverse ++ token) rest := by
  cases piece with
  | plain c notQuote notBlank =>
    by_cases sharp : c = '#'
    · subst sharp
      rfl
    · rw [Piece.written, if_neg sharp, List.singleton_append, tokensFrom_cons fun _ => next]
      simp [Piece.text, sharp, notQuote, notBlank]
  | quoted quote inside quotes closed =>
    have notSharp : quote ≠ '#' := by
      rintro rfl
      cases quotes
    have notEscape : quote ≠ '\\' := by
      rintro rfl
      cases quotes
    rw [Piece.written, List.append_assoc, List.cons_append, tokensFrom_cons fun same => absurd same notEscape,
      if_neg (by simp [notSharp]), if_pos quotes, List.singleton_append, tokensFrom_inside closed]
    simp [Piece.text]

/-- No piece is written with a number sign at its beginning. -/
theorem head?_written_append (pieces : List Piece) (next : rest.head? ≠ some '#') :
    (pieces.flatMap Piece.written ++ rest).head? ≠ some '#' := by
  cases pieces with
  | nil => exact next
  | cons piece more =>
    cases piece with
    | plain c _ _ =>
      by_cases sharp : c = '#'
      · simp [Piece.written, sharp]
      · simp [Piece.written, sharp]
    | quoted quote inside quotes _ =>
      have notSharp : quote ≠ '#' := by
        rintro rfl
        cases quotes
      simp [Piece.written, notSharp]

theorem tokensFrom_pieces (pieces : List Piece) (next : rest.head? ≠ some '#') (token : List Char) :
    tokensFrom none token (pieces.flatMap Piece.written ++ rest) =
      tokensFrom none ((pieces.flatMap Piece.text).reverse ++ token) rest := by
  induction pieces generalizing token with
  | nil => rfl
  | cons piece more ih =>
    rw [List.flatMap_cons, List.append_assoc, tokensFrom_piece piece (head?_written_append more next), ih]
    simp

/-- Blanks between tokens say nothing. -/
theorem tokensFrom_lead (blank : ∀ c ∈ gap, isBlank c = true) (rest : List Char) :
    tokensFrom none [] (gap ++ rest) = tokensFrom none [] rest := by
  by_cases apart : gap = []
  · rw [apart, List.nil_append]
  · rw [tokensFrom_gap blank apart]
    simp [endToken]

/-- Blanks and a comment behind a token say nothing. -/
theorem Ending.tokensFrom_written (ending : Ending) {token : List Char} (begun : token ≠ []) :
    tokensFrom none token ending.written = some [token.reverse] := by
  have blank : ∀ c ∈ ending.trail, isBlank c = true := fun c member => (ending.blankTrail c member).1
  unfold Ending.written
  cases commented : ending.comment with
  | none =>
    by_cases apart : ending.trail = []
    · simp [apart, tokensFrom, endToken_of_ne_nil begun]
    · rw [tokensFrom_gap blank apart]
      simp [tokensFrom, endToken]
  | some text =>
    rw [tokensFrom_gap blank (ending.apart (by simp [commented]))]
    simp [tokensFrom, endToken_of_ne_nil begun]

theorem Ending.head?_written (ending : Ending) : ending.written.head? ≠ some '#' := by
  unfold Ending.written
  cases trail : ending.trail with
  | nil =>
    cases commented : ending.comment with
    | none => simp
    | some text => exact absurd trail (ending.apart (by simp [commented]))
  | cons c more =>
    have blank := (ending.blankTrail c (by simp [trail])).1
    rintro ⟨⟩
    cases blank

theorem Argument.head?_written_append (argument : Argument) (rest : List Char) :
    (argument.written ++ rest).head? ≠ some '#' := by
  obtain ⟨c, more, gap⟩ := List.exists_cons_of_ne_nil argument.apart
  have blank := (argument.blank c (by simp [gap])).1
  rw [Argument.written, gap]
  rintro ⟨⟩
  cases blank

theorem Token.text_ne_nil (token : Token) : token.text ≠ [] := by
  obtain ⟨piece, more, pieces⟩ := List.exists_cons_of_ne_nil token.nonempty
  rw [Token.text, pieces]
  cases piece <;> simp [Piece.text]

/-- Before further arguments and the ending of a line a token can stop. -/
theorem head?_arguments_append (arguments : List Argument) (ending : Ending) :
    (arguments.flatMap Argument.written ++ ending.written).head? ≠ some '#' := by
  cases arguments with
  | nil => exact ending.head?_written
  | cons argument more =>
    rw [List.flatMap_cons, List.append_assoc]
    exact argument.head?_written_append _

/-- After a token the arguments of a line are read one by one. -/
theorem tokensFrom_arguments (arguments : List Argument) (ending : Ending) {token : List Char}
    (begun : token ≠ []) :
    tokensFrom none token (arguments.flatMap Argument.written ++ ending.written) =
      some (token.reverse :: arguments.map (·.token.text)) := by
  induction arguments generalizing token with
  | nil => exact ending.tokensFrom_written begun
  | cons argument more ih =>
    have written : argument.token.text.reverse ≠ [] := by simpa using argument.token.text_ne_nil
    rw [List.flatMap_cons, Argument.written, List.append_assoc, List.append_assoc,
      tokensFrom_gap (fun c member => (argument.blank c member).1) argument.apart, Token.written,
      tokensFrom_pieces argument.token.pieces (head?_arguments_append more ending), List.append_nil]
    change Option.map _ (tokensFrom none argument.token.text.reverse _) = _
    rw [ih written, endToken_of_ne_nil begun]
    simp

theorem tokensFrom_keyword (keyword : Keyword) (rest : List Char) :
    tokensFrom none [] (keyword.word.toList ++ rest) = tokensFrom none keyword.word.toList.reverse rest := by
  cases keyword <;> rfl

/-- A line is read as it was written. -/
theorem Line.tokensFrom_written (line : Line) :
    tokensFrom none [] line.written = some (line.keyword.word.toList :: line.tokens) := by
  have begun : line.keyword.word.toList.reverse ≠ [] := by cases line.keyword <;> decide
  rw [Line.written, List.append_assoc, List.append_assoc,
    tokensFrom_lead (fun c member => (line.blankLead c member).1), tokensFrom_keyword,
    ← line.written_closing, tokensFrom_arguments line.arguments line.closing begun, List.reverse_reverse,
    Line.tokens]

end Reading

section Newlines

/-- A piece is written without a line feed if it has none. -/
theorem Piece.mem_text_of_mem_written {piece : Piece} (member : '\n' ∈ piece.written) : '\n' ∈ piece.text := by
  cases piece with
  | plain c _ _ =>
    by_cases sharp : c = '#'
    · simp [Piece.written, sharp] at member
    · rwa [Piece.written, if_neg sharp] at member
  | quoted => exact member

theorem Token.newline_not_mem_written (token : Token) : '\n' ∉ token.written := by
  intro member
  obtain ⟨piece, among, inside⟩ := List.mem_flatMap.1 member
  exact token.oneLine (List.mem_flatMap.2 ⟨piece, among, Piece.mem_text_of_mem_written inside⟩)

theorem Argument.newline_not_mem_written (argument : Argument) : '\n' ∉ argument.written := by
  intro member
  rcases List.mem_append.1 member with before | within
  · exact (argument.blank _ before).2 rfl
  · exact argument.token.newline_not_mem_written within

theorem Ending.newline_not_mem_written (ending : Ending) : '\n' ∉ ending.written := by
  intro member
  rcases List.mem_append.1 member with before | within
  · exact (ending.blankTrail _ before).2 rfl
  · cases commented : ending.comment with
    | none => simp [commented] at within
    | some text =>
      have absent : '\n' ∉ text := ending.oneLine text (by simp [commented])
      simp [commented, absent] at within

theorem Line.newline_not_mem_written (line : Line) : '\n' ∉ line.written := by
  unfold Line.written
  simp only [List.mem_append, not_or, List.mem_flatMap, not_exists, not_and]
  refine ⟨⟨⟨fun member => (line.blankLead _ member).2 rfl, newline_not_mem_word line.keyword⟩, ?_⟩,
    line.closing.newline_not_mem_written⟩
  exact fun argument _ => argument.newline_not_mem_written

end Newlines

/-! ### Every token that is read is well formed -/

/-- The pieces of a token under way, and what stands in the region that is open. -/
theorem Underway.pieces {quote : Option Char} {token : List Char} (underway : Underway quote token) :
    ∃ pieces : List Piece, match quote with
      | none => token.reverse = pieces.flatMap Piece.text
      | some quote => Statement.isQuote quote = true ∧ ∃ inside, quote ∉ inside ∧
          token.reverse = pieces.flatMap Piece.text ++ quote :: inside := by
  induction underway with
  | nothing => exact ⟨[], rfl⟩
  | @plain c token notQuote notBlank _ ih =>
    obtain ⟨pieces, made⟩ := ih
    refine ⟨pieces ++ [.plain c notQuote notBlank], ?_⟩
    simp [made, Piece.text]
  | @opens c token quotes _ ih =>
    obtain ⟨pieces, made⟩ := ih
    exact ⟨pieces, quotes, [], by simp, by simp [made]⟩
  | @within quote c token different _ ih =>
    obtain ⟨pieces, quotes, inside, closed, made⟩ := ih
    refine ⟨pieces, quotes, inside ++ [c], ?_, by simp [made]⟩
    simp [closed, different.symm]
  | @closes quote token _ ih =>
    obtain ⟨pieces, quotes, inside, closed, made⟩ := ih
    refine ⟨pieces ++ [.quoted quote inside quotes closed], ?_⟩
    simp [made, Piece.text]

theorem exists_token {token : List Char} (whole : IsToken token) (oneLine : '\n' ∉ token) :
    ∃ found : Token, found.text = token := by
  obtain ⟨written, underway⟩ := whole
  obtain ⟨pieces, made⟩ := underway.pieces
  rw [List.reverse_reverse] at made
  have nonempty : pieces ≠ [] := by
    rintro rfl
    exact written made
  exact ⟨⟨pieces, nonempty, made ▸ oneLine⟩, made.symm⟩

/-- What is in a token was in the text, or in the token when it was begun. -/
theorem mem_of_tokensFrom {quote : Option Char} {token text found : List Char} {tokens : List (List Char)}
    {c : Char} (read : tokensFrom quote token text = some tokens) (member : found ∈ tokens)
    (inside : c ∈ found) : c ∈ token ∨ c ∈ text := by
  have ended {token : List Char} (ends : found ∈ endToken token) : c ∈ token := by
    cases token with
    | nil => cases ends
    | cons d more =>
      obtain rfl := List.mem_singleton.1 ends
      simpa [or_comm] using inside
  fun_induction tokensFrom quote token text generalizing tokens with
  | case1 token =>
    cases read
    exact .inl (ended member)
  | case2 => cases read
  | case3 quote token d rest ih => grind [ih read member]
  | case4 token rest ih => grind [ih read member]
  | case5 =>
    cases read
    cases member
  | case6 token d rest _ _ _ ih => grind [ih read member]
  | case7 token d rest _ _ _ _ ih =>
    obtain ⟨later, further, rfl⟩ := Option.map_eq_some_iff.1 read
    rcases List.mem_append.1 member with here | there
    · exact .inl (ended here)
    · grind [ih further there]
  | case8 token d rest _ _ _ _ ih => grind [ih read member]

/-- What is stated are the tokens as they are, or the two parts that they have as an assignment. -/
theorem ofTokens_states {word : String} {given arguments : List String} {keyword : Keyword}
    (states : ofTokens word given = .ok (keyword, arguments)) :
    given ≠ [] ∧ if keyword.isAssignment then assignment keyword given = .ok arguments
      else arguments = given := by
  unfold ofTokens at states
  split at states
  · cases states
  · split at states
    · cases states
    next found _ =>
      split at states
      · cases states
      next written =>
        refine ⟨by simpa using written, ?_⟩
        split at states
        next assigns =>
          cases pair : assignment found given with
          | error => simp [pair, Except.map] at states
          | ok =>
            simp only [pair, Except.map, Except.ok.injEq, Prod.mk.injEq] at states
            obtain ⟨rfl, rfl⟩ := states
            rw [if_pos assigns, pair]
        next listed =>
          cases states
          rw [if_neg listed]

/-- A line that states something is read as a word and the tokens after it. -/
theorem ofLine_states {line : List Char} {keyword : Keyword} {arguments : List String}
    (states : ofLine line = .ok (some (keyword, arguments))) :
    ∃ word tokens, tokensFrom none [] line = some (word :: tokens) ∧
      ofTokens (String.ofList word) (tokens.map String.ofList) = .ok (keyword, arguments) := by
  unfold ofLine Statement.tokens at states
  split at states
  · cases states
  · cases read : tokensFrom none [] line with
    | none => simp [read] at states
    | some found =>
      cases found with
      | nil => simp [read] at states
      | cons word tokens =>
        simp only [read, List.map_cons] at states
        cases made : ofTokens (String.ofList word) (tokens.map String.ofList) with
        | error => simp [made, Except.map] at states
        | ok pair =>
          simp only [made, Except.map, Except.ok.injEq, Option.some.injEq] at states
          exact ⟨word, tokens, rfl, states ▸ made⟩

/-- A statement that is no assignment has the tokens of its line as its arguments. -/
theorem tokens_of_ofLine {line : List Char} {keyword : Keyword} {arguments : List String}
    (listed : keyword.isAssignment = false) (states : ofLine line = .ok (some (keyword, arguments))) :
    ∃ word tokens, tokensFrom none [] line = some (word :: tokens) ∧ tokens ≠ [] ∧
      arguments = tokens.map String.ofList := by
  obtain ⟨word, tokens, read, made⟩ := ofLine_states states
  obtain ⟨written, same⟩ := ofTokens_states made
  rw [if_neg (by simp [listed])] at same
  exact ⟨word, tokens, read, by simpa using written, same⟩

/-- Every statement stands on a line. -/
theorem mem_ofLines {number : Nat} {pieces : List (List Char)} {statements : List Statement}
    (read : ofLines number pieces = .ok statements) {statement : Statement} (member : statement ∈ statements) :
    ∃ line ∈ pieces, ofLine line = .ok (some (statement.keyword, statement.arguments)) := by
  induction pieces generalizing number statements with
  | nil =>
    cases read
    cases member
  | cons line rest ih =>
    have later {found : List Statement} (further : ofLines (number + 1) rest = .ok found)
        (among : statement ∈ found) :
        ∃ line' ∈ line :: rest, ofLine line' = .ok (some (statement.keyword, statement.arguments)) := by
      obtain ⟨line', there, states⟩ := ih further among
      exact ⟨line', List.mem_cons_of_mem line there, states⟩
    rw [ofLines] at read
    split at read
    · cases read
    · exact later read member
    next keyword arguments states =>
      cases further : ofLines (number + 1) rest with
      | error => simp [further, Except.map] at read
      | ok found =>
        simp only [further, Except.map, Except.ok.injEq] at read
        subst read
        rcases List.mem_cons.1 member with rfl | among
        · exact ⟨line, List.mem_cons_self, states⟩
        · exact later further among

theorem exists_tokens {found : List (List Char)} (whole : ∀ token ∈ found, IsToken token ∧ '\n' ∉ token) :
    ∃ tokens : List Token, tokens.map Token.text = found := by
  induction found with
  | nil => exact ⟨[], rfl⟩
  | cons token rest ih =>
    obtain ⟨isToken, oneLine⟩ := whole token List.mem_cons_self
    obtain ⟨first, rfl⟩ := exists_token isToken oneLine
    obtain ⟨others, rfl⟩ := ih fun token member => whole token (List.mem_cons_of_mem _ member)
    exact ⟨first :: others, rfl⟩

/-- A line that states a list of well-formed tokens is read as one statement with its keyword and these
tokens, whatever blanks and whatever comment it has. And whatever is read, the arguments of a statement that
is no assignment are well-formed tokens, one or more. -/
theorem tokens_read_as_written :
    (∀ line : Line, ofSource (String.ofList line.written) =
      .ok [{ keyword := line.keyword, arguments := line.tokens.map String.ofList, line := 1 }]) ∧
    ∀ source statements, ofSource source = .ok statements → ∀ statement ∈ statements,
      statement.keyword.isAssignment = false →
        ∃ tokens : List Token, tokens ≠ [] ∧
          statement.arguments = tokens.map fun token => String.ofList token.text := by
  constructor
  · intro line
    have read := line.tokensFrom_written
    have oneLine : '\n' ∉ (String.ofList line.written).toList := by
      simpa using line.newline_not_mem_written
    have written : (String.ofList line.written).toList ≠ [] := by
      simpa using ne_nil_of_tokens read
    rw [ofSource_line written oneLine, String.toList_ofList, ofLine_of_tokens read, ofTokens_word,
      if_neg (by simp [Line.tokens, line.stated]), if_neg (by simp [line.listed])]
    rfl
  · intro source statements read statement member listed
    rw [ofSource_eq] at read
    obtain ⟨line, among, states⟩ := mem_ofLines read member
    obtain ⟨word, found, tokenized, written, arguments⟩ := tokens_of_ofLine listed states
    have whole : ∀ token ∈ found, IsToken token ∧ '\n' ∉ token := by
      intro token inFound
      have inTokens : token ∈ word :: found := List.mem_cons_of_mem word inFound
      refine ⟨isToken_of_tokensFrom .nothing tokenized inTokens, fun newline => ?_⟩
      rcases mem_of_tokensFrom tokenized inTokens newline with before | here
      · cases before
      · exact not_mem_of_mem_splitOn among here
    obtain ⟨tokens, rfl⟩ := exists_tokens whole
    exact ⟨tokens, by simpa using written, by simp [arguments]⟩

/-- A line with a number sign in a region, one behind it, one after a backslash, and a comment. -/
def signs : Line where
  keyword := .run
  lead := [' ']
  arguments := [
    { gap := ['\t'], apart := by decide, blank := List.forall_mem_singleton.2 (by decide)
      token := ⟨[.quoted '"' ['#', ' '] rfl (by decide), .plain '#' rfl rfl], by simp, by decide⟩ },
    { gap := [' ', ' '], apart := by decide, blank := by simp; decide
      token := ⟨[.plain '\\' rfl rfl, .plain '#' rfl rfl], by simp, by decide⟩ }]
  trail := [' ']
  comment := some ['\'']
  listed := rfl
  stated := by simp
  blankLead := List.forall_mem_singleton.2 (by decide)
  blankTrail := List.forall_mem_singleton.2 (by decide)
  apart := by simp
  oneLine := by simp

theorem tokens_read_as_written_signs :
    ofSource " RUN\t\"# \"\\#  \\\\# #'" = .ok [⟨.run, ["\"# \"#", "\\#"], 1⟩] ∧
    ∃ tokens : List Token, tokens ≠ [] ∧
      ["\"# \"#", "\\#"] = tokens.map fun token => String.ofList token.text := by
  have read : ofSource " RUN\t\"# \"\\#  \\\\# #'" = .ok [⟨.run, ["\"# \"#", "\\#"], 1⟩] :=
    tokens_read_as_written.1 signs
  exact ⟨read, tokens_read_as_written.2 _ _ read _ (List.mem_singleton_self _) rfl⟩

end Rollout.Script.Statement

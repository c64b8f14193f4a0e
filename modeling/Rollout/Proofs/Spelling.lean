import Rollout.Proofs.Shapes
import Rollout.Proofs.Wrapped

/-!
# Words written with quotes

Any word can be written so that a script says exactly this word: what lies between its single quotes is put
between single quotes, and each single quote between double ones. Nothing in such a token is outside
quotes, so no blank ends it, no number sign begins a comment in it and no backslash escapes anything, and
taking the quotes off gives the word back. A list of words that are written like this is a command, on a
line of its own as well as between the parentheses of a variable's source.
-/

namespace Rollout.Script

open Rollout.Text

namespace Statement

/-- A piece of a word without single quotes, between single quotes. Where there is nothing, nothing is
written. -/
def enclosed (piece : List Char) : List Char :=
  if piece.isEmpty then [] else '\'' :: piece ++ ['\'']

def enclosedQuote : List Char :=
  ['"', '\'', '"']

/-- A word as it is written: its maximal pieces without single quotes between single quotes, its single
quotes between double quotes, and an empty word as two single quotes. -/
def spelled (word : List Char) : List Char :=
  if word.isEmpty then ['\'', '\'']
  else enclosedQuote.intercalate ((splitOn '\'' word).map enclosed)

/-- What a piece of a token comes to when the quotes are taken off. -/
def Piece.inside : Piece → List Char
  | plain c _ _ => [c]
  | quoted _ inside _ _ => inside

section Pieces

variable {rest : List Char}

/-- Inside a region nothing is unquoted. -/
theorem unquote_inside {quote : Char} {inside : List Char} (closed : quote ∉ inside) (rest : List Char) :
    unquote (some quote) (inside ++ quote :: rest) = inside ++ unquote none rest := by
  induction inside with
  | nil => simp [unquote]
  | cons c more ih =>
    have different : c ≠ quote := by
      rintro rfl
      exact closed List.mem_cons_self
    rw [List.cons_append, unquote, if_neg different, ih fun member => closed (List.mem_cons_of_mem c member),
      List.cons_append]

/-- What is in a piece and is no quote is there when the quotes are taken off. -/
theorem Piece.mem_inside {piece : Piece} {c : Char} (member : c ∈ piece.text) (notQuote : isQuote c = false) :
    c ∈ piece.inside := by
  cases piece with
  | plain => exact member
  | quoted quote inside quotes _ =>
    have different : c ≠ quote := by
      rintro rfl
      rw [quotes] at notQuote
      cases notQuote
    simpa [Piece.text, Piece.inside, different] using member

theorem unquote_pieces (pieces : List Piece) :
    unquote none (pieces.flatMap Piece.text) = pieces.flatMap Piece.inside := by
  induction pieces with
  | nil => rfl
  | cons piece more ih =>
    rw [List.flatMap_cons, List.flatMap_cons, ← ih]
    cases piece with
    | plain c notQuote _ => simp [Piece.text, Piece.inside, unquote, notQuote]
    | quoted quote inside quotes closed =>
      rw [Piece.text, List.append_assoc, List.cons_append, List.singleton_append, unquote, if_pos quotes,
        unquote_inside closed]
      rfl

/-- A region leads to its other end. -/
theorem scan_inside {quote : Char} {inside : List Char} (closed : quote ∉ inside) (token rest : List Char) :
    scan (some quote) token (inside ++ quote :: rest) =
      scan none (quote :: (inside.reverse ++ token)) rest := by
  induction inside generalizing token with
  | nil => simp [scan]
  | cons c more ih =>
    have different : c ≠ quote := by
      rintro rfl
      exact closed List.mem_cons_self
    rw [List.cons_append, scan, if_neg different, ih fun member => closed (List.mem_cons_of_mem c member)]
    simp

/-- How scanning goes on outside quotes where no number sign is escaped. -/
theorem scan_cons {c : Char} {token : List Char} (unescaped : c = '\\' → rest.head? ≠ some '#') :
    scan none token (c :: rest) =
      if c = '#' && token.isEmpty then none
      else if isQuote c then scan (some c) (c :: token) rest
      else if isBlank c then (scan none [] rest).map (·.behind (endToken token))
      else scan none (c :: token) rest := by
  rw [scan]
  intro more backslash sharp
  exact unescaped backslash (by rw [sharp]; rfl)

theorem scan_piece (piece : Piece) (next : rest.head? ≠ some '#') (token : List Char) :
    scan none token (piece.written ++ rest) = scan none (piece.text.reverse ++ token) rest := by
  cases piece with
  | plain c notQuote notBlank =>
    by_cases sharp : c = '#'
    · subst sharp
      rfl
    · rw [Piece.written, if_neg sharp, List.singleton_append, scan_cons fun _ => next]
      simp [Piece.text, sharp, notQuote, notBlank]
  | quoted quote inside quotes closed =>
    have notSharp : quote ≠ '#' := by
      rintro rfl
      cases quotes
    have notEscape : quote ≠ '\\' := by
      rintro rfl
      cases quotes
    rw [Piece.written, List.append_assoc, List.cons_append, scan_cons fun same => absurd same notEscape,
      if_neg (by simp [notSharp]), if_pos quotes, List.singleton_append, scan_inside closed]
    simp [Piece.text]

/-- No comment begins in what a token is written as. -/
theorem scan_pieces (pieces : List Piece) (next : rest.head? ≠ some '#') (token : List Char) :
    scan none token (pieces.flatMap Piece.written ++ rest) =
      scan none ((pieces.flatMap Piece.text).reverse ++ token) rest := by
  induction pieces generalizing token with
  | nil => rfl
  | cons piece more ih =>
    rw [List.flatMap_cons, List.append_assoc, scan_piece piece (head?_written_append more next), ih]
    simp

end Pieces

/-- Tokens that are written with single spaces between them are read as they are. -/
theorem tokensFrom_joined (tokens : List Token) :
    tokensFrom none [] (joined (tokens.map Token.written)) = some (tokens.map Token.text) := by
  induction tokens with
  | nil => rfl
  | cons token rest ih =>
    have ends : endToken token.text.reverse = [token.text] := by
      rw [endToken_of_ne_nil (by simpa using token.text_ne_nil), List.reverse_reverse]
    have alone (more : List Char) (next : more.head? ≠ some '#') :
        tokensFrom none [] (token.written ++ more) = tokensFrom none token.text.reverse more := by
      have read := tokensFrom_pieces token.pieces next []
      rwa [List.append_nil] at read
    cases rest with
    | nil =>
      have read := alone [] (by simp)
      rw [List.append_nil] at read
      rw [List.map_singleton, joined_singleton, read, tokensFrom, ends, List.map_singleton]
    | cons other others =>
      rw [List.map_cons, joined_cons _ (by simp), alone _ (by simp), tokensFrom_blank rfl, ih, ends]
      rfl

/-- No comment begins in tokens that are written with single spaces between them. -/
theorem hasComment_joined (tokens : List Token) : hasComment (joined (tokens.map Token.written)) = false := by
  induction tokens with
  | nil => rfl
  | cons token rest ih =>
    have alone (more : List Char) (next : more.head? ≠ some '#') :
        scan none [] (token.written ++ more) = scan none token.text.reverse more := by
      have read := scan_pieces token.pieces next []
      rwa [List.append_nil] at read
    cases rest with
    | nil =>
      have read := alone [] (by simp)
      rw [List.append_nil] at read
      rw [List.map_singleton, joined_singleton, hasComment, read]
      rfl
    | cons other others =>
      unfold hasComment at ih ⊢
      rw [List.map_cons, joined_cons _ (by simp), alone _ (by simp), scan_cons (by simp)]
      simpa [isQuote, isBlank] using ih

/-- The pieces that a word is written with, for what lies between its single quotes. None of them needs an
escape. -/
theorem exists_pieces {segments : List (List Char)} (free : ∀ segment ∈ segments, '\'' ∉ segment) :
    ∃ pieces : List Piece,
      pieces.flatMap Piece.text = enclosedQuote.intercalate (segments.map enclosed) ∧
      pieces.flatMap Piece.written = pieces.flatMap Piece.text ∧
      pieces.flatMap Piece.inside = joinWith '\'' segments := by
  have region {segment : List Char} (whole : '\'' ∉ segment) : ∃ pieces : List Piece,
      pieces.flatMap Piece.text = enclosed segment ∧
        pieces.flatMap Piece.written = pieces.flatMap Piece.text ∧
        pieces.flatMap Piece.inside = segment := by
    by_cases empty : segment = []
    · subst empty
      exact ⟨[], rfl, rfl, rfl⟩
    · refine ⟨[.quoted '\'' segment rfl whole], ?_, rfl, ?_⟩
      · simp [Piece.text, enclosed, empty]
      · simp [Piece.inside]
  induction segments with
  | nil => exact ⟨[], rfl, rfl, rfl⟩
  | cons segment others ih =>
    obtain ⟨whole, free⟩ := List.forall_mem_cons.1 free
    obtain ⟨here, text, written, inside⟩ := region whole
    cases others with
    | nil =>
      refine ⟨here, ?_, written, ?_⟩
      · rw [text, List.map_singleton, List.intercalate_singleton]
      · rw [inside, joinWith]
    | cons next more =>
      obtain ⟨there, text', written', inside'⟩ := ih free
      have split : enclosedQuote.intercalate ((segment :: next :: more).map enclosed) =
          enclosed segment ++ (enclosedQuote ++ enclosedQuote.intercalate ((next :: more).map enclosed)) := by
        rw [List.map_cons, List.map_cons, List.intercalate_cons_cons, List.append_assoc]
      refine ⟨here ++ .quoted '"' ['\''] rfl (by decide) :: there, ?_, ?_, ?_⟩
      · rw [split, List.flatMap_append, List.flatMap_cons, text, text']
        rfl
      · rw [List.flatMap_append, List.flatMap_cons, List.flatMap_append, List.flatMap_cons, written,
          written']
        rfl
      · rw [List.flatMap_append, List.flatMap_cons, inside, inside']
        rfl

/-- A word of one line is written as a token that needs no escape, and the token says the word. -/
theorem exists_spelling {word : List Char} (oneLine : '\n' ∉ word) : ∃ token : Token,
    token.written = spelled word ∧ token.text = spelled word ∧ unquote none token.text = word := by
  by_cases empty : word = []
  · subst empty
    exact ⟨⟨[.quoted '\'' [] rfl (by decide)], by simp, by decide⟩, rfl, rfl, rfl⟩
  · have free : ∀ segment ∈ splitOn '\'' word, '\'' ∉ segment := fun _ => not_mem_of_mem_splitOn
    obtain ⟨pieces, text, written, inside⟩ := exists_pieces free
    rw [joinWith_splitOn] at inside
    have means : unquote none (pieces.flatMap Piece.text) = word := by rw [unquote_pieces, inside]
    have nonempty : pieces ≠ [] := by
      rintro rfl
      exact empty inside.symm
    have whole : '\n' ∉ pieces.flatMap Piece.text := by
      intro newline
      obtain ⟨piece, among, within⟩ := List.mem_flatMap.1 newline
      exact oneLine (inside ▸ List.mem_flatMap.2 ⟨piece, among, Piece.mem_inside within rfl⟩)
    have spells : pieces.flatMap Piece.text = spelled word := by
      rw [text, spelled, if_neg (by simpa using empty)]
    exact ⟨⟨pieces, nonempty, whole⟩, written.trans spells, spells, means⟩

/-- Words of one line each are written as tokens that need no escape, and the tokens say the words. -/
theorem exists_spellings {words : List (List Char)} (oneLine : ∀ word ∈ words, '\n' ∉ word) :
    ∃ tokens : List Token, tokens.map Token.written = words.map spelled ∧
      tokens.map Token.text = words.map spelled ∧ (words.map spelled).map (unquote none) = words := by
  induction words with
  | nil => exact ⟨[], rfl, rfl, rfl⟩
  | cons word rest ih =>
    obtain ⟨here, there⟩ := List.forall_mem_cons.1 oneLine
    obtain ⟨token, written, text, means⟩ := exists_spelling here
    obtain ⟨tokens, written', text', means'⟩ := ih there
    refine ⟨token :: tokens, ?_, ?_, ?_⟩
    · rw [List.map_cons, List.map_cons, written, written']
    · rw [List.map_cons, List.map_cons, text, text']
    · rw [List.map_cons, List.map_cons, means', ← text, means]

end Statement

open Statement

def spell (word : String) : String :=
  String.ofList (spelled word.toList)

/-- Words as they are written in a script, with single spaces between them, are tokens that say the words. -/
theorem exists_tokens_spell {words : List String} (oneLine : ∀ word ∈ words, '\n' ∉ word.toList) :
    ∃ tokens : List (List Char), (Action.spaced (words.map spell)).toList = joined tokens ∧
      '\n' ∉ joined tokens ∧ hasComment (joined tokens) = false ∧
      tokensFrom none [] (joined tokens) = some tokens ∧
      tokens.map (fun token => String.ofList (unquote none token)) = words := by
  have free : ∀ word ∈ words.map String.toList, '\n' ∉ word := by simpa using oneLine
  obtain ⟨tokens, written, text, means⟩ := exists_spellings free
  refine ⟨tokens.map Token.text, ?_, ?_, ?_, ?_, ?_⟩
  · rw [spaced_eq, text, List.map_map, List.map_map]
    congr 1
    exact List.map_congr_left fun word _ => by simp [spell]
  · intro newline
    rcases mem_joined newline with space | ⟨found, among, within⟩
    · cases space
    · obtain ⟨token, _, rfl⟩ := List.mem_map.1 among
      exact token.oneLine within
  · rw [text, ← written]
    exact hasComment_joined tokens
  · conv_lhs => rw [text, ← written]
    exact tokensFrom_joined tokens
  · rw [text]
    calc ((words.map String.toList).map spelled).map (fun token => String.ofList (unquote none token))
        = (((words.map String.toList).map spelled).map (unquote none)).map String.ofList := by
          simp only [List.map_map, Function.comp_def]
      _ = words := by
          rw [means, List.map_map]
          simp [Function.comp_def]

/-- Every program with any arguments, in words of one line each, is the command of a line and the command
between the parentheses of a variable's source that are written with quotes around everything. -/
theorem commands_spelled (program : String) (arguments : List String)
    (oneLine : ∀ word ∈ program :: arguments, '\n' ∉ word.toList) :
    parse ("CMD " ++ Action.spaced ((program :: arguments).map spell)) =
      .ok { steps := [{ action := .cmd program arguments, line := 1 }] } ∧
    parse ("VAR X = CMD(" ++ Action.spaced ((program :: arguments).map spell) ++ ")") =
      .ok { steps := [{ action := .var "X" (.command .here (program :: arguments)), line := 1 }] } := by
  obtain ⟨tokens, line, single, uncommented, read, means⟩ := exists_tokens_spell oneLine
  have whole : ∀ token ∈ tokens, IsToken token := fun _ => isToken_of_tokensFrom .nothing read
  have written : tokens ≠ [] := by
    rintro rfl
    cases means
  have filled : joined tokens ≠ [] :=
    (solid_joined written fun token member => (whole token member).solid).ne_nil
  constructor
  · have text : ("CMD " ++ Action.spaced ((program :: arguments).map spell)).toList =
        Keyword.cmd.word.toList ++ ' ' :: joined tokens := by
      rw [String.toList_append, line]
      rfl
    have oneLine' : '\n' ∉ Keyword.cmd.word.toList ++ ' ' :: joined tokens := by
      simp [single, newline_not_mem_word]
    have readLine : tokensFrom none [] (Keyword.cmd.word.toList ++ ' ' :: joined tokens) =
        some (Keyword.cmd.word.toList :: tokens) := by
      rw [tokensFrom_word, read]
      rfl
    have started : Action.ofArguments .cmd (tokens.map String.ofList) = .ok (.cmd program arguments) := by
      simp [Action.ofArguments, Function.comp_def, means]
    rw [← text] at oneLine' readLine
    rw [parse_of_tokens oneLine' readLine, ofTokens_word, if_neg (by simpa using written),
      if_neg (by decide)]
    simp only [Except.bind, started]
  · have made : (Form.command .here).source (joined tokens) =
        .ok (.command .here (program :: arguments)) := by
      simp [Form.source, unquotedWords_joined whole, filled, ← means, Function.comp_def]
    rw [← line] at single uncommented read
    exact parse_wrapped (.command .here) single uncommented read written made

theorem commands_spelled_marks :
    (∀ word ∈ ["it's", "", "#a \\", "\"(=)'"], '\n' ∉ word.toList) ∧
    parse "CMD 'it'\"'\"'s' '' '#a \\' '\"(=)'\"'\"" =
      .ok { steps := [⟨.cmd "it's" ["", "#a \\", "\"(=)'"], 1⟩] } ∧
    parse "VAR X = CMD('it'\"'\"'s' '' '#a \\' '\"(=)'\"'\")" =
      .ok { steps := [⟨.var "X" (.command .here ["it's", "", "#a \\", "\"(=)'"]), 1⟩] } := by
  have oneLine : ∀ word ∈ ["it's", "", "#a \\", "\"(=)'"], '\n' ∉ word.toList := by decide
  exact ⟨oneLine, commands_spelled "it's" ["", "#a \\", "\"(=)'"] oneLine⟩

end Rollout.Script

import Rollout.Shell.Expansion
import Rollout.Text.Split

/-!
# Command lines token by token

A command line can be read piece by piece: a word is over at the first character that ends words, and what
comes later does not change it. So the tokens of a line put together from a word or an operator and the rest
are that token and the tokens of the rest. A quoted text is one such word, whatever it holds.
-/

namespace Rollout.Shell

/-! ### Words -/

def bareWord (text : List Char) : Word :=
  text.map (.char · .bare)

/-- The marks of a text between single quotes, which open anew after each single quote of the text. -/
def hardMarks (text : List Char) : Word :=
  text.flatMap fun c => if c = '\'' then [.char c .hard, .quotes] else [.char c .hard]

def quotedWord (text : List Char) : Word :=
  if !text.isEmpty && text.all isPlain then bareWord text else .quotes :: hardMarks text

def prependAll (marks : Word) (read : Option (Word × List Char)) : Option (Word × List Char) :=
  read.map fun (word, rest) => (marks ++ word, rest)

@[simp] theorem prependAll_nil (read : Option (Word × List Char)) : prependAll [] read = read := by
  cases read <;> rfl

@[simp] theorem prependAll_cons (mark : Mark) (marks : Word) (read : Option (Word × List Char)) :
    prependAll (mark :: marks) read = prepend mark (prependAll marks read) := by
  cases read <;> rfl

theorem prepend_eq_some {mark : Mark} {read : Option (Word × List Char)} {word : Word} {rest : List Char} :
    prepend mark read = some (word, rest) ↔ ∃ more, read = some (more, rest) ∧ word = mark :: more := by
  cases read with
  | none => simp [prepend]
  | some pair =>
    obtain ⟨more, rest'⟩ := pair
    simp only [prepend, Option.map_some, Option.some.injEq, Prod.mk.injEq]
    constructor
    · rintro ⟨rfl, rfl⟩
      exact ⟨more, ⟨rfl, rfl⟩, rfl⟩
    · rintro ⟨_, ⟨rfl, rfl⟩, rfl⟩
      exact ⟨rfl, rfl⟩

/-- What a word leaves is the end of the text. -/
theorem readWord_suffix {scan : Scan} {text : List Char} {word : Word} {rest : List Char}
    (read : readWord scan text = some (word, rest)) : rest <:+ text := by
  fun_induction readWord scan text generalizing word <;>
    simp_all [prepend_eq_some] <;> grind [List.suffix_cons_iff]

theorem isMeta_of_isPlain {c : Char} (plain : isPlain c = true) : isMeta c = false := by
  rw [isMeta, Bool.eq_false_iff]
  intro among
  rw [List.contains_iff_mem] at among
  have noneMeta : " \t\n;&|<>()".toList.all (!isPlain ·) = true := by decide
  simpa [plain] using List.all_eq_true.1 noneMeta c among

theorem not_opens_of_isPlain {c : Char} (plain : isPlain c = true) :
    c ∉ ['\'', '"', '\x60', '\\'] := by
  intro among
  have noneMeta : ['\'', '"', '\x60', '\\'].all (!isPlain ·) = true := by decide
  simpa [plain] using List.all_eq_true.1 noneMeta c among

/-- Reading stops before a character that ends words. -/
theorem readWord_meta {c : Char} (ends : isMeta c = true) (rest : List Char) :
    readWord .bare (c :: rest) = some ([], c :: rest) := by
  have apart : c ∉ ['\'', '"', '\x60', '\\', '$'] := by
    intro among
    have noneMeta : ['\'', '"', '\x60', '\\', '$'].all (!isMeta ·) = true := by decide
    simpa [ends] using List.all_eq_true.1 noneMeta c among
  simp only [List.mem_cons, List.not_mem_nil, not_or] at apart
  rw [readWord] <;> grind

/-- Nothing is read where words end. -/
theorem readWord_ended {rest : List Char} (ends : ∀ c ∈ rest.head?, isMeta c = true) :
    readWord .bare rest = some ([], rest) := by
  cases rest with
  | nil => rfl
  | cons c rest => exact readWord_meta (ends c rfl) rest

/-- Any other character that opens nothing goes into the word. -/
theorem readWord_bare {c : Char} {rest : List Char} (inside : isMeta c = false)
    (opens : c ∉ ['\'', '"', '\x60', '\\'])
    (expands : c = '$' → ∀ more, rest ≠ '(' :: more ∧ rest ≠ '\x7b' :: more) :
    readWord .bare (c :: rest) = prepend (.char c .bare) (readWord .bare rest) := by
  simp only [List.mem_cons, List.not_mem_nil, not_or] at opens
  rw [readWord] <;> grind

theorem readWord_soft {c : Char} {rest : List Char} (opens : c ∉ ['"', '\x60', '\\'])
    (expands : c = '$' → ∀ more, rest ≠ '(' :: more ∧ rest ≠ '\x7b' :: more) :
    readWord .soft (c :: rest) = prepend (.char c .soft) (readWord .soft rest) := by
  simp only [List.mem_cons, List.not_mem_nil, not_or] at opens
  rw [readWord] <;> grind

/-- A word that leaves something does not depend on what comes after that. -/
theorem readWord_append {scan : Scan} {text : List Char} {word : Word} {c : Char} {rest : List Char}
    (read : readWord scan text = some (word, c :: rest)) (more : List Char) :
    readWord scan (text ++ more) = some (word, c :: rest ++ more) := by
  -- The character after a dollar sign tells whether an expansion begins, and is there already.
  have keeps {d next : Char} {after : List Char}
      (noCommand : ∀ rest, d = '$' → next :: after = '(' :: rest → False)
      (noBrace : ∀ rest, d = '$' → next :: after = '\x7b' :: rest → False) :
      d = '$' → ∀ tail, next :: after ++ more ≠ '(' :: tail ∧ next :: after ++ more ≠ '\x7b' :: tail :=
    fun dollar tail => ⟨fun same => noCommand after dollar (by rw [(List.cons.inj same).1]),
      fun same => noBrace after dollar (by rw [(List.cons.inj same).1])⟩
  fun_induction readWord scan text generalizing word
  case case19 d after noEscape noCommand noBrace notQuote notTick ih =>
    obtain ⟨others, left, rfl⟩ := prepend_eq_some.1 read
    -- Something is left, so there is a character that the one at hand was seen with.
    cases after with
    | nil => simp [readWord] at left
    | cons next after =>
      rw [List.cons_append, readWord_soft (by grind) (keeps noCommand noBrace), ih left]
      rfl
  case case23 d after noBreak noEscape noCommand noBrace notHard notSoft notTick ends =>
    obtain ⟨rfl, same⟩ := Prod.mk.inj (Option.some.inj read)
    rw [← same]
    exact readWord_meta ends _
  case case24 d after noBreak noEscape noCommand noBrace notHard notSoft notTick inside ih =>
    obtain ⟨others, left, rfl⟩ := prepend_eq_some.1 read
    cases after with
    | nil => simp [readWord] at left
    | cons next after =>
      rw [List.cons_append, readWord_bare (by simpa using inside) (by grind) (keeps noCommand noBrace),
        ih left]
      rfl
  all_goals simp_all [prepend_eq_some, readWord] <;> grind

theorem readWord_plain {text : List Char} (plain : ∀ c ∈ text, isPlain c = true) (rest : List Char) :
    readWord .bare (text ++ rest) = prependAll (bareWord text) (readWord .bare rest) := by
  induction text with
  | nil => simp [bareWord]
  | cons c text ih =>
    have plainHere : isPlain c = true := plain c (by simp)
    rw [List.cons_append, readWord_bare (isMeta_of_isPlain plainHere) (not_opens_of_isPlain plainHere)
      (fun dollar => absurd plainHere (by rw [dollar]; decide)), ih fun d member => plain d (by simp [member])]
    simp [bareWord]

/-- What stands between single quotes is read as it is, up to the last of them. -/
theorem readWord_quoteChar (text tail : List Char) :
    readWord .hard (text.flatMap quoteChar ++ '\'' :: tail) =
      prependAll (hardMarks text) (readWord .bare tail) := by
  induction text with
  | nil => simp [readWord, hardMarks]
  | cons c text ih =>
    rw [hardMarks] at ih
    by_cases quote : c = '\'' <;> simp [quote, quoteChar, hardMarks, readWord, ih]

/-- A quoted text is one word, up to where words end. -/
theorem readWord_quoteChars (text : List Char) {rest : List Char} (ends : ∀ c ∈ rest.head?, isMeta c = true) :
    readWord .bare (quoteChars text ++ rest) = some (quotedWord text, rest) := by
  have ended := readWord_ended ends
  by_cases plain : (!text.isEmpty && text.all isPlain) = true
  · have each : ∀ d ∈ text, isPlain d = true := by
      simpa using (Bool.and_eq_true_iff.1 plain).2
    rw [quoteChars, if_pos plain, quotedWord, if_pos plain, readWord_plain each, ended]
    simp [prependAll]
  · rw [quoteChars, if_neg plain, quotedWord, if_neg plain]
    have opened : readWord .bare ('\'' :: (text.flatMap quoteChar ++ '\'' :: rest)) =
        prepend .quotes (readWord .hard (text.flatMap quoteChar ++ '\'' :: rest)) := by
      rw [readWord] <;> simp
    simp only [List.cons_append, List.append_assoc, List.nil_append]
    rw [opened, readWord_quoteChar, ended]
    simp [prependAll, prepend]

/-- Characters that a shell looks at where they stand bare in an argument: they end words, quote, or begin an
expansion, a pattern, a list of alternatives or a comment. -/
def isActive (c : Char) : Bool :=
  isMeta c || "\'\"\\\x60$*?[]~#!^\x7b\x7d".toList.contains c

/-- The word stands for the text, and nothing in it is left to be expanded or split: every character is guarded
by single quotes or a backslash, or is bare and of no meaning to a shell. -/
inductive Spells : Word → List Char → Prop
  | nil : Spells [] []
  | quotes {word : Word} {text : List Char} (rest : Spells word text) : Spells (.quotes :: word) text
  | guarded {word : Word} {text : List Char} (c : Char) (rest : Spells word text) :
      Spells (.char c .hard :: word) (c :: text)
  | bare {word : Word} {text : List Char} {c : Char} (inert : isActive c = false) (rest : Spells word text) :
      Spells (.char c .bare :: word) (c :: text)

theorem isActive_of_isPlain {c : Char} (plain : isPlain c = true) : isActive c = false := by
  rw [isActive, isMeta_of_isPlain plain, Bool.false_or, Bool.eq_false_iff]
  intro among
  rw [List.contains_iff_mem] at among
  have nonePlain : "\'\"\\\x60$*?[]~#!^\x7b\x7d".toList.all (!isPlain ·) = true := by decide
  simpa [plain] using List.all_eq_true.1 nonePlain c among

theorem spells_bareWord {text : List Char} (plain : ∀ c ∈ text, isPlain c = true) :
    Spells (bareWord text) text := by
  induction text with
  | nil => exact .nil
  | cons c text ih =>
    obtain ⟨here, later⟩ := List.forall_mem_cons.1 plain
    exact .bare (isActive_of_isPlain here) (ih later)

theorem spells_hardMarks (text : List Char) : Spells (hardMarks text) text := by
  induction text with
  | nil => exact .nil
  | cons c text ih =>
    rw [hardMarks] at ih ⊢
    rw [List.flatMap_cons]
    split
    · exact .guarded c (.quotes ih)
    · exact .guarded c ih

/-- What is read of a quoted text spells it. -/
theorem spells_quotedWord (text : List Char) : Spells (quotedWord text) text := by
  unfold quotedWord
  split
  next plain => exact spells_bareWord (List.all_eq_true.1 (Bool.and_eq_true_iff.1 plain).2)
  next => exact .quotes (spells_hardMarks text)

theorem quotedWord_ne_nil (text : List Char) : quotedWord text ≠ [] := by
  unfold quotedWord
  split
  next plain => simpa [bareWord] using (Bool.and_eq_true_iff.1 plain).1
  next => simp

/-- A name that a shell takes for a variable. -/
structure IsVariable (text : List Char) : Prop where
  nonempty : text ≠ []
  chars : ∀ c ∈ text, isNameChar c = true
  letter : ∀ c ∈ text.head?, c.isDigit = false

theorem namesVariable_iff {text : List Char} : namesVariable text = true ↔ IsVariable text := by
  cases text with
  | nil => exact ⟨nofun, fun isVariable => absurd rfl isVariable.nonempty⟩
  | cons c rest =>
    constructor
    · intro named
      obtain ⟨letter, chars⟩ := Bool.and_eq_true_iff.1 named
      exact ⟨List.cons_ne_nil c rest, List.all_eq_true.1 chars, by simpa using letter⟩
    · intro isVariable
      have letter := isVariable.letter c rfl
      exact Bool.and_eq_true_iff.2 ⟨by simp [letter], List.all_eq_true.2 isVariable.chars⟩

instance (text : List Char) : Decidable (IsVariable text) :=
  decidable_of_iff (namesVariable text = true) namesVariable_iff

theorem isPlain_of_isNameChar {c : Char} (named : isNameChar c = true) : isPlain c = true := by
  rw [isNameChar, Bool.or_eq_true] at named
  obtain letter | underscore := named
  · simp [isPlain, letter]
  · obtain rfl : c = '_' := by simpa using underscore
    decide

/-! ### Tokens -/

/-- A word takes the character that it begins with. -/
theorem readWord_suffix_tail {c : Char} {text : List Char} {word : Word} {rest : List Char}
    (inside : isMeta c = false) (read : readWord .bare (c :: text) = some (word, rest)) : rest <:+ text := by
  have onward {scan : Scan} {text : List Char} {word : Word} :
      readWord scan text = some (word, rest) → rest <:+ text := readWord_suffix
  generalize full : c :: text = whole at read
  generalize start : Scan.bare = scan at read
  fun_cases readWord scan whole <;> simp_all [prepend_eq_some, readWord] <;> grind [List.suffix_cons_iff]

theorem readComment_suffix {text rest : List Char} {token : Option Token}
    (read : readToken.readComment text = some (token, rest)) : rest <:+ text := by
  fun_induction readToken.readComment text <;> grind [List.suffix_cons_iff]

/-- A token takes a character at least. -/
theorem readToken_length {text rest : List Char} {token : Token}
    (read : readToken text = some (some token, rest)) : rest.length < text.length := by
  fun_induction readToken text with
  | case1 => simp at read
  | case2 c text blank ih => exact Nat.lt_succ_of_lt (ih read)
  | case3 text notBlank => exact Nat.lt_succ_of_le (readComment_suffix read).length_le
  | case4 c notBlank notComment ends d text long => grind
  | case5 c notBlank notComment ends d text short => grind
  | case6 c notBlank notComment ends => grind
  | case7 c text notBlank notComment inside =>
    obtain ⟨⟨word, left⟩, found, same⟩ := Option.map_eq_some_iff.1 read
    obtain ⟨-, rfl⟩ := Prod.mk.inj same
    exact Nat.lt_succ_of_le (readWord_suffix_tail (by simpa using inside) found).length_le

/-- A bound that is not reached does not show. -/
theorem tokensWithin_eq {fuel : Nat} {text : List Char} (enough : text.length < fuel) :
    tokensWithin fuel text = tokens text := by
  -- Both bounds at once, so that the induction is on either of them.
  have same : ∀ first second : Nat, ∀ text : List Char, text.length < first → text.length < second →
      tokensWithin first text = tokensWithin second text := by
    intro first
    induction first with
    | zero => intro second text short; omega
    | succ first ih =>
      intro second text short enough
      obtain ⟨second, rfl⟩ : ∃ n, second = n + 1 := ⟨second - 1, by omega⟩
      rw [tokensWithin, tokensWithin]
      match read : readToken text with
      | none => rfl
      | some (none, rest) => rfl
      | some (some token, rest) =>
        have shorter := readToken_length read
        exact congrArg (Option.map (token :: ·)) (ih second rest (by omega) (by omega))
  exact same fuel (text.length + 1) text enough (by omega)

theorem tokens_cons {text rest : List Char} {token : Token}
    (read : readToken text = some (some token, rest)) : tokens text = (tokens rest).map (token :: ·) := by
  simp only [tokens, tokensWithin, read]
  exact congrArg (Option.map (token :: ·)) (tokensWithin_eq (readToken_length read))

/-- A blank before a token does not show. -/
theorem readToken_blank (text : List Char) : readToken (' ' :: text) = readToken text := by
  simp [readToken]

theorem tokens_blank (text : List Char) : tokens (' ' :: text) = tokens text := by
  calc tokens (' ' :: text)
      = tokensWithin (text.length + 2) text := by
        simp only [tokens, tokensWithin, readToken_blank, List.length_cons]
    _ = tokens text := tokensWithin_eq (by omega)

theorem tokens_nil : tokens [] = some [] := rfl

/-- The first token of a text that begins with a word. -/
theorem readToken_word {text : List Char} {word : Word} {rest : List Char}
    (starts : ∀ c ∈ text.head?, isMeta c = false ∧ c ≠ '#') (nonempty : text ≠ [])
    (read : readWord .bare text = some (word, rest)) (ends : ∀ c ∈ rest.head?, c ≠ '<' ∧ c ≠ '>') :
    readToken text = some (some (.word word), rest) := by
  obtain ⟨d, text, rfl⟩ := List.exists_cons_of_ne_nil nonempty
  have start := starts d (by simp)
  have notBlank : ¬ (d = ' ' ∨ d = '\t') := by
    rintro (rfl | rfl) <;> exact absurd start.1 (by decide)
  have token : wordToken word rest = .word word := by
    unfold wordToken
    grind
  simp [readToken, notBlank, start.1, start.2, read, token]

/-- The tokens of a text that begins with a word. -/
theorem tokens_word {text : List Char} {word : Word} {rest : List Char}
    (starts : ∀ c ∈ text.head?, isMeta c = false ∧ c ≠ '#') (nonempty : text ≠ [])
    (read : readWord .bare text = some (word, rest)) (ends : ∀ c ∈ rest.head?, c ≠ '<' ∧ c ≠ '>') :
    tokens text = (tokens rest).map (.word word :: ·) :=
  tokens_cons (readToken_word starts nonempty read ends)

theorem tokens_semicolon (rest : List Char) :
    tokens (';' :: ' ' :: rest) = (tokens rest).map (.operator ";" :: ·) := by
  have read : readToken (';' :: ' ' :: rest) = some (some (.operator ";"), ' ' :: rest) := rfl
  rw [tokens_cons read, tokens_blank]

theorem tokens_both (rest : List Char) :
    tokens ('&' :: '&' :: ' ' :: rest) = (tokens rest).map (.operator "&&" :: ·) := by
  have read : readToken ('&' :: '&' :: ' ' :: rest) = some (some (.operator "&&"), ' ' :: rest) := rfl
  rw [tokens_cons read, tokens_blank]

/-- A word of plain characters, up to what ends it. -/
theorem tokens_bareWord {text rest : List Char} (nonempty : text ≠ []) (plain : ∀ c ∈ text, isPlain c = true)
    (ends : ∀ c ∈ rest.head?, isMeta c = true ∧ c ≠ '<' ∧ c ≠ '>') :
    tokens (text ++ rest) = (tokens rest).map (.word (bareWord text) :: ·) := by
  have ended := readWord_ended fun c head => (ends c head).1
  have read : readWord .bare (text ++ rest) = some (bareWord text, rest) := by
    simp [readWord_plain plain, ended, prependAll]
  have starts : ∀ c ∈ (text ++ rest).head?, isMeta c = false ∧ c ≠ '#' := by
    obtain ⟨c, more, rfl⟩ := List.exists_cons_of_ne_nil nonempty
    have first := plain c (by simp)
    simp only [List.cons_append, List.head?_cons, Option.mem_some_iff, forall_eq']
    exact ⟨isMeta_of_isPlain first, by rintro rfl; exact absurd first (by decide)⟩
  exact tokens_word starts (by simp [nonempty]) read fun c head => (ends c head).2

/-- A dollar sign and a variable's name, at the end of a line. -/
theorem tokens_variable {name : List Char} (isVariable : IsVariable name) :
    tokens ('$' :: name) = some [.word (bareWord ('$' :: name))] := by
  have plain : ∀ c ∈ name, isPlain c = true := fun c member => isPlain_of_isNameChar (isVariable.chars c member)
  have noOpening (c : Char) (other : isNameChar c = false) (more : List Char) : name ≠ c :: more := by
    rintro rfl
    exact absurd (isVariable.chars c (by simp)) (by simp [other])
  have named : readWord .bare name = some (bareWord name, []) := by
    have read := readWord_plain plain []
    rw [List.append_nil] at read
    simp [read, readWord, prependAll]
  have read : readWord .bare ('$' :: name) = some (bareWord ('$' :: name), []) := by
    rw [readWord_bare (by decide) (by decide)
      (fun _ more => ⟨noOpening '(' (by decide) more, noOpening '\x7b' (by decide) more⟩), named]
    rfl
  rw [tokens_word (by simp; decide) (by simp) read (by simp), tokens_nil]
  rfl

/-- Plain words with a blank between each and the next are a token each, up to what ends the last. -/
theorem tokens_joinWith {words : List (List Char)} {rest : List Char} (written : words ≠ [])
    (plain : ∀ word ∈ words, word ≠ [] ∧ ∀ c ∈ word, isPlain c = true)
    (ends : ∀ c ∈ rest.head?, isMeta c = true ∧ c ≠ '<' ∧ c ≠ '>') :
    tokens (Text.joinWith ' ' words ++ rest) =
      (tokens rest).map (words.map (fun word => Token.word (bareWord word)) ++ ·) := by
  induction words with
  | nil => exact absurd rfl written
  | cons word words ih =>
    obtain ⟨nonempty, chars⟩ := plain word (by simp)
    cases words with
    | nil => exact tokens_bareWord nonempty chars ends
    | cons next others =>
      have onward := ih (by simp) fun other member => plain other (by simp [member])
      rw [Text.joinWith, List.append_assoc, List.cons_append,
        tokens_bareWord nonempty chars (by simp; decide), tokens_blank, onward, Option.map_map]
      · rfl
      · simp

/-- A quoted text is the first token, up to what ends it. -/
theorem readToken_quoteChars (text : List Char) {rest : List Char}
    (ends : ∀ c ∈ rest.head?, isMeta c = true ∧ c ≠ '<' ∧ c ≠ '>') :
    readToken (quoteChars text ++ rest) = some (some (.word (quotedWord text)), rest) := by
  have read := readWord_quoteChars text fun c head => (ends c head).1
  obtain ⟨d, more, quoted, inside⟩ : ∃ d more, quoteChars text = d :: more ∧ isMeta d = false ∧ d ≠ '#' := by
    unfold quoteChars
    split
    next plain =>
      obtain ⟨nonempty, chars⟩ := Bool.and_eq_true_iff.1 plain
      obtain ⟨d, more, rfl⟩ := List.exists_cons_of_ne_nil (show text ≠ [] by simpa using nonempty)
      have first : isPlain d = true := List.all_eq_true.1 chars d (by simp)
      exact ⟨d, more, rfl, isMeta_of_isPlain first, by rintro rfl; exact absurd first (by decide)⟩
    next => exact ⟨_, _, rfl, by decide, by decide⟩
  refine readToken_word ?_ (by simp [quoted]) read fun c head => (ends c head).2
  simpa [quoted] using inside

/-- A quoted text that a blank ends. -/
theorem tokens_quoteChars (text rest : List Char) :
    tokens (quoteChars text ++ ' ' :: rest) = (tokens rest).map (.word (quotedWord text) :: ·) := by
  rw [tokens_cons (readToken_quoteChars text (by simp; decide)), tokens_blank]

end Rollout.Shell

import Rollout.Proofs.ConnectTargets
import Rollout.Proofs.Tokens

/-!
# Assignments

Where the equals sign of an assignment stands, alone between blanks, at the end of the key, at the beginning of
the value or between the two, makes a difference to the tokens of the line but not to what they are when they
are put together by single spaces: the key, the sign and the value, with a space or none on either side of the
sign. So the key and the value are read as they were written. And a line that begins with the keyword of an
assignment states a key and a value or is the fault of its script.
-/

namespace Rollout

/-- Something is left of a text between its blanks if not all of it is blank. -/
theorem Text.trim_ne_nil_iff {text : List Char} : trim text ≠ [] ↔ ∃ c ∈ text, isBlank c = false := by
  constructor
  · intro written
    obtain ⟨first, rest, shape, solid⟩ := begins_of_trim written
    exact ⟨first, mem_of_mem_trim (by simp [shape]), solid⟩
  · rintro ⟨c, member, solid⟩ empty
    have blank : ∀ d ∈ trimStart text, isBlank d = true := by
      simpa [trim, trimEnd, List.dropWhile_eq_nil_iff] using empty
    cases begins : trimStart text with
    | nil =>
      have blankText := List.dropWhile_eq_nil_iff.1 begins c member
      simp [blankText] at solid
    | cons d rest =>
      have notBlank := List.head?_dropWhile_not isBlank text
      rw [← trimStart, begins] at notBlank
      simp [blank d (by simp [begins])] at notBlank

namespace Script

open Rollout.Text

namespace Statement

/-! ### What is written is read -/

/-- A line that assigns: a keyword, a key of one word without an equals sign, the sign with whatever blanks
around it, and the tokens of the value. -/
structure AssignmentLine where
  keyword : Keyword
  lead : List Char
  key : Argument
  before : List Char
  after : List Char
  first : Token
  more : List Argument
  ending : Ending
  assigns : keyword.isAssignment = true
  oneWord : ∀ c ∈ key.token.text, isBlank c = false
  noEquals : '=' ∉ key.token.text
  blankLead : ∀ c ∈ lead, isBlank c = true ∧ c ≠ '\n'
  blankBefore : ∀ c ∈ before, isBlank c = true ∧ c ≠ '\n'
  blankAfter : ∀ c ∈ after, isBlank c = true ∧ c ≠ '\n'

namespace AssignmentLine

def right (line : AssignmentLine) : List Char :=
  line.first.written ++ (line.more.flatMap Argument.written ++ line.ending.written)

def rest (line : AssignmentLine) : List Char :=
  line.key.written ++ (line.before ++ '=' :: (line.after ++ line.right))

def written (line : AssignmentLine) : List Char :=
  line.lead ++ (line.keyword.word.toList ++ line.rest)

def values (line : AssignmentLine) : List (List Char) :=
  line.first.text :: line.more.map (·.token.text)

end AssignmentLine

/-- The text, read after the characters of a token under way, gives tokens that are the other text when they are
put together. -/
def Gives (token text said : List Char) : Prop :=
  ∃ tokens, tokens ≠ [] ∧ tokensFrom none token text = some tokens ∧ joined tokens = said

section Saying

variable {token gap text said : List Char}

/-- Where a token can go on, any number of blanks comes down to a space or to nothing. -/
theorem gives_after_blanks (blank : ∀ c ∈ gap, isBlank c = true)
    (gives : ∀ token, Gives token text (token.reverse ++ said)) :
    ∃ space, (∀ c ∈ space, isBlank c = true) ∧
      ∀ token, token ≠ [] → Gives token (gap ++ text) (token.reverse ++ (space ++ said)) := by
  by_cases apart : gap = []
  · subst apart
    exact ⟨[], by simp, fun token _ => gives token⟩
  · refine ⟨[' '], blank_space, fun token begun => ?_⟩
    obtain ⟨tokens, written, read, put⟩ := gives []
    refine ⟨token.reverse :: tokens, List.cons_ne_nil _ _, ?_, ?_⟩
    · rw [tokensFrom_gap blank apart, read, endToken_of_ne_nil begun]
      rfl
    · rw [joined_cons _ written, put]
      rfl

/-- An equals sign goes on with any token. -/
theorem gives_equals (gives : ∀ token, token ≠ [] → Gives token text (token.reverse ++ said)) (token : List Char) :
    Gives token ('=' :: text) (token.reverse ++ '=' :: said) := by
  obtain ⟨tokens, written, read, put⟩ := gives ('=' :: token) (List.cons_ne_nil _ _)
  refine ⟨tokens, written, ?_, by simpa using put⟩
  rw [tokensFrom_cons (by simp)]
  exact read

theorem Token.isToken (token : Token) : IsToken token.text := by
  have begun : token.text.reverse ++ [] ≠ [] := by simpa using token.text_ne_nil
  have read : tokensFrom none [] (token.written ++ []) = some [token.text] := by
    rw [Token.written, tokensFrom_pieces token.pieces (by simp)]
    change some (endToken (token.text.reverse ++ [])) = _
    rw [endToken_of_ne_nil begun]
    simp
  exact isToken_of_tokensFrom .nothing read (List.mem_singleton_self _)

variable (line : AssignmentLine)

theorem AssignmentLine.solid_values : Solid (joined line.values) := by
  apply solid_joined (List.cons_ne_nil _ _)
  intro token member
  rcases List.mem_cons.1 member with rfl | later
  · exact line.first.isToken.solid
  · obtain ⟨argument, _, rfl⟩ := List.mem_map.1 later
    exact argument.token.isToken.solid

/-- The value goes on with any token. -/
theorem AssignmentLine.gives_right (token : List Char) :
    Gives token line.right (token.reverse ++ joined line.values) := by
  have written : line.first.text.reverse ++ token ≠ [] := by simp [line.first.text_ne_nil]
  refine ⟨line.values.modifyHead (token.reverse ++ ·), by simp [AssignmentLine.values], ?_,
    joined_modifyHead token.reverse (List.cons_ne_nil _ _)⟩
  rw [AssignmentLine.right, Token.written, tokensFrom_pieces _ (head?_arguments_append _ _)]
  change tokensFrom none (line.first.text.reverse ++ token) _ = _
  rw [tokensFrom_arguments _ _ written]
  simp [AssignmentLine.values]

/-- After its keyword the line gives tokens that are the key, the equals sign and the value when they are put
together, with blanks around the sign or without. -/
theorem AssignmentLine.tokensFrom_written :
    ∃ tokens left right, tokensFrom none [] line.written = some (line.keyword.word.toList :: tokens) ∧
      tokens ≠ [] ∧ joined tokens = line.key.token.text ++ left ++ '=' :: (right ++ joined line.values) ∧
      (∀ c ∈ left, isBlank c = true) ∧ ∀ c ∈ right, isBlank c = true := by
  obtain ⟨right, blankRight, giveRight⟩ :=
    gives_after_blanks (fun c member => (line.blankAfter c member).1) line.gives_right
  obtain ⟨left, blankLeft, giveLeft⟩ :=
    gives_after_blanks (fun c member => (line.blankBefore c member).1) (gives_equals giveRight)
  obtain ⟨tokens, written, read, put⟩ :=
    giveLeft line.key.token.text.reverse (by simpa using line.key.token.text_ne_nil)
  have next : (line.before ++ '=' :: (line.after ++ line.right)).head? ≠ some '#' := by
    cases before : line.before with
    | nil => simp
    | cons c rest =>
      have blank := (line.blankBefore c (by simp [before])).1
      rintro ⟨⟩
      cases blank
  have begun : line.keyword.word.toList.reverse ≠ [] := by cases line.keyword <;> decide
  refine ⟨tokens, left, right, ?_, written, by simpa using put, blankLeft, blankRight⟩
  rw [AssignmentLine.written, tokensFrom_lead (fun c member => (line.blankLead c member).1), tokensFrom_keyword,
    AssignmentLine.rest, Argument.written, List.append_assoc,
    tokensFrom_gap (fun c member => (line.key.blank c member).1) line.key.apart, Token.written,
    tokensFrom_pieces _ next, List.append_nil]
  change Option.map _ (tokensFrom none line.key.token.text.reverse _) = _
  rw [read, endToken_of_ne_nil begun, List.reverse_reverse]
  rfl

theorem AssignmentLine.newline_not_mem_written : '\n' ∉ line.written := by
  simp only [AssignmentLine.written, AssignmentLine.rest, AssignmentLine.right, List.mem_append, List.mem_cons,
    not_or, List.mem_flatMap, not_exists, not_and]
  refine ⟨fun member => (line.blankLead _ member).2 rfl, newline_not_mem_word line.keyword,
    line.key.newline_not_mem_written, fun member => (line.blankBefore _ member).2 rfl, by decide,
    fun member => (line.blankAfter _ member).2 rfl, line.first.newline_not_mem_written,
    fun argument _ => argument.newline_not_mem_written, line.ending.newline_not_mem_written⟩

end Saying

/-! ### What is read was written -/

/-- Put together by single spaces, the tokens are cut in two at the first equals sign: before it stands one
word, and something that is not blank behind it. -/
structure Assigned (tokens : List (List Char)) (left right : List Char) : Prop where
  put : joined tokens = left ++ '=' :: right
  first : '=' ∉ left
  named : trim left ≠ []
  oneWord : ∀ c ∈ trim left, isBlank c = false
  valued : ∃ c ∈ right, isBlank c = false

def pair (left right : List Char) : List String :=
  [String.ofList (trim left), String.ofList (trim right)]

section Assigning

variable {keyword : Keyword} {tokens : List (List Char)} {left right line : List Char} {arguments : List String}

theorem Assigned.assignment (assigned : Assigned tokens left right) (keyword : Keyword) :
    assignment keyword (tokens.map String.ofList) = .ok (pair left right) := by
  have named : ((trim left).isEmpty || (trim left).any isBlank) = false := by
    simpa [assigned.named] using assigned.oneWord
  have valued : (trim right).isEmpty = false := by
    simpa using trim_ne_nil_iff.2 assigned.valued
  rw [Statement.assignment, intercalate_map_ofList, assigned.put, cutAt_append_mark assigned.first]
  simp [named, valued, pair]

theorem assigned_of_assignment (assigns : assignment keyword (tokens.map String.ofList) = .ok arguments) :
    ∃ left right, Assigned tokens left right := by
  unfold Statement.assignment at assigns
  rw [intercalate_map_ofList] at assigns
  split at assigns
  · cases assigns
  next left right cut =>
    obtain ⟨put, first⟩ := cutAt_eq_some cut
    dsimp only at assigns
    split at assigns
    · cases assigns
    next named =>
      split at assigns
      · cases assigns
      next valued =>
        simp only [Bool.or_eq_true, not_or, List.isEmpty_iff, List.any_eq_true, not_exists, not_and,
          Bool.not_eq_true] at named valued
        exact ⟨left, right, put, first, named.1, named.2, trim_ne_nil_iff.1 valued⟩

/-- The word is the first token of the line: blanks only stand before it, and a blank or nothing behind it. -/
def Opens (word line : List Char) : Prop :=
  ∃ lead rest, line = lead ++ (word ++ rest) ∧ (∀ c ∈ lead, isBlank c = true) ∧ ∀ c ∈ rest.head?, isBlank c = true

/-- The line assigns what stands before and behind the first equals sign of its tokens. -/
def LineAssigns (keyword : Keyword) (line left right : List Char) : Prop :=
  ∃ tokens, tokensFrom none [] line = some (keyword.word.toList :: tokens) ∧ Assigned tokens left right

theorem Opens.read (opens : Opens keyword.word.toList line) :
    tokensFrom none [] line = none ∨ ∃ tokens, tokensFrom none [] line = some (keyword.word.toList :: tokens) := by
  obtain ⟨lead, rest, rfl, blank, apart⟩ := opens
  have begun : keyword.word.toList.reverse ≠ [] := by cases keyword <;> decide
  rw [tokensFrom_lead blank, tokensFrom_keyword]
  cases rest with
  | nil => exact .inr ⟨[], by rw [tokensFrom, endToken_of_ne_nil begun, List.reverse_reverse]⟩
  | cons c more =>
    rw [tokensFrom_blank (apart c rfl), endToken_of_ne_nil begun, List.reverse_reverse]
    cases tokensFrom none [] more with
    | none => exact .inl rfl
    | some tokens => exact .inr ⟨tokens, rfl⟩

/-- A token under way is the beginning of the first token that is read. -/
theorem prefix_of_tokensFrom {quote : Option Char} {token text word : List Char} (begun : token ≠ [])
    (read : tokensFrom quote token text = some (word :: tokens)) : token.reverse <+: word := by
  have longer {c : Char} {token : List Char} (begins : (c :: token).reverse <+: word) : token.reverse <+: word := by
    rw [List.reverse_cons] at begins
    exact (List.prefix_append _ _).trans begins
  fun_induction tokensFrom quote token text generalizing tokens with
  | case1 token =>
    rw [endToken_of_ne_nil begun] at read
    cases read
    exact List.prefix_rfl
  | case2 => cases read
  | case3 quote token c rest ih => exact longer (ih (List.cons_ne_nil _ _) read)
  | case4 token rest ih => exact longer (ih (List.cons_ne_nil _ _) read)
  | case5 => cases read
  | case6 token c rest _ _ _ ih => exact longer (ih (List.cons_ne_nil _ _) read)
  | case7 token c rest _ _ _ _ _ =>
    obtain ⟨later, _, same⟩ := Option.map_eq_some_iff.1 read
    rw [endToken_of_ne_nil begun] at same
    cases same
    exact List.prefix_rfl
  | case8 token c rest _ _ _ _ ih => exact longer (ih (List.cons_ne_nil _ _) read)

/-- Before a first token without quotes and number signs is read to its end, a character is one of its own or a
blank. -/
theorem tokensFrom_cons_plain {c : Char} {token text word : List Char}
    (read : tokensFrom none token (c :: text) = some (word :: tokens))
    (plain : ∀ c ∈ word, isQuote c = false ∧ c ≠ '#') :
    (isBlank c = false ∧ tokensFrom none (c :: token) text = some (word :: tokens)) ∨
      (isBlank c = true ∧ ∃ later, tokensFrom none [] text = some later ∧ endToken token ++ later = word :: tokens) := by
  have among {c : Char} {quote : Option Char} {token rest : List Char}
      (read : tokensFrom quote (c :: token) rest = some (word :: tokens)) : isQuote c = false ∧ c ≠ '#' :=
    plain c ((prefix_of_tokensFrom (List.cons_ne_nil c token) read).subset (by simp))
  by_cases unescaped : c = '\\' → text.head? ≠ some '#'
  · rw [tokensFrom_cons unescaped] at read
    split at read
    · cases read
    · split at read
      next quotes => exact absurd (among read).1 (by simp [quotes])
      next =>
        split at read
        next blank => exact .inr ⟨blank, Option.map_eq_some_iff.1 read⟩
        next notBlank => exact .inl ⟨by simpa using notBlank, read⟩
  · simp only [Classical.not_imp, Decidable.not_not] at unescaped
    obtain ⟨rfl, sharp⟩ := unescaped
    obtain ⟨later, rfl⟩ := List.head?_eq_some_iff.1 sharp
    exact absurd rfl (among read).2

/-- A first token without quotes and number signs stands in the text as it is. -/
theorem exists_rest {token text word : List Char} (begun : token ≠ [])
    (read : tokensFrom none token text = some (word :: tokens)) (plain : ∀ c ∈ word, isQuote c = false ∧ c ≠ '#') :
    ∃ part rest, text = part ++ rest ∧ word = token.reverse ++ part ∧ ∀ c ∈ rest.head?, isBlank c = true := by
  induction text generalizing token with
  | nil =>
    rw [tokensFrom, endToken_of_ne_nil begun] at read
    cases read
    exact ⟨[], [], rfl, by simp, by simp⟩
  | cons c more ih =>
    rcases tokensFrom_cons_plain read plain with ⟨_, goesOn⟩ | ⟨blank, later, _, same⟩
    · obtain ⟨part, rest, rfl, whole, apart⟩ := ih (List.cons_ne_nil c token) goesOn
      exact ⟨c :: part, rest, rfl, by simpa using whole, apart⟩
    · rw [endToken_of_ne_nil begun] at same
      cases same
      exact ⟨[], c :: more, rfl, by simp, by simpa using blank⟩

theorem opens_of_tokensFrom {word : List Char} (read : tokensFrom none [] line = some (word :: tokens))
    (plain : ∀ c ∈ word, isQuote c = false ∧ c ≠ '#') : Opens word line := by
  induction line with
  | nil => cases read
  | cons c more ih =>
    rcases tokensFrom_cons_plain read plain with ⟨solid, goesOn⟩ | ⟨blank, later, found, same⟩
    · obtain ⟨part, rest, rfl, rfl, apart⟩ := exists_rest (List.cons_ne_nil c []) goesOn plain
      exact ⟨[], rest, rfl, by simp, apart⟩
    · obtain rfl : later = word :: tokens := same
      obtain ⟨lead, rest, rfl, blanks, apart⟩ := ih found
      exact ⟨c :: lead, rest, rfl, by simpa [blank] using blanks, apart⟩

/-- Whether a keyword opens a line is seen from the first token that is read. -/
theorem opens_keyword_iff (read : tokensFrom none [] line = some tokens) :
    Opens keyword.word.toList line ↔ tokens.head? = some keyword.word.toList := by
  constructor
  · intro opens
    rcases opens.read with spoiled | ⟨later, found⟩
    · rw [spoiled] at read
      cases read
    · rw [found] at read
      cases read
      rfl
  · intro first
    obtain ⟨later, rfl⟩ := List.head?_eq_some_iff.1 first
    have plain : keyword.word.toList.all (fun c => !isQuote c && c != '#') = true := by cases keyword <;> rfl
    exact opens_of_tokensFrom read (by simpa using plain)

/-- A line that opens with the keyword of an assignment states what it assigns, or has a fault. -/
theorem ofLine_opens (assigns : keyword.isAssignment = true) (opens : Opens keyword.word.toList line) :
    (∃ left right, LineAssigns keyword line left right ∧ ofLine line = .ok (some (keyword, pair left right))) ∨
      (¬ ∃ left right, LineAssigns keyword line left right) ∧ ∃ fault, ofLine line = .error fault := by
  rcases opens.read with spoiled | ⟨tokens, read⟩
  · refine .inr ⟨?_, _, ofLine_of_none spoiled⟩
    rintro ⟨left, right, tokens, read, -⟩
    rw [spoiled] at read
    cases read
  · rw [ofLine_of_tokens read, ofTokens_word]
    by_cases assigned : ∃ left right, Assigned tokens left right
    · obtain ⟨left, right, assigned⟩ := assigned
      have written : tokens ≠ [] := by
        rintro rfl
        simpa [joined] using assigned.put
      refine .inl ⟨left, right, ⟨tokens, read, assigned⟩, ?_⟩
      rw [if_neg (by simpa using written), if_pos assigns, assigned.assignment keyword]
      rfl
    · refine .inr ⟨?_, ?_⟩
      · rintro ⟨left, right, others, found, states⟩
        rw [read] at found
        cases found
        exact assigned ⟨left, right, states⟩
      · split
        · exact ⟨_, rfl⟩
        · cases made : Statement.assignment keyword (tokens.map String.ofList) with
          | error fault => exact ⟨fault, rfl⟩
          | ok arguments => exact absurd (assigned_of_assignment made) assigned

end Assigning

/-- The statements of some lines and then those of the lines after them. -/
theorem ofLines_append (number : Nat) (first second : List (List Char)) :
    ofLines number (first ++ second) =
      (ofLines number first).bind fun before => (ofLines (number + first.length) second).map (before ++ ·) := by
  induction first generalizing number with
  | nil =>
    rw [List.nil_append, ofLines]
    cases ofLines number second <;> rfl
  | cons line rest ih =>
    have next : number + 1 + rest.length = number + (line :: rest).length := by
      simp only [List.length_cons]
      omega
    rw [List.cons_append, ofLines, ofLines, ih, next]
    split
    · rfl
    · rfl
    · cases ofLines (number + 1) rest with
      | error => rfl
      | ok before => cases ofLines (number + (line :: rest).length) second <;> rfl

/-- A line that assigns is read as it was written. -/
theorem AssignmentLine.ofSource_written (line : AssignmentLine) :
    ofSource (String.ofList line.written) = .ok
      [⟨line.keyword, [String.ofList line.key.token.text, " ".intercalate (line.values.map String.ofList)], 1⟩] := by
  obtain ⟨tokens, left, right, read, written, put, blankLeft, blankRight⟩ := line.tokensFrom_written
  have key : trim ([] ++ line.key.token.text ++ left) = line.key.token.text :=
    trim_of_forall line.oneWord (by simp) blankLeft
  have value : trim (right ++ joined line.values ++ []) = joined line.values :=
    line.solid_values.trim_eq blankRight (by simp)
  rw [List.nil_append] at key
  rw [List.append_nil] at value
  have assigned : Assigned tokens (line.key.token.text ++ left) (right ++ joined line.values) := by
    refine ⟨put, ?_, key.symm ▸ line.key.token.text_ne_nil, key.symm ▸ line.oneWord, ?_⟩
    · simp only [List.mem_append, not_or]
      exact ⟨line.noEquals, fun inside => by cases blankLeft _ inside⟩
    · rw [← trim_ne_nil_iff, value]
      exact line.solid_values.ne_nil
  have oneLine : '\n' ∉ (String.ofList line.written).toList := by simpa using line.newline_not_mem_written
  rw [ofSource_line (by simpa using ne_nil_of_tokens read) oneLine, String.toList_ofList, ofLine_of_tokens read,
    ofTokens_word, if_neg (by simpa using written), if_pos line.assigns, assigned.assignment line.keyword]
  simp only [Except.map, pair, key, value]
  rw [← intercalate_map_ofList, String.ofList_toList]

/-- Whatever blanks surround its equals sign and its tokens, a line that assigns is read as one statement with
the key and the tokens of the value put together by single spaces. And a line whose first token is the keyword
of an assignment, below lines without a fault, states the two parts of its tokens before and behind their first
equals sign, if these are one word and something that is not blank. Otherwise the script is refused with the
number of the line. -/
theorem assignments_read_as_written :
    (∀ line : AssignmentLine, ofSource (String.ofList line.written) = .ok
      [⟨line.keyword, [String.ofList line.key.token.text, " ".intercalate (line.values.map String.ofList)], 1⟩]) ∧
    (∀ (keyword : Keyword) (line : List Char) (tokens : List (List Char)), tokensFrom none [] line = some tokens →
      (Opens keyword.word.toList line ↔ tokens.head? = some keyword.word.toList)) ∧
    ∀ (source : String) (before after : List (List Char)) (line : List Char) (earlier : List Statement)
      (keyword : Keyword), lines source.toList = before ++ line :: after → ofLines 1 before = .ok earlier →
      keyword.isAssignment = true → Opens keyword.word.toList line →
        (∃ left right, LineAssigns keyword line left right ∧
          ofSource source = (ofLines (before.length + 2) after).map
            (earlier ++ ⟨keyword, pair left right, before.length + 1⟩ :: ·)) ∨
        (¬ ∃ left right, LineAssigns keyword line left right) ∧
          ∃ fault, ofSource source = .error { fault, line := before.length + 1 } := by
  refine ⟨fun line => line.ofSource_written, fun keyword line tokens read => opens_keyword_iff read, ?_⟩
  intro source before after line earlier keyword split read assigns opens
  have start : 1 + before.length = before.length + 1 := Nat.add_comm _ _
  rw [ofSource, split, ofLines_append, read, start]
  rcases ofLine_opens assigns opens with ⟨left, right, states, said⟩ | ⟨unstated, fault, refused⟩
  · refine .inl ⟨left, right, states, ?_⟩
    rw [ofLines, said]
    cases ofLines (before.length + 1 + 1) after <;> rfl
  · refine .inr ⟨unstated, fault, ?_⟩
    rw [ofLines, refused]
    rfl

theorem blank_spaceTab : ∀ c ∈ [' ', '\t'], isBlank c = true ∧ c ≠ '\n' :=
  List.forall_mem_cons.2 ⟨by decide, List.forall_mem_singleton.2 (by decide)⟩

/-- An equals sign between a key and a value that begins with another, a third one in a region with a number sign,
and a comment. -/
def glued : AssignmentLine where
  keyword := .var
  lead := []
  key := { gap := [' ', '\t'], apart := by simp, blank := blank_spaceTab
           token := ⟨[.plain 'k' rfl rfl], by simp, by decide⟩ }
  before := []
  after := []
  first := ⟨[.plain '=' rfl rfl, .quoted '\'' [' ', '=', '#'] rfl (by decide)], by simp, by decide⟩
  more := [{ gap := [' ', '\t'], apart := by simp, blank := blank_spaceTab
             token := ⟨[.plain 'v' rfl rfl], by simp, by decide⟩ }]
  ending := { trail := [' ', '\t'], comment := some ['='], apart := by simp, oneLine := by simp
              blankTrail := blank_spaceTab }
  assigns := rfl
  oneWord := List.forall_mem_singleton.2 rfl
  noEquals := by decide
  blankLead := by simp
  blankBefore := by simp
  blankAfter := by simp

/-- The glued line, and below it one whose key is two words. -/
theorem assignments_read_as_written_glued :
    ofSource "VAR \tk==' =#' \tv \t#=" = .ok [⟨.var, ["k", "=' =#' v"], 1⟩] ∧
    (¬ ∃ left right, LineAssigns .env "ENV a b=c".toList left right) ∧
      ∃ fault, ofSource "VAR \tk==' =#' \tv \t#=\nENV a b=c" = .error { fault, line := 2 } := by
  have opens : Opens Keyword.env.word.toList "ENV a b=c".toList :=
    (assignments_read_as_written.2.1 .env _ [['E', 'N', 'V'], ['a'], ['b', '=', 'c']] (by rfl)).2 (by rfl)
  refine ⟨assignments_read_as_written.1 glued, ?_⟩
  rcases assignments_read_as_written.2.2 "VAR \tk==' =#' \tv \t#=\nENV a b=c" ["VAR \tk==' =#' \tv \t#=".toList] []
    "ENV a b=c".toList [⟨.var, ["k", "=' =#' v"], 1⟩] .env (by rfl) (by rfl) rfl opens with
    ⟨left, right, states, read⟩ | refused
  · have fails : ∃ error, ofSource "VAR \tk==' =#' \tv \t#=\nENV a b=c" = .error error := ⟨_, by rfl⟩
    obtain ⟨error, fails⟩ := fails
    rw [fails] at read
    cases read
  · exact refused

end Statement

end Script

end Rollout

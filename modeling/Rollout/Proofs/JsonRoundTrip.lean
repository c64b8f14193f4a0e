import Mathlib
import Rollout.Json.Reader
import Rollout.Json.Text

/-!
# Written JSON is read back

A JSON value that is laid out over several lines is read back with nothing lost: the reader finds the
syntax of the value, in which strings and numbers stand as they were written, and an escaped string is
decoded to the text it was written for, and the digits of a number to the number. A string ends at its
closing quote whatever it holds, and a number at the first character that cannot go on with it, so what
stands behind a value does not matter but for a number.
-/

namespace Rollout.Json

open Reader

section Characters

variable {c : Char} {text rest tail : List Char}

theorem hexValue?_hexDigit {digit : Nat} (small : digit < 16) : hexValue? (hexDigit digit) = some digit := by
  have all : ∀ digit < 16, hexValue? (hexDigit digit) = some digit := by decide
  exact all digit small

/-- The four digits with which a control character is written stand for it. -/
theorem unit?_control (control : c.toNat < 0x20) :
    unit? ['0', '0', hexDigit (c.toNat / 16), hexDigit (c.toNat % 16)] = some c.toNat := by
  have high := hexValue?_hexDigit (show c.toNat / 16 < 16 by omega)
  have low := hexValue?_hexDigit (Nat.mod_lt c.toNat (by decide : 16 > 0))
  have zero : hexValue? '0' = some 0 := by decide
  simp only [unit?, zero, high, low, Option.bind_eq_bind, Option.bind_some, Option.pure_def]
  congr 1
  omega

theorem eq_of_toNat {code : Nat} (same : c.toNat = code) : c = Char.ofNat code := by
  rw [← same, Char.ofNat_toNat]

/-- A character is written by a short escape, by its number, or as it is. -/
theorem escapeChar_cases (c : Char) :
    (∃ letter, escapeChar c = ['\\', letter] ∧ letter ≠ 'u' ∧ shortEscape? letter = some c) ∨
    (c.toNat < 0x20 ∧
      escapeChar c = ['\\', 'u', '0', '0', hexDigit (c.toNat / 16), hexDigit (c.toNat % 16)]) ∨
    (escapeChar c = [c] ∧ 0x20 ≤ c.toNat ∧ c ≠ '"' ∧ c ≠ '\\') := by
  unfold escapeChar
  split
  next same => exact .inl ⟨'"', rfl, by decide, by rw [same]; rfl⟩
  next quote =>
    split
    next same => exact .inl ⟨'\\', rfl, by decide, by rw [same]; rfl⟩
    next backslash =>
      split
      next same => exact .inl ⟨'n', rfl, by decide, same ▸ rfl⟩
      next =>
        split
        next same => exact .inl ⟨'r', rfl, by decide, same ▸ rfl⟩
        next =>
          split
          next same => exact .inl ⟨'t', rfl, by decide, same ▸ rfl⟩
          next =>
            split
            next same => exact .inl ⟨'b', rfl, by decide, eq_of_toNat same ▸ rfl⟩
            next =>
              split
              next same => exact .inl ⟨'f', rfl, by decide, eq_of_toNat same ▸ rfl⟩
              next =>
                split
                next control => exact .inr (.inl ⟨control, rfl⟩)
                next plain => exact .inr (.inr ⟨rfl, by omega, quote, backslash⟩)

/-- A written character is passed over as a part of a string. -/
theorem string?_escapeChar (c : Char) (tail : List Char) :
    string? (escapeChar c ++ tail) =
      (string? tail).map fun cut => (escapeChar c ++ cut.1, cut.2) := by
  rcases escapeChar_cases c with ⟨letter, written, notNumber, short⟩ | ⟨control, written⟩ |
    ⟨written, above, notQuote, notBackslash⟩
  · rw [written]
    change string? ('\\' :: letter :: tail) = _
    rw [string?]
    · simp [short]
    · exact fun _ _ _ _ _ same _ => notNumber same
  · rw [written]
    change string? ('\\' :: 'u' :: '0' :: '0' :: _ :: _ :: tail) = _
    rw [string?, unit?_control control]
    rfl
  · rw [written]
    change string? (c :: tail) = _
    rw [string?]
    · rw [if_neg (by simp [notBackslash]; omega)]
      rfl
    · exact notQuote
    · exact fun _ _ _ _ _ same _ => notBackslash same
    · exact fun _ _ same _ => notBackslash same

/-- A written character stands for the character. -/
theorem decode?_escapeChar (c : Char) (tail : List Char) :
    decode? (escapeChar c ++ tail) = (decode? tail).map (c :: ·) := by
  rcases escapeChar_cases c with ⟨letter, written, notNumber, short⟩ | ⟨control, written⟩ |
    ⟨written, above, notQuote, notBackslash⟩
  · rw [written]
    change decode? ('\\' :: letter :: tail) = _
    rw [decode?]
    · simp [short]
    · exact fun _ _ _ _ _ same _ => notNumber same
  · have notHigh : isHigh c.toNat = false := by
      simp only [isHigh, Bool.and_eq_false_imp, decide_eq_true_eq, decide_eq_false_iff_not]
      omega
    have notLow : isLow c.toNat = false := by
      simp only [isLow, Bool.and_eq_false_imp, decide_eq_true_eq, decide_eq_false_iff_not]
      omega
    rw [written]
    change decode? ('\\' :: 'u' :: '0' :: '0' :: _ :: _ :: tail) = _
    rw [decode?, unit?_control control]
    simp [notHigh, notLow]
  · rw [written]
    change decode? (c :: tail) = _
    rw [decode?]
    · exact fun _ _ _ _ _ same _ => notBackslash same
    · exact fun _ _ same _ => notBackslash same

/-- A string is cut at its closing quote, whatever it holds and whatever comes after it. -/
theorem string?_quoted (text rest : List Char) :
    string? (text.flatMap escapeChar ++ '"' :: rest) = some (text.flatMap escapeChar, rest) := by
  induction text with
  | nil => rfl
  | cons c text ih =>
    rw [List.flatMap_cons, List.append_assoc, string?_escapeChar, ih]
    rfl

/-- An escaped text is decoded to the text. -/
theorem decode?_escaped (text : List Char) : decode? (text.flatMap escapeChar) = some text := by
  induction text with
  | nil => rfl
  | cons c text ih =>
    rw [List.flatMap_cons, decode?_escapeChar, ih]
    rfl

end Characters

section Numbers

variable {rest : List Char}

/-- What no number can go on with. -/
def EndsNumber (rest : List Char) : Prop :=
  ∀ c ∈ rest.head?, c.isDigit = false ∧ c ≠ '.' ∧ c ≠ 'e' ∧ c ≠ 'E'

def digitsOf (value : Nat) : List Char :=
  (toString value).toList

theorem digitsOf_eq (value : Nat) : digitsOf value = Nat.toDigits 10 value := by
  rw [digitsOf, Nat.toString_eq_repr, Nat.repr_eq_ofList_toDigits, String.toList_ofList]

theorem isDigit_of_mem_digitsOf {value : Nat} : ∀ c ∈ digitsOf value, c.isDigit = true := by
  rw [digitsOf_eq]
  exact fun c member => Nat.isDigit_of_mem_toDigits (by decide) (by decide) member

theorem digitsOf_ne_nil (value : Nat) : digitsOf value ≠ [] := by
  rw [digitsOf_eq]
  exact Nat.toDigits_ne_nil

/-- Only zero begins with a zero. -/
theorem eq_zero_of_digitsOf {value : Nat} {more : List Char} (leading : digitsOf value = '0' :: more) :
    value = 0 := by
  rw [digitsOf_eq] at leading
  induction value using Nat.strongRecOn generalizing more with
  | ind value ih =>
    rw [Nat.toDigits_eq_if (by decide)] at leading
    split at leading
    next small =>
      have zero : ∀ digit < 10, digit.digitChar = '0' → digit = 0 := by decide
      exact zero value small (List.cons.inj leading).1
    next large =>
      rcases List.append_eq_cons_iff.1 leading with ⟨empty, _⟩ | ⟨higher, begins, _⟩
      · exact absurd empty Nat.toDigits_ne_nil
      · have nothing := ih (value / 10) (by omega) begins
        omega

theorem digits?_digitsOf (value : Nat) (ends : ∀ c ∈ rest.head?, c.isDigit = false) :
    digits? (digitsOf value ++ rest) = some (digitsOf value, rest) := by
  have cut : (digitsOf value ++ rest).span Char.isDigit = (digitsOf value, rest) := by
    rw [List.span_eq_takeWhile_dropWhile, List.takeWhile_append_of_pos isDigit_of_mem_digitsOf,
      List.dropWhile_append_of_pos isDigit_of_mem_digitsOf]
    cases rest with
    | nil => simp
    | cons c rest => simp [ends c (by simp)]
  unfold digits?
  rw [cut]
  cases digits : digitsOf value with
  | nil => exact absurd digits (digitsOf_ne_nil value)
  | cons c more => rfl

theorem whole?_digitsOf (value : Nat) (ends : ∀ c ∈ rest.head?, c.isDigit = false) :
    whole? (digitsOf value ++ rest) = some (digitsOf value, rest) := by
  unfold whole?
  split
  next more leading =>
    rcases List.append_eq_cons_iff.1 leading with ⟨empty, _⟩ | ⟨later, begins, rfl⟩
    · exact absurd empty (digitsOf_ne_nil value)
    · obtain rfl := eq_zero_of_digitsOf begins
      obtain rfl : later = [] := (List.cons.inj begins).2.symm
      cases rest with
      | nil => rfl
      | cons c rest => simp [ends c (by simp), digitsOf]
  next => exact digits?_digitsOf value ends

/-- A number is cut behind its last digit. -/
theorem number?_digitsOf (value : Nat) (ends : EndsNumber rest) :
    number? (digitsOf value ++ rest) = some (digitsOf value, rest) := by
  have unsigned : ∀ more, digitsOf value ++ rest ≠ '-' :: more := by
    intro more signed
    rcases List.append_eq_cons_iff.1 signed with ⟨empty, _⟩ | ⟨later, begins, _⟩
    · exact digitsOf_ne_nil value empty
    · have digit := isDigit_of_mem_digitsOf '-' (begins ▸ List.mem_cons_self)
      cases digit
  have whole := whole?_digitsOf value fun c member => (ends c member).1
  have fraction : fraction? rest = some ([], rest) := by
    unfold fraction?
    split
    · exact absurd rfl (ends '.' (by simp)).2.1
    · rfl
  have exponent : exponent? rest = some ([], rest) := by
    cases rest with
    | nil => rfl
    | cons c rest =>
      have marked : ¬ (c = 'e' || c = 'E') = true := by simpa using (ends c (by simp)).2.2
      simp only [exponent?]
      exact if_neg marked
  unfold number?
  split
  next sign text cut =>
    split at cut
    · exact absurd ‹_› (unsigned _)
    · cases cut
      simp [whole, fraction, exponent]

theorem natural?_digitsOf (value : Nat) : Syntactic.natural? (.number (digitsOf value)) = some value := by
  have digits : (digitsOf value).all Char.isDigit = true := List.all_eq_true.2 isDigit_of_mem_digitsOf
  rw [Syntactic.natural?, if_pos digits, digitsOf, String.ofList_toList, Nat.toString_eq_repr,
    Nat.toNat?_repr]

theorem text?_escaped (text : String) :
    Syntactic.text? (.string (text.toList.flatMap escapeChar)) = some text := by
  rw [Syntactic.text?, decode?_escaped, Option.map_some, String.ofList_toList]

end Numbers

section Blanks

variable {blanks : List Char}

theorem skipBlanks_append (blank : ∀ c ∈ blanks, isBlank c = true) (text : List Char) :
    skipBlanks (blanks ++ text) = skipBlanks text :=
  List.dropWhile_append_of_pos blank

theorem skipBlanks_solid {c : Char} (solid : isBlank c = false) (rest : List Char) :
    skipBlanks (c :: rest) = c :: rest :=
  List.dropWhile_cons_of_neg (by simp [solid])

theorem isBlank_of_isDigit {c : Char} (digit : c.isDigit = true) : isBlank c = false := by
  cases blank : isBlank c with
  | false => rfl
  | true =>
    simp only [isBlank, Bool.or_eq_true, decide_eq_true_eq] at blank
    rcases blank with ((rfl | rfl) | rfl) | rfl <;> cases digit

theorem isBlank_newline (depth : Nat) : ∀ c ∈ newline depth, isBlank c = true := by
  unfold newline
  simp [isBlank]

theorem skipBlanks_newline (depth : Nat) (text : List Char) :
    skipBlanks (newline depth ++ text) = skipBlanks text :=
  skipBlanks_append (isBlank_newline depth) text

/-- Blanks before a value do not count. -/
theorem value?_append (fuel : Nat) (blank : ∀ c ∈ blanks, isBlank c = true) (text : List Char) :
    value? fuel (blanks ++ text) = value? fuel text := by
  cases fuel with
  | zero => rw [value?, value?]
  | succ fuel => rw [value?, value?, skipBlanks_append blank]

end Blanks

section Values

mutual

def syntaxOf : Json → Syntactic
  | bool value => .bool value
  | number value => .number (digitsOf value)
  | string text => .string (text.toList.flatMap escapeChar)
  | array items => .array (syntaxOfItems items)
  | object fields => .object (syntaxOfFields fields)

def syntaxOfItems : List Json → List Syntactic
  | [] => []
  | item :: rest => syntaxOf item :: syntaxOfItems rest

def syntaxOfFields : List (String × Json) → List (List Char × Syntactic)
  | [] => []
  | (key, value) :: rest => (key.toList.flatMap escapeChar, syntaxOf value) :: syntaxOfFields rest

end

/-- A written value begins with a character that is no blank and ends nothing. -/
theorem prettyChars_begins (depth : Nat) (json : Json) :
    ∃ c more, prettyChars depth json = c :: more ∧ isBlank c = false ∧ c ≠ ']' := by
  cases json with
  | bool value => cases value <;> exact ⟨_, _, rfl, by decide, by decide⟩
  | number value =>
    cases digits : digitsOf value with
    | nil => exact absurd digits (digitsOf_ne_nil value)
    | cons c more =>
      have digit := isDigit_of_mem_digitsOf c (digits ▸ List.mem_cons_self)
      refine ⟨c, more, by rw [prettyChars]; exact digits, ?_, ?_⟩
      · exact isBlank_of_isDigit digit
      · rintro rfl
        cases digit
  | string text => exact ⟨'"', _, rfl, by decide, by decide⟩
  | array items => cases items <;> exact ⟨'[', _, rfl, by decide, by decide⟩
  | object fields => cases fields <;> exact ⟨'\x7b', _, rfl, by decide, by decide⟩

/-- With the fuel all values are read whose text is at most half as long. -/
structure ReadsWithin (fuel : Nat) : Prop where
  value : ∀ (json : Json) (depth : Nat) (rest : List Char),
    2 * (prettyChars depth json).length ≤ fuel → EndsNumber rest →
      value? fuel (prettyChars depth json ++ rest) = some (syntaxOf json, rest)
  items : ∀ (item : Json) (more : List Json) (depth below : Nat) (rest : List Char),
    2 * (prettyItems depth (item :: more)).length ≤ fuel →
      items? fuel (prettyItems depth (item :: more) ++ newline below ++ ']' :: rest) =
        some (syntaxOfItems (item :: more), rest)
  fields : ∀ (field : String × Json) (more : List (String × Json)) (depth below : Nat)
    (rest : List Char),
    2 * (prettyFields depth (field :: more)).length ≤ fuel →
      fields? fuel (prettyFields depth (field :: more) ++ newline below ++ '\x7d' :: rest) =
        some (syntaxOfFields (field :: more), rest)

theorem endsNumber_newline (depth : Nat) (rest : List Char) : EndsNumber (newline depth ++ rest) := by
  intro c first
  obtain rfl : '\n' = c := by simpa [newline] using first
  decide

theorem endsNumber_comma (rest : List Char) : EndsNumber (',' :: rest) := by
  intro c first
  obtain rfl : ',' = c := by simpa using first
  decide

theorem length_prettyChars_pos (depth : Nat) (json : Json) : 0 < (prettyChars depth json).length := by
  obtain ⟨c, more, written, _⟩ := prettyChars_begins depth json
  simp [written]

theorem value?_digitsOf (fuel value : Nat) {rest : List Char} (ends : EndsNumber rest) :
    value? (fuel + 1) (digitsOf value ++ rest) = some (.number (digitsOf value), rest) := by
  have cut := number?_digitsOf value ends
  cases digits : digitsOf value with
  | nil => exact absurd digits (digitsOf_ne_nil value)
  | cons c more =>
    have digit := isDigit_of_mem_digitsOf c (digits ▸ List.mem_cons_self)
    rw [digits] at cut
    rw [value?, List.cons_append, skipBlanks_solid (isBlank_of_isDigit digit)]
    -- A digit begins nothing but a number.
    split
    case h_7 => rw [← List.cons_append, cut, Option.map_some]
    all_goals
      next same =>
        obtain ⟨rfl, _⟩ := List.cons.inj same
        cases digit

theorem value?_quoted (fuel : Nat) (text : String) (rest : List Char) :
    value? (fuel + 1) (quoted text ++ rest) = some (.string (text.toList.flatMap escapeChar), rest) := by
  have cut := string?_quoted text.toList rest
  rw [quoted, List.cons_append, List.cons_append, List.append_assoc, value?,
    skipBlanks_solid (by decide)]
  simp only [List.singleton_append, cut, Option.map_some]

/-- An array that does not end at once has items. -/
theorem value?_bracket (fuel : Nat) {rest : List Char} (unclosed : ∀ behind, skipBlanks rest ≠ ']' :: behind) :
    value? (fuel + 1) ('[' :: rest) = (items? fuel rest).map fun cut => (.array cut.1, cut.2) := by
  rw [value?, skipBlanks_solid (by decide)]
  simp only

/-- An object that does not end at once has fields. -/
theorem value?_brace (fuel : Nat) {rest : List Char} (unclosed : ∀ behind, skipBlanks rest ≠ '\x7d' :: behind) :
    value? (fuel + 1) ('\x7b' :: rest) = (fields? fuel rest).map fun cut => (.object cut.1, cut.2) := by
  rw [value?, skipBlanks_solid (by decide)]
  simp only

def continued {α : Type} (written : List α → List Char) : List α → List Char
  | [] => []
  | more => ',' :: written more

theorem prettyItems_cons (depth : Nat) (item : Json) (more : List Json) :
    prettyItems depth (item :: more) =
      newline depth ++ (prettyChars depth item ++ continued (prettyItems depth) more) := by
  cases more with
  | nil => simp [prettyItems, continued]
  | cons => simp [prettyItems, continued]

theorem prettyFields_cons (depth : Nat) (key : String) (value : Json) (more : List (String × Json)) :
    prettyFields depth ((key, value) :: more) = newline depth ++ (quoted key ++
      ':' :: ' ' :: (prettyChars depth value ++ continued (prettyFields depth) more)) := by
  cases more with
  | nil => simp [prettyFields, continued]
  | cons => simp [prettyFields, continued]

/-- An array that has items is read as its items are. -/
theorem value?_array {fuel depth : Nat} {item : Json} {more : List Json} {rest : List Char}
    {items : List Syntactic}
    (read : items? fuel (prettyItems (depth + 1) (item :: more) ++ newline depth ++ ']' :: rest) =
      some (items, rest)) :
    value? (fuel + 1) (prettyChars depth (.array (item :: more)) ++ rest) = some (.array items, rest) := by
  obtain ⟨c, tail, begins, solid, inside⟩ := prettyChars_begins (depth + 1) item
  have text : prettyChars depth (.array (item :: more)) ++ rest =
      '[' :: (prettyItems (depth + 1) (item :: more) ++ newline depth ++ ']' :: rest) := by
    simp [prettyChars]
  rw [text, value?_bracket, read, Option.map_some]
  intro behind ended
  rw [prettyItems_cons, List.append_assoc, List.append_assoc, skipBlanks_newline, begins, List.append_assoc,
    List.cons_append, skipBlanks_solid solid] at ended
  exact inside (List.cons.inj ended).1

/-- An object that has fields is read as its fields are. -/
theorem value?_object {fuel depth : Nat} {key : String} {value : Json} {more : List (String × Json)}
    {rest : List Char} {fields : List (List Char × Syntactic)}
    (read : fields? fuel (prettyFields (depth + 1) ((key, value) :: more) ++ newline depth ++ '\x7d' :: rest) =
      some (fields, rest)) :
    value? (fuel + 1) (prettyChars depth (.object ((key, value) :: more)) ++ rest) =
      some (.object fields, rest) := by
  have text : prettyChars depth (.object ((key, value) :: more)) ++ rest =
      '\x7b' :: (prettyFields (depth + 1) ((key, value) :: more) ++ newline depth ++ '\x7d' :: rest) := by
    simp [prettyChars]
  rw [text, value?_brace, read, Option.map_some]
  intro behind ended
  rw [prettyFields_cons, List.append_assoc, List.append_assoc, skipBlanks_newline, quoted, List.append_assoc,
    List.cons_append, List.cons_append, skipBlanks_solid (by decide)] at ended
  cases (List.cons.inj ended).1

theorem ReadsWithin.value_succ {fuel : Nat} (reads : ReadsWithin fuel) (json : Json) (depth : Nat)
    (rest : List Char) (enough : 2 * (prettyChars depth json).length ≤ fuel + 1) (ends : EndsNumber rest) :
    value? (fuel + 1) (prettyChars depth json ++ rest) = some (syntaxOf json, rest) := by
  cases json with
  | bool value => cases value <;> rfl
  | number value => exact value?_digitsOf fuel value ends
  | string text => exact value?_quoted fuel text rest
  | array items =>
    cases items with
    | nil => rfl
    | cons item more =>
      refine value?_array (reads.items item more (depth + 1) depth rest ?_)
      simp only [prettyChars, List.length_append, List.length_cons] at enough
      omega
  | object fields =>
    cases fields with
    | nil => rfl
    | cons field more =>
      obtain ⟨key, value⟩ := field
      refine value?_object (reads.fields (key, value) more (depth + 1) depth rest ?_)
      simp only [prettyChars, List.length_append, List.length_cons] at enough
      omega

theorem endsNumber_continued {α : Type} (written : List α → List Char) (more : List α) (depth : Nat)
    (rest : List Char) : EndsNumber (continued written more ++ newline depth ++ rest) := by
  cases more with
  | nil => exact endsNumber_newline depth rest
  | cons => exact endsNumber_comma _

theorem ReadsWithin.items_succ {fuel : Nat} (reads : ReadsWithin fuel) (item : Json) (more : List Json)
    (depth below : Nat) (rest : List Char)
    (enough : 2 * (prettyItems depth (item :: more)).length ≤ fuel + 1) :
    items? (fuel + 1) (prettyItems depth (item :: more) ++ newline below ++ ']' :: rest) =
      some (syntaxOfItems (item :: more), rest) := by
  rw [prettyItems_cons] at enough ⊢
  simp only [newline, List.length_append, List.length_cons] at enough
  have first := reads.value item depth (continued (prettyItems depth) more ++ newline below ++ ']' :: rest)
    (by omega) (by rw [List.append_assoc, ← List.append_assoc]; exact endsNumber_continued _ _ _ _)
  have text : newline depth ++ (prettyChars depth item ++ continued (prettyItems depth) more) ++
      newline below ++ ']' :: rest = newline depth ++ (prettyChars depth item ++
        (continued (prettyItems depth) more ++ newline below ++ ']' :: rest)) := by
    simp only [List.append_assoc]
  rw [text, items?, value?_append fuel (isBlank_newline depth), first]
  cases more with
  | nil =>
    have close : skipBlanks (newline below ++ ']' :: rest) = ']' :: rest := by
      rw [skipBlanks_newline, skipBlanks_solid (by decide)]
    simp [continued, close, syntaxOfItems]
  | cons next more =>
    simp only [continued, List.length_cons] at enough
    have later := reads.items next more depth below rest (by omega)
    have comma (behind : List Char) : skipBlanks (',' :: behind) = ',' :: behind :=
      skipBlanks_solid (by decide) behind
    rw [List.append_assoc] at later
    simp [continued, comma, later, syntaxOfItems]

theorem ReadsWithin.fields_succ {fuel : Nat} (reads : ReadsWithin fuel) (field : String × Json)
    (more : List (String × Json)) (depth below : Nat) (rest : List Char)
    (enough : 2 * (prettyFields depth (field :: more)).length ≤ fuel + 1) :
    fields? (fuel + 1) (prettyFields depth (field :: more) ++ newline below ++ '\x7d' :: rest) =
      some (syntaxOfFields (field :: more), rest) := by
  obtain ⟨key, value⟩ := field
  rw [prettyFields_cons] at enough ⊢
  simp only [newline, List.length_append, List.length_cons] at enough
  have first := reads.value value depth (continued (prettyFields depth) more ++ newline below ++ '\x7d' :: rest)
    (by omega) (by rw [List.append_assoc, ← List.append_assoc]; exact endsNumber_continued _ _ _ _)
  have spaced : value? fuel (' ' :: (prettyChars depth value ++
      (continued (prettyFields depth) more ++ newline below ++ '\x7d' :: rest))) = _ :=
    (value?_append fuel (by simp [isBlank] : ∀ c ∈ [' '], isBlank c = true) _).trans first
  have named := string?_quoted key.toList (':' :: ' ' :: (prettyChars depth value ++
    (continued (prettyFields depth) more ++ newline below ++ '\x7d' :: rest)))
  have text : newline depth ++ (quoted key ++ ':' :: ' ' :: (prettyChars depth value ++
      continued (prettyFields depth) more)) ++ newline below ++ '\x7d' :: rest =
      newline depth ++ ('"' :: (key.toList.flatMap escapeChar ++ '"' :: ':' :: ' ' ::
        (prettyChars depth value ++
          (continued (prettyFields depth) more ++ newline below ++ '\x7d' :: rest)))) := by
    simp [quoted]
  have solid {c : Char} (isSolid : isBlank c = false) (behind : List Char) :
      skipBlanks (c :: behind) = c :: behind := skipBlanks_solid isSolid behind
  rw [text, fields?, skipBlanks_newline, solid (by decide)]
  simp only [named, Option.bind_eq_bind, Option.bind_some, solid (show isBlank ':' = false by decide), spaced]
  cases more with
  | nil =>
    have close : skipBlanks (newline below ++ '\x7d' :: rest) = '\x7d' :: rest := by
      rw [skipBlanks_newline, solid (by decide)]
    simp [continued, close, syntaxOfFields]
  | cons next more =>
    simp only [continued, List.length_cons] at enough
    have later := reads.fields next more depth below rest (by omega)
    rw [List.append_assoc] at later
    simp [continued, solid (show isBlank ',' = false by decide), later, syntaxOfFields]

/-- Every value is read, if the fuel is twice its length. -/
theorem readsWithin (fuel : Nat) : ReadsWithin fuel := by
  induction fuel with
  | zero =>
    refine ⟨fun json depth rest enough => ?_, fun item more depth below rest enough => ?_,
      fun field more depth below rest enough => ?_⟩
    · have positive := length_prettyChars_pos depth json
      omega
    · rw [prettyItems_cons] at enough
      simp [newline] at enough
    · rw [prettyFields_cons] at enough
      simp [newline] at enough
  | succ fuel reads => exact ⟨reads.value_succ, reads.items_succ, reads.fields_succ⟩

/-- A value that is laid out is read back. -/
theorem read?_pretty (json : Json) : read? json.pretty = some (syntaxOf json) := by
  have reads := (readsWithin (2 * json.pretty.length + 2)).value json 0 []
    (by rw [pretty, String.length_ofList]; omega) (fun _ none => nomatch none)
  rw [List.append_nil] at reads
  unfold read?
  rw [show json.pretty.toList = prettyChars 0 json from String.toList_ofList, reads]
  rfl

end Values

end Rollout.Json

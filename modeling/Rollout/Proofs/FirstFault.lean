import Rollout.Proofs.Linewise

/-!
# The line that is reported

A script is read in two passes over its lines, and each of them stops at its first fault: all lines are split
into statements, and only then is a statement looked into. So the line that is reported is the first that cannot
be split, wherever it stands, and only without such a line the first whose statement has the wrong shape. What is
reported is what the line gives when it stands alone.
-/

namespace Rollout

namespace Text

theorem newline_not_mem_lines {text line : List Char} (member : line ∈ lines text) : '\n' ∉ line := by
  fun_induction lines text generalizing line with
  | case1 => cases member
  | case2 rest ih =>
    rcases List.mem_cons.1 member with rfl | later
    · simp
    · exact ih later
  | case3 rest _ ih =>
    rcases List.mem_cons.1 member with rfl | later
    · simp
    · exact ih later
  | case4 c rest _ different found ih =>
    obtain rfl := List.mem_singleton.1 member
    simpa using Ne.symm different
  | case5 c rest _ different first more found ih =>
    rw [found] at ih
    rcases List.mem_cons.1 member with rfl | later
    · simpa [Ne.symm different] using ih List.mem_cons_self
    · exact ih (List.mem_cons_of_mem first later)

end Text

namespace Script

open Rollout.Text Statement

/-! ### The first failure of a check -/

/-- The error is for the first of the texts, which are numbered from `number` on, that fails the check. -/
def FirstFault {α : Type} (check : List Char → Except Fault α) (number : Nat) (texts : List (List Char))
    (error : GrammarError) : Prop :=
  ∃ before line after, texts = before ++ line :: after ∧ error.line = number + before.length ∧
    check line = .error error.fault ∧ ∀ text ∈ before, ∃ said, check text = .ok said

section Checks

variable {α : Type} {check : List Char → Except Fault α} {number : Nat} {text : List Char}
  {rest : List (List Char)} {error : GrammarError}

theorem not_firstFault_nil : ¬ FirstFault check number [] error := by
  rintro ⟨before, line, after, split, -⟩
  cases before <;> cases split

theorem firstFault_of_error {fault : Fault} (fails : check text = .error fault) :
    FirstFault check number (text :: rest) error ↔ error = { fault, line := number } := by
  constructor
  · rintro ⟨before, line, after, split, counted, refused, passed⟩
    cases before with
    | nil =>
      cases split
      rw [fails] at refused
      cases refused
      obtain ⟨fault, line⟩ := error
      simpa using counted
    | cons first more =>
      cases split
      obtain ⟨said, passes⟩ := passed text List.mem_cons_self
      rw [fails] at passes
      cases passes
  · rintro rfl
    exact ⟨[], text, rest, rfl, rfl, fails, by simp⟩

theorem firstFault_of_ok {said : α} (passes : check text = .ok said) :
    FirstFault check number (text :: rest) error ↔ FirstFault check (number + 1) rest error := by
  constructor
  · rintro ⟨before, line, after, split, counted, refused, passed⟩
    cases before with
    | nil =>
      cases split
      rw [passes] at refused
      cases refused
    | cons first more =>
      cases split
      refine ⟨more, line, after, rfl, ?_, refused, fun text member => passed text (List.mem_cons_of_mem _ member)⟩
      rw [counted, List.length_cons]
      omega
  · rintro ⟨before, line, after, rfl, counted, refused, passed⟩
    refine ⟨text :: before, line, after, rfl, ?_, refused, List.forall_mem_cons.2 ⟨⟨said, passes⟩, passed⟩⟩
    rw [counted, List.length_cons]
    omega

end Checks

/-! ### The two passes -/

/-- What a line asks for once it is split: an action or nothing. -/
def actionOn (line : List Char) : Except Fault (Option Action) :=
  (ofLine line).bind fun stated =>
    match stated with
    | none => .ok none
    | some (keyword, arguments) => (Action.ofArguments keyword arguments).map some

section Passes

variable {number : Nat} {texts : List (List Char)} {statements : List Statement} {error : GrammarError}

theorem ofLines_eq_error_iff : ofLines number texts = .error error ↔ FirstFault ofLine number texts error := by
  induction texts generalizing number with
  | nil => exact ⟨nofun, fun first => absurd first not_firstFault_nil⟩
  | cons line rest ih =>
    rw [ofLines]
    cases states : ofLine line with
    | error fault => rw [firstFault_of_error states, Except.error.injEq, eq_comm]
    | ok stated =>
      rw [firstFault_of_ok states, ← ih]
      cases stated with
      | none => rfl
      | some pair => cases ofLines (number + 1) rest <;> simp [Except.map]

/-- Once all lines are split, the first fault is that of the first line that asks for no action. -/
theorem stepsOf_eq_error_iff (read : ofLines number texts = .ok statements) :
    stepsOf statements = .error error ↔ FirstFault actionOn number texts error := by
  induction texts generalizing number statements with
  | nil =>
    cases read
    exact ⟨nofun, fun first => absurd first not_firstFault_nil⟩
  | cons line rest ih =>
    rw [ofLines] at read
    split at read
    · cases read
    next states =>
      have passes : actionOn line = .ok none := by simp [actionOn, states, Except.bind]
      rw [firstFault_of_ok passes]
      exact ih read
    next keyword arguments states =>
      obtain ⟨later, readLater, rfl⟩ : ∃ later, ofLines (number + 1) rest = .ok later ∧
          { keyword, arguments, line := number } :: later = statements := by
        cases further : ofLines (number + 1) rest with
        | error => simp [further, Except.map] at read
        | ok later => exact ⟨later, rfl, by simpa [further, Except.map] using read⟩
      have asks : actionOn line = (Action.ofArguments keyword arguments).map some := by
        simp [actionOn, states, Except.bind]
      rw [stepsOf, Step.ofStatement]
      cases made : Action.ofArguments keyword arguments with
      | error fault =>
        have fails : actionOn line = .error fault := by rw [asks, made]; rfl
        rw [firstFault_of_error fails, Except.error.injEq, eq_comm]
      | ok action =>
        have passes : actionOn line = .ok (some action) := by rw [asks, made]; rfl
        rw [firstFault_of_ok passes, ← ih readLater]
        cases stepsOf later <;> simp [Except.map]

theorem passes_of_ofLines (read : ofLines number texts = .ok statements) :
    ∀ text ∈ texts, ∃ stated, ofLine text = .ok stated := by
  induction texts generalizing number statements with
  | nil => simp
  | cons line rest ih =>
    rw [ofLines] at read
    split at read
    · cases read
    next states => exact List.forall_mem_cons.2 ⟨⟨_, states⟩, ih read⟩
    next states =>
      cases further : ofLines (number + 1) rest with
      | error => simp [further, Except.map] at read
      | ok later => exact List.forall_mem_cons.2 ⟨⟨_, states⟩, ih further⟩

/-- A text is refused in the first pass or, if that leaves no line out, in the second. -/
theorem parse_eq_error_iff {source : String} : parse source = .error error ↔
    FirstFault ofLine 1 (lines source.toList) error ∨
      (∀ text ∈ lines source.toList, ∃ stated, ofLine text = .ok stated) ∧
        FirstFault actionOn 1 (lines source.toList) error := by
  rw [parse, ofSource, ← ofLines_eq_error_iff]
  cases read : ofLines 1 (lines source.toList) with
  | error found =>
    obtain ⟨before, line, after, split, -, fails, -⟩ := ofLines_eq_error_iff.1 read
    have unpassed : ¬ ∀ text ∈ lines source.toList, ∃ stated, ofLine text = .ok stated := by
      intro passed
      obtain ⟨stated, states⟩ := passed line (by simp [split])
      rw [states] at fails
      cases fails
    simp [unpassed]
  | ok statements =>
    rw [← stepsOf_eq_error_iff read]
    have passed := passes_of_ofLines read
    cases made : stepsOf statements with
    | error found => simpa [made, Except.map] using fun _ => passed
    | ok steps => simp [made, Except.map]

end Passes

/-! ### Lines alone -/

/-- Standing alone, the line is split into statements. -/
def Splits (line : List Char) : Prop :=
  ∃ statements, ofSource (String.ofList line) = .ok statements

/-- Standing alone, the line is a script. -/
def Parses (line : List Char) : Prop :=
  ∃ script, parse (String.ofList line) = .ok script

section Alone

variable {line : List Char} {fault : Fault}

theorem ofSource_alone (oneLine : '\n' ∉ line) : ofSource (String.ofList line) = ofLines 1 [line] := by
  rw [ofSource_eq, String.toList_ofList, splitOn_of_not_mem oneLine]

theorem splits_iff (oneLine : '\n' ∉ line) : Splits line ↔ ∃ stated, ofLine line = .ok stated := by
  rw [Splits, ofSource_alone oneLine, ofLines]
  cases ofLine line with
  | error => simp
  | ok stated => cases stated <;> simp [ofLines, Except.map]

theorem parse_alone (oneLine : '\n' ∉ line) : parse (String.ofList line) =
    match actionOn line with
    | .error fault => .error { fault, line := 1 }
    | .ok action => .ok { steps := stepAt 1 action } := by
  rw [parse, ofSource_alone oneLine, ofLines, actionOn]
  cases ofLine line with
  | error => rfl
  | ok stated =>
    cases stated with
    | none => rfl
    | some pair =>
      obtain ⟨keyword, arguments⟩ := pair
      simp only [ofLines, Except.map, Except.bind, stepsOf, Step.ofStatement]
      cases Action.ofArguments keyword arguments <;> rfl

theorem parses_iff (oneLine : '\n' ∉ line) : Parses line ↔ ∃ action, actionOn line = .ok action := by
  rw [Parses, parse_alone oneLine]
  cases actionOn line <;> simp

theorem parse_alone_eq_error_iff (oneLine : '\n' ∉ line) :
    parse (String.ofList line) = .error { fault, line := 1 } ↔ actionOn line = .error fault := by
  rw [parse_alone oneLine]
  cases actionOn line <;> simp

theorem actionOn_of_ofLine (fails : ofLine line = .error fault) : actionOn line = .error fault := by
  rw [actionOn, fails]
  rfl

end Alone

section Lines

variable {texts : List (List Char)} {error : GrammarError}

/-- The first fault of the first pass, seen from the lines alone. -/
theorem firstFault_ofLine_iff (oneLine : ∀ text ∈ texts, '\n' ∉ text) : FirstFault ofLine 1 texts error ↔
    ∃ before line after, texts = before ++ line :: after ∧ error.line = before.length + 1 ∧
      parse (String.ofList line) = .error { error with line := 1 } ∧ ¬ Splits line ∧
        ∀ text ∈ before, Splits text := by
  refine exists_congr fun before => exists_congr fun line => exists_congr fun after => and_congr_right fun split => ?_
  subst split
  obtain ⟨linesBefore, rest⟩ := List.forall_mem_append.1 oneLine
  have here : '\n' ∉ line := rest line List.mem_cons_self
  have passed : (∀ text ∈ before, ∃ said, ofLine text = .ok said) ↔ ∀ text ∈ before, Splits text :=
    forall₂_congr fun text member => (splits_iff (linesBefore text member)).symm
  rw [Nat.add_comm 1, passed, parse_alone_eq_error_iff here, splits_iff here]
  cases states : ofLine line with
  | error fault => simp [actionOn_of_ofLine states]
  | ok stated => simp

/-- The first fault of the second pass, seen from the lines alone. -/
theorem firstFault_actionOn_iff (oneLine : ∀ text ∈ texts, '\n' ∉ text) : FirstFault actionOn 1 texts error ↔
    ∃ before line after, texts = before ++ line :: after ∧ error.line = before.length + 1 ∧
      parse (String.ofList line) = .error { error with line := 1 } ∧ ∀ text ∈ before, Parses text := by
  refine exists_congr fun before => exists_congr fun line => exists_congr fun after => and_congr_right fun split => ?_
  subst split
  obtain ⟨linesBefore, rest⟩ := List.forall_mem_append.1 oneLine
  have passed : (∀ text ∈ before, ∃ action, actionOn text = .ok action) ↔ ∀ text ∈ before, Parses text :=
    forall₂_congr fun text member => (parses_iff (linesBefore text member)).symm
  rw [Nat.add_comm 1, passed, parse_alone_eq_error_iff (rest line List.mem_cons_self)]

end Lines

/-- A text is refused exactly for one of its lines, with the number of that line and with what the line gives
when it stands alone. This is the first line that cannot be split into a statement alone, and if there is none, the
first that is no script alone. -/
theorem refused_for_line (source : String) (error : GrammarError) : parse source = .error error ↔
    ∃ before line after, lines source.toList = before ++ line :: after ∧ error.line = before.length + 1 ∧
      parse (String.ofList line) = .error { error with line := 1 } ∧
      ((¬ Splits line ∧ ∀ text ∈ before, Splits text) ∨
        (∀ text ∈ lines source.toList, Splits text) ∧ ∀ text ∈ before, Parses text) := by
  have oneLine : ∀ text ∈ lines source.toList, '\n' ∉ text := fun text member => newline_not_mem_lines member
  have passes : (∀ text ∈ lines source.toList, ∃ stated, ofLine text = .ok stated) ↔
      ∀ text ∈ lines source.toList, Splits text :=
    forall₂_congr fun text member => (splits_iff (oneLine text member)).symm
  rw [parse_eq_error_iff, firstFault_ofLine_iff oneLine, firstFault_actionOn_iff oneLine, passes]
  constructor
  · rintro (⟨before, line, after, split, counted, refused, first⟩ |
      ⟨splits, before, line, after, split, counted, refused, parsed⟩)
    · exact ⟨before, line, after, split, counted, refused, .inl first⟩
    · exact ⟨before, line, after, split, counted, refused, .inr ⟨splits, parsed⟩⟩
  · rintro ⟨before, line, after, split, counted, refused, first | ⟨splits, parsed⟩⟩
    · exact .inl ⟨before, line, after, split, counted, refused, first⟩
    · exact .inr ⟨splits, before, line, after, split, counted, refused, parsed⟩

/-- A line of the wrong shape is not reported before a line below it that cannot be split. -/
theorem refused_for_later_line : ¬ ∀ source error, parse source = .error error →
    ∃ before line after, lines (String.toList source) = before ++ line :: after ∧ error.line = before.length + 1 ∧
      parse (String.ofList line) = .error { error with line := 1 } ∧ ∀ text ∈ before, Parses text := by
  intro first
  obtain ⟨before, line, after, split, counted, -, parsed⟩ :=
    first "COPY a\nrun ls" { fault := .notAKeyword "run", line := 2 } (by rfl)
  obtain ⟨only, rfl⟩ := List.length_eq_one_iff.1 (Nat.succ.inj counted).symm
  have shorter : only = "COPY a".toList := by
    have whole : ["COPY a".toList, "run ls".toList] = [only] ++ line :: after := split
    simpa using (List.cons.inj whole).1.symm
  obtain ⟨script, read⟩ := parsed only List.mem_cons_self
  have refused : parse "COPY a" = .error { fault := .exactly .copy 2 1, line := 1 } := by rfl
  rw [shorter, String.ofList_toList, refused] at read
  cases read

end Script

end Rollout

import Rollout.Proofs.Paths
import Rollout.Proofs.Reading

/-!
# A script is read line by line

Between two line feeds stands what one line says, and nothing else has a part in it: neither the lines
around it nor the carriage return before its end. So the script of two texts, one after the other, is the
script of the first and then that of the second, numbered on, and it is refused if one of the two is.
-/

namespace Rollout

namespace Text

/-- A line without the carriage return that belongs to its ending. -/
def withoutReturn : List Char → List Char
  | [] => []
  | ['\r'] => []
  | c :: rest => c :: withoutReturn rest

/-- The lines of a text that is cut at its line feeds: each without its carriage return, and the last one
only if something stands on it. -/
def linesOf : List (List Char) → List (List Char)
  | [] => []
  | [last] => if last.isEmpty then [] else [last]
  | piece :: next :: rest => withoutReturn piece :: linesOf (next :: rest)

theorem withoutReturn_cons {c : Char} {rest : List Char} (goesOn : c = '\r' → rest ≠ []) :
    withoutReturn (c :: rest) = c :: withoutReturn rest := by
  rw [withoutReturn]
  intro same empty
  exact goesOn same empty

theorem withoutReturn_eq (line : List Char) :
    withoutReturn line = line ∨ line = withoutReturn line ++ ['\r'] := by
  fun_induction withoutReturn line with
  | case1 => exact .inl rfl
  | case2 => exact .inr rfl
  | case3 c rest _ ih =>
    rcases ih with same | ends
    · exact .inl (by rw [same])
    · exact .inr (by rw [List.cons_append, ← ends])

theorem splitOn_newline (rest : List Char) : splitOn '\n' ('\n' :: rest) = [] :: splitOn '\n' rest := by
  simp [splitOn]

/-- One more character before a text belongs to its first line, but for a carriage return right before a
line feed. -/
theorem linesOf_cons {c : Char} {rest : List Char} (different : c ≠ '\n')
    (goesOn : ∀ later, c = '\r' → rest = '\n' :: later → False) :
    linesOf (splitOn '\n' (c :: rest)) =
      match linesOf (splitOn '\n' rest) with
      | [] => [[c]]
      | line :: more => (c :: line) :: more := by
  obtain ⟨piece, more, split⟩ := List.exists_cons_of_ne_nil (splitOn_ne_nil '\n' rest)
  have cut : splitOn '\n' (c :: rest) = (c :: piece) :: more := by
    simp [splitOn, different, split]
  rw [cut, split]
  cases more with
  | nil => cases piece <;> rfl
  | cons next others =>
    have kept : withoutReturn (c :: piece) = c :: withoutReturn piece := by
      apply withoutReturn_cons
      rintro same rfl
      have whole := joinWith_splitOn '\n' rest
      rw [split] at whole
      exact goesOn _ same whole.symm
    rw [linesOf, linesOf, kept]

theorem length_splitOn (mark : Char) (text : List Char) :
    (splitOn mark text).length = text.count mark + 1 := by
  induction text with
  | nil => rfl
  | cons c rest ih =>
    obtain ⟨piece, more, split⟩ := List.exists_cons_of_ne_nil (splitOn_ne_nil mark rest)
    rw [split] at ih
    by_cases same : c = mark
    · simpa [splitOn, same, split] using ih
    · simpa [splitOn, same, split] using ih

theorem lines_eq (text : List Char) : lines text = linesOf (splitOn '\n' text) := by
  fun_induction lines text with
  | case1 => rfl
  | case2 rest ih =>
    obtain ⟨piece, more, split⟩ := List.exists_cons_of_ne_nil (splitOn_ne_nil '\n' rest)
    have cut : splitOn '\n' ('\r' :: '\n' :: rest) = ['\r'] :: piece :: more := by
      simp [splitOn, split]
    rw [cut, ih, split]
    rfl
  | case3 rest _ ih =>
    obtain ⟨piece, more, split⟩ := List.exists_cons_of_ne_nil (splitOn_ne_nil '\n' rest)
    rw [splitOn_newline, ih, split]
    rfl
  | case4 c rest goesOn different found ih => rw [linesOf_cons different goesOn, ← ih, found]
  | case5 c rest goesOn different line more found ih =>
    rw [linesOf_cons different goesOn, ← ih, found]

end Text

namespace Script

open Rollout.Text

namespace Statement

variable {c : Char} {quote : Option Char} {token line : List Char}

/-- A blank at the end of a line belongs to no token. -/
theorem tokensFrom_concat_blank (blank : isBlank c = true)
    (inside : ∀ q, quote = some q → isQuote q = true) :
    tokensFrom quote token (line ++ [c]) = tokensFrom quote token line := by
  have unescaped {d : Char} {rest : List Char} (escapes : ∀ later, d = '\\' → rest = '#' :: later → False) :
      d = '\\' → (rest ++ [c]).head? ≠ some '#' := by
    intro backslash
    cases rest with
    | nil =>
      rintro ⟨⟩
      cases blank
    | cons e more => exact fun sharp => escapes more backslash (by simpa using sharp)
  fun_induction tokensFrom quote token line with
  | case1 token =>
    rw [List.nil_append, tokensFrom_blank blank]
    simp [tokensFrom, endToken]
  | case2 q token =>
    have different : c ≠ q := by
      rintro rfl
      simp [isBlank_of_isQuote (inside c rfl)] at blank
    simp [tokensFrom, different]
  | case3 q token d rest ih =>
    rw [List.cons_append, tokensFrom]
    apply ih
    intro q' same
    split at same
    · cases same
    · exact inside q' same
  | case4 token rest ih => exact ih (by simp)
  | case5 token d rest escapes sharp =>
    rw [List.cons_append, tokensFrom_cons (unescaped escapes), if_pos sharp]
  | case6 token d rest escapes notSharp quotes ih =>
    rw [List.cons_append, tokensFrom_cons (unescaped escapes), if_neg notSharp, if_pos quotes]
    exact ih (by simpa using quotes)
  | case7 token d rest escapes notSharp notQuote between ih =>
    rw [List.cons_append, tokensFrom_cons (unescaped escapes), if_neg notSharp, if_neg notQuote,
      if_pos between, ih (by simp)]
  | case8 token d rest escapes notSharp notQuote notBlank ih =>
    rw [List.cons_append, tokensFrom_cons (unescaped escapes), if_neg notSharp, if_neg notQuote,
      if_neg notBlank]
    exact ih (by simp)

theorem isComment_concat_blank (blank : isBlank c = true) : isComment (line ++ [c]) = isComment line := by
  induction line with
  | nil =>
    have gone : trimStart [c] = [] := List.dropWhile_cons_of_pos blank
    rw [isComment, List.nil_append, gone]
    rfl
  | cons d rest ih =>
    unfold isComment trimStart at ih ⊢
    rw [List.cons_append]
    cases first : isBlank d with
    | true => rw [List.dropWhile_cons_of_pos first, List.dropWhile_cons_of_pos first, ih]
    | false =>
      rw [List.dropWhile_cons_of_neg (by simp [first]), List.dropWhile_cons_of_neg (by simp [first])]
      rfl

/-- A blank at the end of a line changes nothing of what the line states. -/
theorem ofLine_concat_blank (blank : isBlank c = true) : ofLine (line ++ [c]) = ofLine line := by
  rw [ofLine, ofLine, isComment_concat_blank blank, Statement.tokens, Statement.tokens,
    tokensFrom_concat_blank blank (by simp)]

theorem ofLine_withoutReturn (line : List Char) : ofLine (withoutReturn line) = ofLine line := by
  rcases withoutReturn_eq line with same | ends
  · rw [same]
  · rw [ends, ofLine_concat_blank rfl, ← ends]

/-- The carriage returns before line feeds and an empty text after the last one say nothing. -/
theorem ofLines_linesOf (number : Nat) (pieces : List (List Char)) :
    ofLines number (linesOf pieces) = ofLines number pieces := by
  fun_induction linesOf pieces generalizing number with
  | case1 => rfl
  | case2 last empty =>
    obtain rfl : last = [] := by simpa using empty
    rfl
  | case3 last written => rfl
  | case4 piece next rest ih => simp only [ofLines, ofLine_withoutReturn, ih]

/-- The statements of a script are those of the texts between its line feeds. -/
theorem ofSource_eq (source : String) :
    ofSource source = ofLines 1 (splitOn '\n' source.toList) := by
  rw [ofSource, lines_eq, ofLines_linesOf]

end Statement

/-- What a line asks for: an action or nothing. `none` if the line has a fault. -/
def actionOf (line : List Char) : Option (Option Action) :=
  match Statement.ofLine line with
  | .error _ => none
  | .ok none => some none
  | .ok (some (keyword, arguments)) => (Action.ofArguments keyword arguments).toOption.map some

def stepAt (line : Nat) (action : Option Action) : List Step :=
  action.toList.map fun action => { action, line }

/-- The steps of lines that are numbered from `number` on, if none of the lines has a fault. -/
def stepsFrom (number : Nat) : List (List Char) → Option (List Step)
  | [] => some []
  | line :: rest => (actionOf line).bind fun action => (stepsFrom (number + 1) rest).map (stepAt number action ++ ·)

def Step.below (lines : Nat) (step : Step) : Step :=
  { step with line := step.line + lines }

/-- Whether a script is refused, and which steps it has if not, comes out the same if every line is looked
into as soon as it is split. -/
theorem stepsOf_ofLines (number : Nat) (pieces : List (List Char)) :
    ((Statement.ofLines number pieces).bind stepsOf).toOption = stepsFrom number pieces := by
  induction pieces generalizing number with
  | nil => rfl
  | cons line rest ih =>
    rw [Statement.ofLines, stepsFrom, actionOf, ← ih (number + 1)]
    cases Statement.ofLine line with
    | error fault => rfl
    | ok stated =>
      cases stated with
      | none => simp [stepAt]
      | some pair =>
        obtain ⟨keyword, arguments⟩ := pair
        -- The later lines are split first, so a fault in them is found before one in the arguments.
        cases Statement.ofLines (number + 1) rest with
        | error =>
          simp [Except.map, Except.bind, Except.toOption]
        | ok statements =>
          cases made : Action.ofArguments keyword arguments with
          | error => simp [Except.map, Except.bind, Except.toOption, stepsOf, Step.ofStatement, made]
          | ok action =>
            simp only [Except.map, Except.bind, stepsOf, Step.ofStatement, made]
            cases stepsOf statements <;> rfl

/-- A script is accepted exactly if no line has a fault, and its steps are those of the lines. -/
theorem parse_eq_ok_iff {source : String} {script : Script} :
    parse source = .ok script ↔ stepsFrom 1 (splitOn '\n' source.toList) = some script.steps := by
  rw [← stepsOf_ofLines, ← Statement.ofSource_eq, parse]
  cases Statement.ofSource source with
  | error => simp [Except.bind, Except.toOption]
  | ok statements =>
    obtain ⟨steps⟩ := script
    cases made : stepsOf statements <;> simp [Except.bind, Except.toOption, Except.map, made]

section Lines

variable {number : Nat} {pieces : List (List Char)} {steps : List Step}

theorem stepsFrom_append (number : Nat) (first second : List (List Char)) :
    stepsFrom number (first ++ second) =
      (stepsFrom number first).bind fun before =>
        (stepsFrom (number + first.length) second).map (before ++ ·) := by
  induction first generalizing number with
  | nil => simp [stepsFrom]
  | cons line rest ih =>
    have next : number + 1 + rest.length = number + (line :: rest).length := by
      simp only [List.length_cons]
      omega
    rw [List.cons_append, stepsFrom, stepsFrom, ih, next]
    cases actionOf line with
    | none => rfl
    | some action =>
      simp [Option.map_bind, Option.bind_map, Function.comp_def]

theorem stepsFrom_add (number lines : Nat) (pieces : List (List Char)) :
    stepsFrom (number + lines) pieces = (stepsFrom number pieces).map (List.map (Step.below lines)) := by
  induction pieces generalizing number with
  | nil => rfl
  | cons line rest ih =>
    rw [stepsFrom, stepsFrom, Nat.add_right_comm, ih]
    cases actionOf line with
    | none => rfl
    | some action => simp [stepAt, Step.below, Function.comp_def]

/-- The steps of a line and of the lines after it. -/
theorem stepsFrom_cons {line : List Char} (read : stepsFrom number (line :: pieces) = some steps) :
    ∃ action later, actionOf line = some action ∧ stepsFrom (number + 1) pieces = some later ∧
      steps = stepAt number action ++ later := by
  obtain ⟨action, said, found⟩ := Option.bind_eq_some_iff.1 read
  obtain ⟨later, inner, rfl⟩ := Option.map_eq_some_iff.1 found
  exact ⟨action, later, said, inner, rfl⟩

theorem mem_stepAt_iff {line : Nat} {action : Option Action} {step : Step} :
    step ∈ stepAt line action ↔ step.line = line ∧ action = some step.action := by
  obtain ⟨asked, written⟩ := step
  simp only [stepAt, List.mem_map, Option.mem_toList, Step.mk.injEq]
  constructor
  · rintro ⟨_, rfl, rfl, rfl⟩
    exact ⟨rfl, rfl⟩
  · rintro ⟨rfl, rfl⟩
    exact ⟨asked, rfl, rfl, rfl⟩

/-- A step is there for each line that asks for one, with the line's number. -/
theorem mem_stepsFrom_iff (read : stepsFrom number pieces = some steps) (step : Step) :
    step ∈ steps ↔ number ≤ step.line ∧
      ∃ line, pieces[step.line - number]? = some line ∧ actionOf line = some (some step.action) := by
  induction pieces generalizing number steps with
  | nil =>
    cases read
    simp
  | cons line rest ih =>
    obtain ⟨action, later, said, inner, rfl⟩ := stepsFrom_cons read
    rw [List.mem_append, mem_stepAt_iff, ih inner]
    rcases Nat.lt_trichotomy step.line number with before | here | after
    · omega
    · subst here
      have passed : ¬ step.line + 1 ≤ step.line := by omega
      simp [said, passed]
    · have next : step.line - number = step.line - (number + 1) + 1 := by omega
      rw [next, List.getElem?_cons_succ]
      have apart : step.line ≠ number := by omega
      simp [apart, Nat.le_of_lt after, Nat.succ_le_of_lt after]

theorem ascending_stepsFrom (read : stepsFrom number pieces = some steps) :
    steps.Pairwise fun first second => first.line < second.line := by
  induction pieces generalizing number steps with
  | nil =>
    cases read
    exact .nil
  | cons line rest ih =>
    obtain ⟨action, later, said, inner, rfl⟩ := stepsFrom_cons read
    have below : ∀ step ∈ later, number < step.line := fun step member =>
      ((mem_stepsFrom_iff inner step).1 member).1
    cases action with
    | none => exact ih inner
    | some action => exact List.pairwise_cons.2 ⟨below, ih inner⟩

end Lines

theorem parse_eq_ok (source : String) :
    (∃ script, parse source = .ok script) ↔
      ∃ steps, stepsFrom 1 (splitOn '\n' source.toList) = some steps := by
  constructor
  · rintro ⟨script, read⟩
    exact ⟨script.steps, parse_eq_ok_iff.1 read⟩
  · rintro ⟨steps, read⟩
    exact ⟨{ steps }, parse_eq_ok_iff.2 read⟩

/-- What two texts with a line feed between them say is said by the first and then by the second. -/
theorem stepsFrom_joined (first second : String) :
    stepsFrom 1 (splitOn '\n' (first ++ "\n" ++ second).toList) =
      (stepsFrom 1 (splitOn '\n' first.toList)).bind fun before =>
        (stepsFrom 1 (splitOn '\n' second.toList)).map fun after =>
          before ++ after.map (Step.below (first.toList.count '\n' + 1)) := by
  have joined : (first ++ "\n" ++ second).toList = first.toList ++ '\n' :: second.toList := by simp
  rw [joined, splitOn_append_mark, stepsFrom_append, length_splitOn, stepsFrom_add]
  simp [Function.comp_def]

/-- A line alone is a script of one step, if it asks for one. -/
theorem parse_line_iff {line : List Char} (oneLine : '\n' ∉ line) {action : Action} :
    parse (String.ofList line) = .ok { steps := [{ action, line := 1 }] } ↔
      actionOf line = some (some action) := by
  rw [parse_eq_ok_iff, String.toList_ofList, splitOn_of_not_mem oneLine]
  cases said : actionOf line with
  | none => simp [stepsFrom, said]
  | some asked => cases asked <;> simp [stepsFrom, said, stepAt]

/-- The script of two texts with a line feed between them is the script of the first and then that of the
second, whose lines are counted on, and it is refused exactly if one of the two is. In a script every step
has the number of its line, later steps have greater numbers, and a step is there for just those lines that
ask for it when they stand alone. -/
theorem parse_linewise :
    (∀ first second : String,
      ((∃ script, parse (first ++ "\n" ++ second) = .ok script) ↔
        (∃ script, parse first = .ok script) ∧ ∃ script, parse second = .ok script) ∧
      ∀ before after, parse first = .ok before → parse second = .ok after →
        parse (first ++ "\n" ++ second) =
          .ok { steps := before.steps ++
            after.steps.map (Step.below (first.toList.count '\n' + 1)) }) ∧
    ∀ source script, parse source = .ok script →
      script.steps.Pairwise (fun first second => first.line < second.line) ∧
      ∀ step, step ∈ script.steps ↔ 0 < step.line ∧
        ∃ text, (splitOn '\n' source.toList)[step.line - 1]? = some text ∧
          parse (String.ofList text) = .ok { steps := [{ step with line := 1 }] } := by
  refine ⟨fun first second => ⟨?_, fun before after readFirst readSecond => ?_⟩, fun source script read => ?_⟩
  · simp only [parse_eq_ok, stepsFrom_joined]
    cases stepsFrom 1 (splitOn '\n' first.toList) <;>
      cases stepsFrom 1 (splitOn '\n' second.toList) <;> simp
  · rw [parse_eq_ok_iff] at readFirst readSecond ⊢
    rw [stepsFrom_joined, readFirst, readSecond]
    rfl
  · rw [parse_eq_ok_iff] at read
    refine ⟨ascending_stepsFrom read, fun step => ?_⟩
    rw [mem_stepsFrom_iff read step]
    have alone (text : List Char) (found : (splitOn '\n' source.toList)[step.line - 1]? = some text) :
        parse (String.ofList text) = .ok { steps := [{ step with line := 1 }] } ↔
          actionOf text = some (some step.action) :=
      parse_line_iff (not_mem_of_mem_splitOn (List.mem_of_getElem? found))
    constructor
    · rintro ⟨counted, text, found, asked⟩
      exact ⟨counted, text, found, (alone text found).2 asked⟩
    · rintro ⟨counted, text, found, asked⟩
      exact ⟨counted, text, found, (alone text found).1 asked⟩

/-- A line that ends with a carriage return, an empty line, and a comment with an open quote. -/
theorem parse_linewise_returns :
    ∃ before after, parse "RUN a\r" = .ok before ∧ parse "\n# it's\nCD b" = .ok after ∧
      parse ("RUN a\r" ++ "\n" ++ "\n# it's\nCD b") =
        .ok { steps := before.steps ++ after.steps.map (Step.below 1) } ∧
      (before.steps ++ after.steps.map (Step.below 1)).Pairwise
        (fun first second => first.line < second.line) := by
  have first : parse "RUN a\r" = .ok { steps := [{ action := .run "a", line := 1 }] } := by rfl
  have second : parse "\n# it's\nCD b" = .ok { steps := [{ action := .cd "b", line := 3 }] } := by rfl
  have whole := (parse_linewise.1 _ _).2 _ _ first second
  exact ⟨_, _, first, second, whole, (parse_linewise.2 _ _ whole).1⟩

end Script

end Rollout

import Rollout.Proofs.ByteOrder
import Rollout.Proofs.Linewise
import Rollout.Terminal.Prompt

/-!
# Answers from an input that is no terminal

Such an input is taken in blocks and used line by line. However the blocks fall, the next answer comes from the
first line that was not used yet, and the lines after it stay as they are. At the end of the input there is still
an answer, an empty one, and of a line not only its ending is cut off but every carriage return before it.
-/

namespace Rollout.Terminal

open Rollout.Text (decode? bytesOf)

/-- The lines of the bytes, each with the line feed that ends it. The last one may have none. -/
def inputLines : Bytes → List Bytes
  | [] => []
  | byte :: rest =>
    if byte = 10 then [10] :: inputLines rest
    else match inputLines rest with
      | [] => [[byte]]
      | line :: more => (byte :: line) :: more

/-- What the input still holds. -/
def Input.held (input : Input) : Bytes :=
  input.taken ++ input.waiting

section Lines

variable {bytes : Bytes} {line : Bytes}

theorem firstLine_eq (bytes : Bytes) :
    (Input.firstLine bytes).1 = (inputLines bytes).head?.getD [] ∧
      inputLines (Input.firstLine bytes).2 = (inputLines bytes).tail := by
  induction bytes with
  | nil => exact ⟨rfl, rfl⟩
  | cons byte rest ih =>
    rw [Input.firstLine, inputLines]
    split
    · exact ⟨rfl, rfl⟩
    · cases lines : inputLines rest with
      | nil =>
        rw [lines] at ih
        simpa using ih
      | cons first more =>
        rw [lines] at ih
        simpa using ih

theorem firstLine_append {first : Bytes} (ended : 10 ∈ first) (later : Bytes) :
    Input.firstLine (first ++ later) = ((Input.firstLine first).1, (Input.firstLine first).2 ++ later) := by
  induction first with
  | nil => cases ended
  | cons byte rest ih =>
    rw [List.cons_append, Input.firstLine, Input.firstLine]
    split
    · rfl
    next different =>
      have inRest : 10 ∈ rest := by simpa [Ne.symm different] using ended
      rw [ih inRest]

/-- Taking blocks puts nothing away and leaves a whole line taken, if there is one. -/
theorem fill_spec (input : Input) :
    input.fill.held = input.held ∧ (10 ∈ input.fill.taken ∨ input.fill.waiting = []) := by
  fun_induction Input.fill input with
  | case1 input enough => exact ⟨rfl, by simpa using enough⟩
  | case2 input short ih =>
    obtain ⟨held, enough⟩ := ih
    refine ⟨held.trans ?_, enough⟩
    simp [Input.held]

/-- The next line is the first of those that are held, and the others stay. -/
theorem nextLine_spec (input : Input) :
    input.nextLine.1 = (inputLines input.held).head?.getD [] ∧
      inputLines input.nextLine.2.held = (inputLines input.held).tail := by
  obtain ⟨held, enough⟩ := fill_spec input
  have first : Input.firstLine input.held =
      ((Input.firstLine input.fill.taken).1, (Input.firstLine input.fill.taken).2 ++ input.fill.waiting) := by
    rw [← held, Input.held]
    rcases enough with ended | empty
    · exact firstLine_append ended _
    · simp [empty]
  obtain ⟨line, rest⟩ := firstLine_eq input.held
  rw [first] at line rest
  exact ⟨line, rest⟩

end Lines

/-- What a line is answered with, and the end of the input. -/
def answerTo : Option Bytes → Except IoError String
  | none => .ok ""
  | some line => (decode? line).elim (.error .invalidText) fun text => .ok (withoutEnd text)

theorem answerTo_eq (line : Option Bytes) :
    answerTo line = (decode? (line.getD [])).elim (.error .invalidText) fun text => .ok (withoutEnd text) := by
  cases line with
  | none =>
    have empty : decode? [] = some "" := by rfl
    rw [Option.getD_none, empty]
    rfl
  | some line => rfl

/-- The next answer is that of the first line that is held. -/
theorem readLine_spec (input : Input) :
    (readLine input).1 = answerTo (inputLines input.held).head? ∧
      inputLines (readLine input).2.held = (inputLines input.held).tail := by
  obtain ⟨line, rest⟩ := nextLine_spec input
  rw [answerTo_eq, ← line]
  unfold readLine
  rcases taken : input.nextLine with ⟨first, after⟩
  rw [taken] at rest
  dsimp only
  cases decode? first <;> exact ⟨rfl, rest⟩

/-! ### The ending of a line -/

/-- The characters without the ending of a line: a line feed, or a carriage return and a line feed. -/
def bare (line : List Char) : List Char :=
  if line.getLast? = some '\n' then Text.withoutReturn line.dropLast else line

def withoutEnding (line : String) : String :=
  String.ofList (bare line.toList)

section Endings

variable {chars : List Char} {text : String} {bytes line : Bytes}

/-- What is cut off of a line are the line feeds and carriage returns at its end. -/
def strip (chars : List Char) : List Char :=
  (chars.reverse.dropWhile fun c => c = '\n' || c = '\r').reverse

theorem strip_append {ending : List Char} (ends : ∀ c ∈ ending, c = '\n' ∨ c = '\r') (chars : List Char) :
    strip (chars ++ ending) = strip chars := by
  rw [strip, strip, List.reverse_append, List.dropWhile_append_of_pos (by simpa using ends)]

theorem strip_eq_self_iff (chars : List Char) :
    strip chars = chars ↔ ∀ c ∈ chars.getLast?, c ≠ '\n' ∧ c ≠ '\r' := by
  rw [strip, List.reverse_eq_iff, ← List.head?_reverse]
  cases chars.reverse with
  | nil => simp
  | cons c rest =>
    constructor
    · intro same
      have last := List.head?_dropWhile_not (fun c => decide (c = '\n') || decide (c = '\r')) (c :: rest)
      rw [same] at last
      simpa using last
    · intro kept
      exact List.dropWhile_cons_of_neg (by simpa using kept)

/-- A line is its characters without the ending, and the ending. -/
theorem bare_append (chars : List Char) :
    ∃ ending, chars = bare chars ++ ending ∧ ∀ c ∈ ending, c = '\n' ∨ c = '\r' := by
  unfold bare
  split
  next ended =>
    obtain ⟨before, rfl⟩ := List.getLast?_eq_some_iff.1 ended
    rw [List.dropLast_concat]
    rcases Text.withoutReturn_eq before with same | returns
    · exact ⟨['\n'], by rw [same], by simp⟩
    · refine ⟨['\r', '\n'], ?_, by simp⟩
      calc
        before ++ ['\n'] = Text.withoutReturn before ++ ['\r'] ++ ['\n'] := by rw [← returns]
        _ = Text.withoutReturn before ++ ['\r', '\n'] := by simp
  next => exact ⟨[], by simp, by simp⟩

/-- Without its ending a line has no line feed. -/
theorem newline_not_mem_bare (oneLine : '\n' ∉ chars.dropLast) : '\n' ∉ bare chars := by
  unfold bare
  split
  next ended =>
    intro member
    rcases Text.withoutReturn_eq chars.dropLast with same | returns
    · exact oneLine (same ▸ member)
    · exact oneLine (returns ▸ List.mem_append_left _ member)
  next unended =>
    intro member
    rcases List.eq_nil_or_concat chars with rfl | ⟨before, last, rfl⟩
    · cases member
    · rw [List.concat_eq_append, List.dropLast_concat] at oneLine
      rw [List.concat_eq_append, List.getLast?_concat] at unended
      rw [List.concat_eq_append, List.mem_append, List.mem_singleton] at member
      rcases member with before | rfl
      · exact oneLine before
      · exact unended rfl

/-- Only the ending is cut off of a line exactly if no carriage return stands before it. -/
theorem withoutEnd_eq_iff (oneLine : '\n' ∉ text.toList.dropLast) :
    withoutEnd text = withoutEnding text ↔ (withoutEnding text).toList.getLast? ≠ some '\r' := by
  obtain ⟨ending, whole, ends⟩ := bare_append text.toList
  have cut : strip text.toList = strip (bare text.toList) := by
    rw [whole, strip_append ends, ← whole]
  have noNewline := newline_not_mem_bare oneLine
  change String.ofList (strip text.toList) = String.ofList (bare text.toList) ↔
    (String.ofList (bare text.toList)).toList.getLast? ≠ some '\r'
  rw [String.ofList_inj, cut, strip_eq_self_iff, String.toList_ofList]
  constructor
  · intro kept last
    exact (kept _ last).2 rfl
  · intro other c last
    refine ⟨?_, fun same => other (same ▸ last)⟩
    rintro rfl
    exact noNewline (List.mem_of_getLast? last)

theorem bytesOf_of_decode? (read : decode? line = some text) : bytesOf text = line := by
  unfold decode? String.fromUTF8? at read
  split at read
  · cases read
    rfl
  · cases read

/-- In a line of the input no line feed stands but at its end. -/
theorem newline_not_mem_dropLast (among : line ∈ inputLines bytes) : 10 ∉ line.dropLast := by
  induction bytes generalizing line with
  | nil => cases among
  | cons byte rest ih =>
    rw [inputLines] at among
    split at among
    · rcases List.mem_cons.1 among with rfl | later
      · simp
      · exact ih later
    next different =>
      cases lines : inputLines rest with
      | nil =>
        simp only [lines, List.mem_singleton] at among
        simp [among]
      | cons first more =>
        simp only [lines, List.mem_cons] at among
        rcases among with rfl | later
        · have inside := ih (lines ▸ List.mem_cons_self)
          cases first with
          | nil => simp
          | cons second others => simpa [Ne.symm different] using inside
        · exact ih (lines ▸ List.mem_cons_of_mem first later)

theorem newline_not_mem_text (among : line ∈ inputLines bytes) (read : decode? line = some text) :
    '\n' ∉ text.toList.dropLast := by
  have written := bytesOf_of_decode? read
  rw [Text.bytesOf_eq_flatMap] at written
  intro member
  rcases List.eq_nil_or_concat text.toList with empty | ⟨before, last, whole⟩
  · simp [empty] at member
  · rw [whole, List.concat_eq_append] at written member
    rw [List.dropLast_concat] at member
    apply newline_not_mem_dropLast among
    rw [← written, List.flatMap_append, List.flatMap_singleton,
      List.dropLast_append_of_ne_nil String.utf8EncodeChar_ne_nil]
    exact List.mem_append_left _ (List.mem_flatMap.2 ⟨'\n', member, by decide⟩)

end Endings

end Rollout.Terminal

import Rollout.Machine.Shell
import Rollout.Proofs.Compounds

/-!
# What the shell comes to

A run of the shell is bounded, and a bound that is not reached does not show: what a command comes to is
what every run with enough room comes to. A list of commands comes to what its simple commands come to one
after the other, in the order in which a run of the list has them. Plain words are expanded to themselves, and
the name of a variable behind a dollar sign to the fields of its value, so a simple command of such words is
the shell's own command with these arguments.
-/

namespace Rollout.Machine.Interpreter

open Rollout.Shell (Word Mark Part Cell Redirect Command Executed Outcome Runs Spells bareWord IsVariable isNameChar
  isPlain)

/-- A command leads from a shell to another one, given room enough. -/
def Reaches (shell : Interpreter) (command : Command) (after : Interpreter) : Prop :=
  ∃ bound, ∀ fuel, bound ≤ fuel → eval fuel shell command = after

/-- Words are expanded to fields, given room enough, and nothing else comes of it. -/
def Expands (shell : Interpreter) (words : List Word) (fields : List String) : Prop :=
  ∃ bound, ∀ fuel, bound ≤ fuel → expandWords fuel shell words = (shell, fields)

theorem Reaches.unique {shell first second : Interpreter} {command : Command}
    (one : Reaches shell command first) (other : Reaches shell command second) : first = second := by
  obtain ⟨bound, one⟩ := one
  obtain ⟨limit, other⟩ := other
  rw [← one (max bound limit) (by omega), other (max bound limit) (by omega)]

/-- A shell that is stopped passes over every command. -/
theorem reaches_stopped {shell : Interpreter} (stopped : shell.stopped = true) (command : Command) :
    Reaches shell command shell := by
  refine ⟨1, fun fuel enough => ?_⟩
  obtain ⟨fuel, rfl⟩ : ∃ n, fuel = n + 1 := ⟨fuel - 1, by omega⟩
  cases command <;> rw [eval, if_pos stopped]

theorem Reaches.sequence {shell between after : Interpreter} {left right : Command}
    (first : Reaches shell left between) (second : Reaches between right after) :
    Reaches shell (.sequence left right) after := by
  cases running : shell.stopped with
  | true =>
    obtain rfl := (reaches_stopped running left).unique first
    obtain rfl := (reaches_stopped running right).unique second
    exact reaches_stopped running _
  | false =>
    obtain ⟨before, first⟩ := first
    obtain ⟨later, second⟩ := second
    refine ⟨max before later + 1, fun fuel enough => ?_⟩
    obtain ⟨fuel, rfl⟩ : ∃ n, fuel = n + 1 := ⟨fuel - 1, by omega⟩
    rw [eval, running]
    simp only [Bool.false_eq_true, if_false]
    rw [first fuel (by omega), second fuel (by omega)]

theorem expands_nil (shell : Interpreter) : Expands shell [] [] :=
  ⟨1, fun fuel enough => by
    obtain ⟨fuel, rfl⟩ : ∃ n, fuel = n + 1 := ⟨fuel - 1, by omega⟩
    rfl⟩

/-- A word whose parts are expanded to cells comes before the fields of the other words. -/
theorem Expands.cons {shell : Interpreter} {word : Word} {words : List Word} {cells : List Cell}
    {fields : List String} (own : word.parts ≠ allArguments)
    (here : ∃ bound, ∀ fuel, bound ≤ fuel → expand fuel shell word.parts = (shell, cells))
    (others : Expands shell words fields) :
    Expands shell (word :: words) (Shell.fields none cells ++ fields) := by
  obtain ⟨before, here⟩ := here
  obtain ⟨later, others⟩ := others
  refine ⟨max before later + 1, fun fuel enough => ?_⟩
  obtain ⟨fuel, rfl⟩ : ∃ n, fuel = n + 1 := ⟨fuel - 1, by omega⟩
  rw [expandWords, if_neg (by simp [own]), here fuel (by omega)]
  simp only [others fuel (by omega)]

/-- Carrying out a text is carrying out the command that it holds. -/
theorem Reaches.carryOut {shell after : Interpreter} {text : List Char} {command : Command}
    (running : shell.stopped = false) (parsed : Shell.parse text = some command)
    (reached : Reaches shell command after) :
    ∃ bound, ∀ fuel, bound ≤ fuel → shell.carryOut fuel text = after := by
  obtain ⟨bound, reached⟩ := reached
  refine ⟨bound + 1, fun fuel enough => ?_⟩
  obtain ⟨fuel, rfl⟩ : ∃ n, fuel = n + 1 := ⟨fuel - 1, by omega⟩
  have ended : shell.ended.isSome = false := (Bool.or_eq_false_iff.1 running).1
  rw [Interpreter.carryOut, parsed]
  simp only [ended, Bool.false_eq_true, if_false]
  exact reached fuel (by omega)

/-! ### Words that stand for themselves -/

/-- What a mark that nothing is left to be done with is a part of. -/
def partOf : Mark → Part
  | .char c _ => .char c
  | .quotes => .quotes

def cellOf : Mark → Cell
  | .char c _ => .char c false
  | .quotes => .quotes

theorem partsWithin_spells {word : Word} {text : List Char} (spells : Spells word text) {fuel : Nat}
    (enough : word.length ≤ fuel) : Shell.partsWithin fuel word = word.map partOf := by
  induction spells generalizing fuel with
  | nil => cases fuel <;> rfl
  | quotes _ ih | guarded _ _ ih =>
    obtain ⟨fuel, rfl⟩ : ∃ n, fuel = n + 1 := ⟨fuel - 1, by simp at enough; omega⟩
    have rest := ih (Nat.le_of_succ_le_succ enough)
    simp [Shell.partsWithin, rest, partOf]
  | @bare _ _ c inert _ ih =>
    obtain ⟨fuel, rfl⟩ : ∃ n, fuel = n + 1 := ⟨fuel - 1, by simp at enough; omega⟩
    have noDollar : c ≠ '$' := by rintro rfl; exact absurd inert (by decide)
    have noTick : c ≠ '\x60' := by rintro rfl; exact absurd inert (by decide)
    have rest := ih (Nat.le_of_succ_le_succ enough)
    simp [Shell.partsWithin, rest, partOf, noDollar, noTick]

theorem expand_parts (shell : Interpreter) (word : Word) {fuel : Nat} (enough : word.length < fuel) :
    expand fuel shell (word.map partOf) = (shell, word.map cellOf) := by
  induction word generalizing fuel with
  | nil =>
    obtain ⟨fuel, rfl⟩ : ∃ n, fuel = n + 1 := ⟨fuel - 1, by omega⟩
    rfl
  | cons mark word ih =>
    obtain ⟨fuel, rfl⟩ : ∃ n, fuel = n + 1 := ⟨fuel - 1, by omega⟩
    have rest := ih (Nat.lt_of_succ_lt_succ enough)
    cases mark <;> simp [expand, rest, partOf, cellOf]

/-- The cells of such a word go on with the field under way. -/
theorem fields_spells {word : Word} {text : List Char} (spells : Spells word text) (sofar : List Char) :
    Shell.fields (some sofar) (word.map cellOf) = [String.ofList (sofar.reverse ++ text)] := by
  induction spells generalizing sofar with
  | nil => simp [Shell.fields]
  | quotes _ ih => simpa [cellOf, Shell.fields] using ih sofar
  | guarded c _ ih | @bare _ _ c _ _ ih => simpa [cellOf, Shell.fields] using ih (c :: sofar)

/-- A word that spells a text is one field, the text. -/
theorem Expands.spells {shell : Interpreter} {word : Word} {text : List Char} {words : List Word}
    {fields : List String} (spells : Spells word text) (nonempty : word ≠ []) (others : Expands shell words fields) :
    Expands shell (word :: words) (String.ofList text :: fields) := by
  have parts : word.parts = word.map partOf := partsWithin_spells spells (Nat.le_refl _)
  have own : word.parts ≠ allArguments := by
    rw [parts]
    intro same
    have among : Part.parameter ['@'] true ∈ word.map partOf := by simp [same, allArguments]
    obtain ⟨mark, _, other⟩ := List.mem_map.1 among
    cases mark <;> cases other
  have here : ∃ bound, ∀ fuel, bound ≤ fuel → expand fuel shell word.parts = (shell, word.map cellOf) := by
    refine ⟨word.length + 1, fun fuel enough => ?_⟩
    rw [parts]
    exact expand_parts shell word enough
  have one : Shell.fields none (word.map cellOf) = [String.ofList text] := by
    cases spells with
    | nil => exact absurd rfl nonempty
    | quotes rest => simpa [cellOf, Shell.fields] using fields_spells rest []
    | guarded c rest | @bare _ _ c _ rest => simpa [cellOf, Shell.fields] using fields_spells rest [c]
  simpa only [one, List.singleton_append] using others.cons own here

/-- Characters at which no field ends make one field. -/
theorem fields_chars (text : List Char) (sofar : List Char) (splits : Char → Bool)
    (whole : ∀ c ∈ text, splits c = true → c ≠ ' ' ∧ c ≠ '\t' ∧ c ≠ '\n') :
    Shell.fields (some sofar) (text.map fun c => .char c (splits c)) =
      [String.ofList (sofar.reverse ++ text)] := by
  induction text generalizing sofar with
  | nil => simp [Shell.fields]
  | cons c text ih =>
    have rest := ih (c :: sofar) fun d member => whole d (by simp [member])
    have here := whole c (by simp)
    simp only [List.map_cons, Shell.fields]
    rw [if_neg (by simp; grind)]
    simp [rest]

theorem fields_none_chars {text : List Char} (nonempty : text ≠ []) (splits : Char → Bool)
    (whole : ∀ c ∈ text, splits c = true → c ≠ ' ' ∧ c ≠ '\t' ∧ c ≠ '\n') :
    Shell.fields none (text.map fun c => .char c (splits c)) = [String.ofList text] := by
  obtain ⟨c, rest, rfl⟩ := List.exists_cons_of_ne_nil nonempty
  have here := whole c (by simp)
  have more := fields_chars rest [c] splits fun d member => whole d (by simp [member])
  simp only [List.map_cons, Shell.fields]
  rw [if_neg (by simp; grind)]
  simpa using more

theorem not_blank_of_isPlain {c : Char} (plain : isPlain c = true) : c ≠ ' ' ∧ c ≠ '\t' ∧ c ≠ '\n' := by
  refine ⟨?_, ?_, ?_⟩ <;> rintro rfl <;> exact absurd plain (by decide)

/-- A plain word is one field. -/
theorem Expands.plain {shell : Interpreter} {text : List Char} {words : List Word} {fields : List String}
    (nonempty : text ≠ []) (plain : ∀ c ∈ text, isPlain c = true) (others : Expands shell words fields) :
    Expands shell (bareWord text :: words) (String.ofList text :: fields) :=
  .spells (Shell.spells_bareWord plain) (by simpa [bareWord] using nonempty) others

theorem expands_plain (shell : Interpreter) {words : List (List Char)}
    (plain : ∀ word ∈ words, word ≠ [] ∧ ∀ c ∈ word, isPlain c = true) :
    Expands shell (words.map bareWord) (words.map String.ofList) := by
  induction words with
  | nil => exact expands_nil shell
  | cons word words ih =>
    obtain ⟨nonempty, chars⟩ := plain word (by simp)
    exact .plain nonempty chars (ih fun other member => plain other (by simp [member]))

/-! ### Variables -/

theorem nameOf_bareWord {name : List Char} (chars : ∀ c ∈ name, isNameChar c = true) :
    Shell.nameOf (bareWord name) = name := by
  induction name with
  | nil => rfl
  | cons c name ih =>
    have here := chars c (by simp)
    have rest := ih fun d member => chars d (by simp [member])
    rw [bareWord] at rest ⊢
    simp [Shell.nameOf, here, rest]

theorem not_special_of_letter {c : Char} (named : isNameChar c = true) (letter : c.isDigit = false) :
    Shell.isSpecial c = false ∧ c ≠ '(' ∧ c ≠ '\x7b' := by
  refine ⟨?_, ?_, ?_⟩
  · rw [Shell.isSpecial, letter, Bool.false_or, Bool.eq_false_iff]
    intro among
    rw [List.contains_iff_mem] at among
    have noneName : "@*#?$!-".toList.all (!isNameChar ·) = true := by decide
    simpa [named] using List.all_eq_true.1 noneName c among
  · rintro rfl
    exact absurd named (by decide)
  · rintro rfl
    exact absurd named (by decide)

/-- A dollar sign and a name are a parameter. -/
theorem parts_variable {name : List Char} (isVariable : IsVariable name) :
    Word.parts (bareWord ('$' :: name)) = [.parameter name false] := by
  obtain ⟨c, rest, rfl⟩ := List.exists_cons_of_ne_nil isVariable.nonempty
  obtain ⟨special, notOpen, notBrace⟩ :=
    not_special_of_letter (isVariable.chars c (by simp)) (isVariable.letter c (by simp))
  have named := nameOf_bareWord isVariable.chars
  have part : Shell.dollarPart false (bareWord (c :: rest)) = (.parameter (c :: rest) false, []) := by
    rw [bareWord, List.map_cons] at named ⊢
    rw [Shell.dollarPart, named]
    · simp [special]
    all_goals grind
  have whole : Shell.partsWithin (rest.length + 2) (.char '$' .bare :: bareWord (c :: rest)) =
      [.parameter (c :: rest) false] := by
    simp [Shell.partsWithin, part]
  simpa [Word.parts, bareWord] using whole

/-- A variable's value: it stands among the bindings, or is exported. -/
theorem value_of_isVariable (shell : Interpreter) {name : List Char} (isVariable : IsVariable name) :
    shell.value (String.ofList name) = (shell.bindings.lookup (String.ofList name)).or
      (shell.machine.environment.lookup (String.ofList name)) := by
  obtain ⟨c, rest, rfl⟩ := List.exists_cons_of_ne_nil isVariable.nonempty
  have named := isVariable.chars c (by simp)
  have letter := isVariable.letter c (by simp)
  have number : natural? (c :: rest) = none := by simp [natural?, letter]
  have apart {sign : String} (d : Char) (spelled : sign.toList = [d])
      (other : isNameChar d = false ∨ d.isDigit = true) : String.ofList (c :: rest) ≠ sign := by
    rintro rfl
    have first := (List.cons.inj ((String.toList_ofList).symm.trans spelled)).1
    obtain unnamed | digit := other
    · exact absurd (first ▸ named) (by simp [unnamed])
    · exact absurd (first ▸ letter) (by simp [digit])
  rw [value, String.toList_ofList, number]
  · exact apart '?' (by decide) (by decide)
  · exact apart '#' (by decide) (by decide)
  · exact apart '$' (by decide) (by decide)
  · exact apart '0' (by decide) (by decide)
  · exact apart '@' (by decide) (by decide)
  · exact apart '*' (by decide) (by decide)
  · exact apart '-' (by decide) (by decide)
  · exact apart '!' (by decide) (by decide)

theorem braced_of_isVariable {name : List Char} (isVariable : IsVariable name) :
    braced name = (String.ofList name, [], []) := by
  obtain ⟨c, rest, rfl⟩ := List.exists_cons_of_ne_nil isVariable.nonempty
  have first : isNameChar c = true := isVariable.chars c (by simp)
  have whole : (c :: rest).takeWhile isNameChar = c :: rest := by
    have all : ((c :: rest) ++ []).takeWhile isNameChar = (c :: rest) ++ [].takeWhile isNameChar :=
      List.takeWhile_append_of_pos isVariable.chars
    simpa using all
  unfold braced
  simp only [first, if_true, whole, List.drop_length]
  rfl

/-- A dollar sign and a name are expanded to the fields of the variable's value. -/
theorem expands_variable (shell : Interpreter) {name : List Char} (isVariable : IsVariable name) :
    Expands shell [bareWord ('$' :: name)]
      (Shell.fields none (cellsOf false ((shell.value (String.ofList name)).getD ""))) := by
  have parts := parts_variable isVariable
  have own : Word.parts (bareWord ('$' :: name)) ≠ allArguments := by simp [parts, allArguments]
  have here : ∃ bound, ∀ fuel, bound ≤ fuel → expand fuel shell (Word.parts (bareWord ('$' :: name))) =
      (shell, cellsOf false ((shell.value (String.ofList name)).getD "")) := by
    refine ⟨2, fun fuel enough => ?_⟩
    obtain ⟨fuel, rfl⟩ : ∃ n, fuel = n + 2 := ⟨fuel - 2, by omega⟩
    rw [parts]
    simp [expand, braced_of_isVariable isVariable]
  simpa using (expands_nil shell).cons own here

/-- A value in which nothing splits is one field. -/
theorem fields_value {value : String} (nonempty : value ≠ "")
    (whole : ∀ c ∈ value.toList, c ≠ ' ' ∧ c ≠ '\t' ∧ c ≠ '\n') :
    Shell.fields none (cellsOf false value) = [value] := by
  have written : value.toList ≠ [] := by simpa using nonempty
  have one := fields_none_chars written (fun _ => true) fun c member _ => whole c member
  rw [String.ofList_toList] at one
  exact one

/-! ### The shell's own commands -/

theorem assignment?_bareWord {text : List Char} (plain : '=' ∉ text) : assignment? (bareWord text) = none := by
  have absent : ∀ mark ∈ (bareWord text).drop (Shell.nameOf (bareWord text)).length, mark ≠ .char '=' .bare := by
    intro mark member same
    have among := List.mem_of_mem_drop member
    rw [bareWord, List.mem_map] at among
    obtain ⟨c, among, rfl⟩ := among
    obtain ⟨rfl, -⟩ := Shell.Mark.char.inj same
    exact plain among
  simp only [assignment?]
  split
  next eq => exact absurd rfl (absent _ (by rw [eq]; simp))
  next => rfl

theorem emit_nil (shell : Interpreter) (sink : Sink) : shell.emit sink [] = shell := rfl

/-- What is written does not move the streams. -/
theorem streams_emit (shell : Interpreter) (sink : Sink) (bytes : Bytes) (status : Nat) :
    ((shell.emit sink bytes).withStatus status).out = shell.out ∧
      ((shell.emit sink bytes).withStatus status).err = shell.err := by
  unfold emit
  split
  · exact ⟨rfl, rfl⟩
  · split <;> exact ⟨rfl, rfl⟩

/-- What is written to a file does not change variables, -/
theorem environment_append (machine : Machine) (place : String) (content : Bytes) :
    (machine.append place content).environment = machine.environment := by
  unfold Machine.append
  split <;> rfl

/-- and neither does what is written anywhere else. -/
theorem variables_emit (shell : Interpreter) (sink : Sink) (bytes : Bytes) (status : Nat) :
    ((shell.emit sink bytes).withStatus status).bindings = shell.bindings ∧
      ((shell.emit sink bytes).withStatus status).machine.environment = shell.machine.environment := by
  unfold emit
  split
  · exact ⟨rfl, rfl⟩
  · split
    · exact ⟨rfl, rfl⟩
    · exact ⟨rfl, rfl⟩
    · exact ⟨rfl, environment_append ..⟩
    · exact ⟨rfl, rfl⟩

theorem shellEcho_eq (machine : Machine) (arguments : List String) :
    shellEcho machine arguments = { machine, out := (shellEcho machine arguments).out } := by
  unfold shellEcho
  rfl

/-- `echo` writes on the standard output and does nothing else. -/
theorem builtIn_echo (shell : Interpreter) (arguments : List String) :
    shell.builtIn "echo" arguments =
      some ((shell.emit shell.out (shellEcho shell.machine arguments).out).withStatus 0) := by
  have told := shellEcho_eq shell.machine arguments
  unfold builtIn
  simp only
  rw [told]
  simp only [emit_nil]

/-- A simple command of a name and other words is the shell's own command of that name, with the fields of
the words. -/
theorem reaches_builtIn {shell after : Interpreter} {name : List Char} {words : List Word}
    {arguments : List String} (running : shell.stopped = false) (plain : '=' ∉ name)
    (expands : Expands shell (bareWord name :: words) (String.ofList name :: arguments))
    (own : shell.builtIn (String.ofList name) arguments = some after)
    (streams : after.out = shell.out ∧ after.err = shell.err)
    (other : String.ofList name ∉ ["eval", "command", "exec", "."]) :
    Reaches shell (.simple (bareWord name :: words) []) after := by
  obtain ⟨bound, expands⟩ := expands
  refine ⟨bound + 2, fun fuel enough => ?_⟩
  obtain ⟨fuel, rfl⟩ : ∃ n, fuel = n + 2 := ⟨fuel - 2, by omega⟩
  have ended : shell.ended.isSome = false := (Bool.or_eq_false_iff.1 running).1
  have noAssignment : (((bareWord name :: words).map assignment?).takeWhile Option.isSome).filterMap id = [] := by
    simp [assignment?_bareWord plain]
  have invoked : invoke (fuel + 1) shell (String.ofList name) arguments = after := by
    simp only [List.mem_cons, List.not_mem_nil, not_or] at other
    rw [invoke, own]
    · rfl
    all_goals grind
  rw [eval, running]
  simp only [Bool.false_eq_true, if_false, noAssignment, assignAll, List.length_nil, List.drop_zero,
    expands (fuel + 1) (by omega), ended, redirectAll]
  split
  next impossible => cases impossible
  next exec => exact absurd (List.cons.inj exec).1 (by simp_all)
  next same =>
    obtain ⟨rfl, rfl⟩ := List.cons.inj same
    simp [invoked, ← streams.1, ← streams.2]

end Rollout.Machine.Interpreter

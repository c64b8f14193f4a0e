import Mathlib
import Rollout.Proofs.InDirectory
import Rollout.Proofs.Interpreting
import Rollout.Proofs.Paths
import Rollout.Proofs.Recall

/-!
# What exports define

The exports in front of a command are words like any others: the value of an export ends where a blank
stands, and what comes after the blank is a name to export by itself. So exports of plain words define the
variables that they name, each as a whole, exactly if no value has a blank in it; a value with one is cut
short, whatever else the line exports.
-/

namespace Rollout.Machine.Interpreter

open Rollout.Shell (IsVariable bareWord isPlain)

/-! ### Exported variables -/

variable {shell after : Interpreter} {name value : String}

theorem lookup_rebind (pairs : List (String × String)) (name value other : String) :
    (rebind name value pairs).lookup other = if other = name then some value else pairs.lookup other := by
  induction pairs with
  | nil => rw [rebind, Variables.lookup_cons_ite]
  | cons pair rest ih =>
    obtain ⟨key, bound⟩ := pair
    rw [rebind]
    by_cases same : key = name
    · subst same
      rw [if_pos rfl, Variables.lookup_cons_ite, Variables.lookup_cons_ite]
      split <;> rfl
    · rw [if_neg same, Variables.lookup_cons_ite, Variables.lookup_cons_ite, ih]
      grind

theorem lookup_filter_ne (pairs : List (String × String)) (name other : String) :
    (pairs.filter fun pair => pair.1 ≠ name).lookup other =
      if other = name then none else pairs.lookup other := by
  induction pairs with
  | nil => simp
  | cons pair rest ih =>
    obtain ⟨key, bound⟩ := pair
    rw [List.filter_cons]
    split
    · rw [Variables.lookup_cons_ite, Variables.lookup_cons_ite, ih]
      grind
    · rw [Variables.lookup_cons_ite, ih]
      grind

/-- A shell differs from another in its variables and its status alone. -/
def Varies (shell after : Interpreter) : Prop :=
  after = { shell with
    bindings := after.bindings
    status := after.status
    machine := { shell.machine with environment := after.machine.environment } }

theorem Varies.refl (shell : Interpreter) : Varies shell shell := rfl

theorem Varies.trans {between : Interpreter} (first : Varies shell between) (second : Varies between after) :
    Varies shell after := by
  rw [Varies] at first second ⊢
  rw [second, first]

theorem varies_exportVariable (shell : Interpreter) (name value : String) :
    Varies shell ((shell.exportVariable name value).withStatus 0) := rfl

theorem Varies.stopped_eq (varies : Varies shell after) : after.stopped = shell.stopped := by
  rw [varies]
  rfl

theorem streams_abort (shell : Interpreter) (text : String) :
    (shell.abort text).out = shell.out ∧ (shell.abort text).err = shell.err :=
  shell.streams_emit shell.err (complaint (shell.name ++ ": 1: " ++ text)) 2

theorem streams_exportArgument (shell : Interpreter) (argument : String) :
    (shell.exportArgument argument).out = shell.out ∧ (shell.exportArgument argument).err = shell.err := by
  unfold exportArgument
  split
  split
  · exact streams_abort ..
  · split
    · exact ⟨rfl, rfl⟩
    · unfold exportName
      split <;> exact ⟨rfl, rfl⟩

theorem streams_exportAll (shell : Interpreter) (arguments : List String) :
    (shell.exportAll arguments).out = shell.out ∧ (shell.exportAll arguments).err = shell.err := by
  induction arguments generalizing shell with
  | nil => exact ⟨rfl, rfl⟩
  | cons argument rest ih =>
    obtain ⟨out, err⟩ := shell.streams_exportArgument argument
    rw [exportAll]
    split
    · exact ⟨out, err⟩
    · rw [(ih _).1, (ih _).2]
      exact ⟨out, err⟩

theorem span_assignment {name : List Char} (plain : '=' ∉ name) (value : List Char) :
    (name ++ '=' :: value).span (· ≠ '=') = (name, '=' :: value) := by
  have before : ∀ c ∈ name, decide (c ≠ '=') = true := fun c member => by
    simpa using fun same : c = '=' => plain (same ▸ member)
  rw [List.span_eq_takeWhile_dropWhile, List.takeWhile_append_of_pos before, List.dropWhile_append_of_pos before]
  simp

/-- A name, an equals sign and a value export the value under the name. -/
theorem exportArgument_assignment (shell : Interpreter) {name : List Char} (isVariable : IsVariable name)
    (value : List Char) :
    shell.exportArgument (String.ofList (name ++ '=' :: value)) =
      shell.exportVariable (String.ofList name) (String.ofList value) := by
  have noEquals : '=' ∉ name := fun member => absurd (isVariable.chars '=' member) (by decide)
  unfold exportArgument
  rw [String.toList_ofList, span_assignment noEquals]
  simp [Shell.namesVariable_iff.2 isVariable]

theorem exportAll_assignment (running : shell.stopped = false) {name : List Char} (isVariable : IsVariable name)
    (value : List Char) (arguments : List String) :
    shell.exportAll (String.ofList (name ++ '=' :: value) :: arguments) =
      (shell.exportVariable (String.ofList name) (String.ofList value)).exportAll arguments := by
  have still : (shell.exportVariable (String.ofList name) (String.ofList value)).stopped = false := running
  rw [exportAll, shell.exportArgument_assignment isVariable]
  simp only [still, Bool.false_eq_true, if_false]

theorem environment_exportVariable (shell : Interpreter) (name value other : String) :
    (shell.exportVariable name value).machine.environment.lookup other =
      if other = name then some value else shell.machine.environment.lookup other :=
  lookup_rebind shell.machine.environment name value other

theorem bindings_exportVariable (shell : Interpreter) (name value other : String) :
    (shell.exportVariable name value).bindings.lookup other =
      if other = name then none else shell.bindings.lookup other :=
  lookup_filter_ne shell.bindings name other

/-- The variable is exported with a value that has no blank in it. -/
def Short (name : String) (shell : Interpreter) : Prop :=
  shell.bindings.lookup name = none ∧
    ∃ value, shell.machine.environment.lookup name = some value ∧ ' ' ∉ value.toList

theorem short_exportVariable (shell : Interpreter) {name value : String} (whole : ' ' ∉ value.toList) :
    Short name (shell.exportVariable name value) :=
  ⟨by simp [bindings_exportVariable], value, by simp [environment_exportVariable], whole⟩

theorem Short.exportVariable (short : Short name shell) (other value : String)
    (whole : name = other → ' ' ∉ value.toList) : Short name (shell.exportVariable other value) := by
  by_cases same : name = other
  · subst same
    exact short_exportVariable shell (whole rfl)
  · obtain ⟨unbound, old, set, free⟩ := short
    exact ⟨by rw [bindings_exportVariable, if_neg same, unbound], old,
      by rw [environment_exportVariable, if_neg same, set], free⟩

theorem Short.value_eq (isVariable : IsVariable name.toList) (short : Short name shell) :
    ∃ value, shell.value name = some value ∧ ' ' ∉ value.toList := by
  obtain ⟨unbound, value, set, free⟩ := short
  have found := shell.value_of_isVariable isVariable
  rw [String.ofList_toList, unbound, Option.none_or, set] at found
  exact ⟨value, found, free⟩

theorem Short.abort (short : Short name shell) (text : String) : Short name (shell.abort text) := by
  obtain ⟨bindings, environment⟩ :=
    shell.variables_emit shell.err (complaint (shell.name ++ ": 1: " ++ text)) 2
  obtain ⟨unbound, value, set, free⟩ := short
  exact ⟨(congrArg (·.lookup name) bindings).trans unbound, value,
    (congrArg (·.lookup name) environment).trans set, free⟩

/-- A name by itself is exported with the value that it has, if it has one. -/
theorem Short.exportName (isVariable : IsVariable name.toList) (short : Short name shell) (other : String) :
    Short name (shell.exportName other) := by
  unfold Interpreter.exportName
  split
  next old found =>
    refine short.exportVariable _ _ fun same => ?_
    obtain ⟨value, set, free⟩ := short.value_eq isVariable
    rw [← same, set] at found
    rwa [← Option.some.inj found]
  next => exact short

/-- No word makes an exported value longer than a word. -/
theorem Short.exportArgument (isVariable : IsVariable name.toList) (short : Short name shell) {argument : String}
    (whole : ' ' ∉ argument.toList) : Short name (shell.exportArgument argument) := by
  unfold Interpreter.exportArgument
  rw [List.span_eq_takeWhile_dropWhile]
  split
  next other value cut =>
    split
    · exact short.abort _
    · split
      next text =>
        refine short.exportVariable _ _ fun _ => ?_
        have suffix : '=' :: text <:+ argument.toList := (Prod.mk.inj cut).2 ▸ List.dropWhile_suffix _
        rw [String.toList_ofList]
        exact fun member => whole (suffix.subset (List.mem_cons_of_mem _ member))
      next => exact short.exportName isVariable _

theorem Short.exportAll (isVariable : IsVariable name.toList) (short : Short name shell)
    {arguments : List String} (whole : ∀ argument ∈ arguments, ' ' ∉ argument.toList) :
    Short name (shell.exportAll arguments) := by
  induction arguments generalizing shell with
  | nil => exact short
  | cons argument rest ih =>
    have first := short.exportArgument isVariable (whole argument (by simp))
    rw [Interpreter.exportAll]
    split
    · exact first
    · exact ih first fun other member => whole other (by simp [member])

end Rollout.Machine.Interpreter

namespace Rollout.Session

open Rollout.Machine (Interpreter)
open Rollout.Machine.Interpreter (Reaches Expands Short Varies)
open Rollout.Shell (Simple Compound Token IsVariable bareWord isPlain tokens)

/-! ### Exports of plain words -/

/-- A value of words that mean nothing to a shell, with one blank between each and the next. -/
def IsPlainValue (value : String) : Prop :=
  ∀ word ∈ Text.splitOn ' ' value.toList, word ≠ [] ∧ ∀ c ∈ word, isPlain c = true

instance (value : String) : Decidable (IsPlainValue value) :=
  decidable_of_iff (((Text.splitOn ' ' value.toList).all fun word => !word.isEmpty && word.all isPlain) = true)
    (by simp [IsPlainValue])

/-- The variables that a shell reads or sets for itself: for them the text of an export is not all that counts. -/
def shellVariables : List String := ["IFS", "LINENO", "OPTIND", "PPID", "_"]

/-- A variable that means nothing to the shell itself, and such a value. -/
structure IsPlain (binding : String × String) : Prop where
  name : IsVariable binding.1.toList
  ordinary : binding.1 ∉ shellVariables
  value : IsPlainValue binding.2

instance (binding : String × String) : Decidable (IsPlain binding) :=
  decidable_of_iff (IsVariable binding.1.toList ∧ binding.1 ∉ shellVariables ∧ IsPlainValue binding.2)
    ⟨fun ⟨name, ordinary, value⟩ => ⟨name, ordinary, value⟩,
      fun plain => ⟨plain.name, plain.ordinary, plain.value⟩⟩

/-- What an export exports: the first word goes with the name, and every other word stands for itself. -/
def exportArguments (binding : String × String) : List (List Char) :=
  (Text.splitOn ' ' binding.2.toList).modifyHead fun word => binding.1.toList ++ '=' :: word

theorem joinWith_exportArguments (binding : String × String) :
    Text.joinWith ' ' (exportArguments binding) = assignmentText binding := by
  rw [exportArguments, assignmentText, ← Text.joinWith_splitOn ' ' binding.2.toList]
  cases words : Text.splitOn ' ' binding.2.toList with
  | nil => exact absurd words (Text.splitOn_ne_nil ' ' binding.2.toList)
  | cons word rest =>
    have pieces : Text.splitOn ' ' (Text.joinWith ' ' (word :: rest)) = word :: rest := by
      rw [← words, Text.joinWith_splitOn]
    rw [pieces, List.modifyHead_cons]
    cases rest <;> simp [Text.joinWith]

theorem exportArguments_ne_nil (binding : String × String) : exportArguments binding ≠ [] := by
  simp [exportArguments, Text.splitOn_ne_nil]

theorem plain_exportArguments {binding : String × String} (plain : IsPlain binding) :
    ∀ word ∈ exportArguments binding, word ≠ [] ∧ ∀ c ∈ word, isPlain c = true := by
  have named : ∀ c ∈ binding.1.toList, isPlain c = true := fun c member =>
    Shell.isPlain_of_isNameChar (plain.name.chars c member)
  have value := plain.value
  rw [IsPlainValue] at value
  rw [exportArguments]
  cases words : Text.splitOn ' ' binding.2.toList with
  | nil => simp
  | cons first rest =>
    rw [words] at value
    rw [List.modifyHead_cons]
    intro word member
    obtain rfl | member := List.mem_cons.1 member
    · refine ⟨by simp, fun c member => ?_⟩
      obtain inName | inValue := List.mem_append.1 member
      · exact named c inName
      · obtain rfl | inValue := List.mem_cons.1 inValue
        · decide
        · exact (value first (by simp)).2 c inValue
    · exact value word (by simp [member])

def exportingWords (binding : String × String) : Simple :=
  exportCommand ((exportArguments binding).map bareWord)

theorem tokens_exportOf_plain {binding : String × String} (plain : IsPlain binding) (rest : List Char) :
    tokens ((exportOf binding).toList ++ ' ' :: rest) =
      (tokens rest).map fun after => (exportingWords binding).tokens ++ .operator ";" :: after := by
  have line : (exportOf binding).toList ++ ' ' :: rest =
      "export".toList ++ ' ' :: (Text.joinWith ' ' (exportArguments binding) ++ ';' :: ' ' :: rest) := by
    simp [toList_exportOf, joinWith_exportArguments]
  rw [line, Shell.tokens_bareWord (by decide) (List.all_eq_true.1 rfl) (by simp; decide), Shell.tokens_blank,
    Shell.tokens_joinWith (exportArguments_ne_nil binding) (plain_exportArguments plain) (by simp; decide),
    Shell.tokens_semicolon, Option.map_map, Option.map_map]
  simp [exportingWords, exportCommand, Simple.ofWords, Function.comp_def]

def showing (name : String) : Simple :=
  echoCommand [bareWord ('$' :: name.toList)]

theorem tokens_showing {name : String} (isVariable : IsVariable name.toList) :
    tokens ("echo $" ++ name).toList = some (showing name).tokens := by
  have line : ("echo $" ++ name).toList = "echo".toList ++ ' ' :: '$' :: name.toList := by simp
  rw [line, Shell.tokens_bareWord (by decide) (List.all_eq_true.1 rfl) (by simp; decide), Shell.tokens_blank,
    Shell.tokens_variable isVariable]
  rfl

def showingLine (environment : Environment) (name : String) : Compound :=
  (environment.map exportingWords).foldr Compound.prepend ⟨⟨showing name, []⟩, []⟩

theorem parse_showing {environment : Environment} {name : String} (isVariable : IsVariable name.toList)
    (plain : ∀ binding ∈ environment, IsPlain binding) :
    Shell.parse (commandLine ("echo $" ++ name) { environment }).toList = some (showingLine environment name).tree := by
  have alone : Compound.tokens ⟨⟨showing name, []⟩, []⟩ = (showing name).tokens := by
    simp [Compound.tokens, Compound.tokensOf, Shell.AndOr.tokens, Shell.AndOr.tailTokens]
  have command : tokens (inDirectory ("echo $" ++ name) none).toList =
      some (Compound.tokens ⟨⟨showing name, []⟩, []⟩) := by
    rw [alone]
    exact tokens_showing isVariable
  have line : tokens (commandLine ("echo $" ++ name) { environment }).toList =
      some (showingLine environment name).tokens :=
    tokens_exports (fun binding member => tokens_exportOf_plain (plain binding member)) command
  exact Shell.parse_of_tokens line

/-! ### Carrying out the line -/

/-- The shell after one export. A shell that is stopped passes over it. -/
def exported (shell : Interpreter) (binding : String × String) : Interpreter :=
  if shell.stopped then shell else shell.exportAll ((exportArguments binding).map String.ofList)

theorem reaches_exported (shell : Interpreter) {binding : String × String} (plain : IsPlain binding) :
    Reaches shell (exportingWords binding).tree (exported shell binding) := by
  rw [exported]
  split
  next stopped => exact Interpreter.reaches_stopped stopped _
  next running =>
    have words := Interpreter.expands_plain shell (plain_exportArguments plain)
    have expands : Expands shell (bareWord "export".toList :: (exportArguments binding).map bareWord)
        (String.ofList "export".toList :: (exportArguments binding).map String.ofList) :=
      .plain (by decide) (List.all_eq_true.1 rfl) words
    have own : shell.builtIn (String.ofList "export".toList) ((exportArguments binding).map String.ofList) =
        some (shell.exportAll ((exportArguments binding).map String.ofList)) := by
      rw [String.ofList_toList]
      rfl
    exact Interpreter.reaches_builtIn (Bool.eq_false_iff.2 running) (by decide) expands own
      (shell.streams_exportAll _) (by decide)

/-- What `echo` gets for a variable: the fields of its value. -/
def shownFields (shell : Interpreter) (name : String) : List String :=
  Shell.fields none (Interpreter.cellsOf false ((shell.value name).getD ""))

def shown (shell : Interpreter) (name : String) : Interpreter :=
  if shell.stopped then shell
  else (shell.emit shell.out (Machine.shellEcho shell.machine (shownFields shell name)).out).withStatus 0

theorem reaches_shown (shell : Interpreter) {name : String} (isVariable : IsVariable name.toList) :
    Reaches shell (showing name).tree (shown shell name) := by
  rw [shown]
  split
  next stopped => exact Interpreter.reaches_stopped stopped _
  next running =>
    have words := Interpreter.expands_variable shell isVariable
    rw [String.ofList_toList, ← shownFields] at words
    have expands := Expands.plain (show "echo".toList ≠ [] by decide) (List.all_eq_true.1 rfl) words
    have own : shell.builtIn (String.ofList "echo".toList) (shownFields shell name) =
        some ((shell.emit shell.out (Machine.shellEcho shell.machine (shownFields shell name)).out).withStatus 0) := by
      rw [String.ofList_toList, Interpreter.builtIn_echo]
    exact Interpreter.reaches_builtIn (Bool.eq_false_iff.2 running) (by decide) expands own
      (shell.streams_emit shell.out _ 0) (by decide)

/-- The exports one after another, and then the variable is shown. -/
theorem reaches_showingLine {environment : Environment} {name : String}
    (plain : ∀ binding ∈ environment, IsPlain binding) (isVariable : IsVariable name.toList)
    (shell : Interpreter) :
    Reaches shell (showingLine environment name).tree (shown (environment.foldl exported shell) name) := by
  induction environment generalizing shell with
  | nil => exact reaches_shown shell isVariable
  | cons binding rest ih =>
    have first := reaches_exported shell (plain binding (by simp))
    have onward := ih (fun other member => plain other (by simp [member])) (exported shell binding)
    rw [showingLine, List.map_cons, List.foldr_cons, Compound.tree_prepend]
    exact first.sequence onward

theorem carryOut_showing {environment : Environment} {name : String}
    (plain : ∀ binding ∈ environment, IsPlain binding) (isVariable : IsVariable name.toList)
    {shell : Interpreter} (running : shell.stopped = false) :
    ∃ bound, ∀ fuel, bound ≤ fuel →
      shell.carryOut fuel (commandLine ("echo $" ++ name) { environment }).toList =
        shown (environment.foldl exported shell) name :=
  (reaches_showingLine plain isVariable shell).carryOut running (parse_showing isVariable plain)

/-! ### What is defined -/

/-- The variables of the environment are exported, each with its whole value, and no other variable is
touched. -/
structure Defines (shell : Interpreter) (environment : Environment) (after : Interpreter) : Prop where
  whole : ∀ binding ∈ environment, after.bindings.lookup binding.1 = none ∧
    after.machine.environment.lookup binding.1 = some binding.2
  others : ∀ name, (∀ binding ∈ environment, binding.1 ≠ name) →
    after.bindings.lookup name = shell.bindings.lookup name ∧
      after.machine.environment.lookup name = shell.machine.environment.lookup name

variable {environment : Environment} {shell : Interpreter}

/-- A value without a blank goes whole. -/
theorem exported_whole {binding : String × String} (plain : IsPlain binding) (whole : ' ' ∉ binding.2.toList)
    (running : shell.stopped = false) :
    exported shell binding = (shell.exportVariable binding.1 binding.2).withStatus 0 := by
  have words : exportArguments binding = [binding.1.toList ++ '=' :: binding.2.toList] := by
    rw [exportArguments, Text.splitOn_of_not_mem whole]
    rfl
  simp only [exported, running, words, List.map_cons, List.map_nil, Interpreter.exportAll_assignment running plain.name,
    String.ofList_toList, Bool.false_eq_true, if_false]
  rfl

theorem varies_exports (plain : ∀ binding ∈ environment, IsPlain binding)
    (whole : ∀ binding ∈ environment, ' ' ∉ binding.2.toList) (running : shell.stopped = false) :
    Varies shell (environment.foldl exported shell) := by
  induction environment generalizing shell with
  | nil => exact .refl shell
  | cons binding rest ih =>
    have first : Varies shell (exported shell binding) := by
      rw [exported_whole (plain binding (by simp)) (whole binding (by simp)) running]
      exact Interpreter.varies_exportVariable ..
    exact first.trans (ih (fun other member => plain other (by simp [member]))
      (fun other member => whole other (by simp [member])) (first.stopped_eq.trans running))

theorem defines_exports (distinct : environment.Pairwise fun b c => b.1 ≠ c.1)
    (plain : ∀ binding ∈ environment, IsPlain binding)
    (whole : ∀ binding ∈ environment, ' ' ∉ binding.2.toList) (running : shell.stopped = false) :
    Defines shell environment (environment.foldl exported shell) := by
  induction environment generalizing shell with
  | nil => exact ⟨by simp, fun _ _ => ⟨rfl, rfl⟩⟩
  | cons binding rest ih =>
    obtain ⟨apart, distinct⟩ := List.pairwise_cons.1 distinct
    have first := exported_whole (plain binding (by simp)) (whole binding (by simp)) running
    have still : (exported shell binding).stopped = false := by
      rw [first]
      exact running
    have onward := ih distinct (fun other member => plain other (by simp [member]))
      (fun other member => whole other (by simp [member])) still
    rw [List.foldl_cons]
    constructor
    · intro other member
      obtain rfl | member := List.mem_cons.1 member
      · have kept := onward.others other.1 fun later member => (apart later member).symm
        rw [kept.1, kept.2, first]
        exact ⟨(shell.bindings_exportVariable other.1 other.2 other.1).trans (if_pos rfl),
          (shell.environment_exportVariable other.1 other.2 other.1).trans (if_pos rfl)⟩
      · exact onward.whole other member
    · intro name absent
      have kept := onward.others name fun later member => absent later (by simp [member])
      have different : name ≠ binding.1 := (absent binding (by simp)).symm
      rw [kept.1, kept.2, first]
      exact ⟨(shell.bindings_exportVariable binding.1 binding.2 name).trans (if_neg different),
        (shell.environment_exportVariable binding.1 binding.2 name).trans (if_neg different)⟩

theorem whole_exportArguments {binding : String × String} (plain : IsPlain binding) :
    ∀ argument ∈ (exportArguments binding).map String.ofList, ' ' ∉ argument.toList := by
  intro argument member blank
  obtain ⟨word, among, rfl⟩ := List.mem_map.1 member
  rw [String.toList_ofList] at blank
  exact absurd ((plain_exportArguments plain word among).2 ' ' blank) (by decide)

/-- After its export, a variable has the first word of its value at most, -/
theorem short_exported {binding : String × String} (plain : IsPlain binding) (running : shell.stopped = false) :
    Short binding.1 (exported shell binding) := by
  have whole := whole_exportArguments plain
  rw [exported, running, exportArguments]
  rw [exportArguments] at whole
  cases words : Text.splitOn ' ' binding.2.toList with
  | nil => exact absurd words (Text.splitOn_ne_nil ' ' binding.2.toList)
  | cons word rest =>
    rw [words] at whole
    have first : Short binding.1 (shell.exportVariable binding.1 (String.ofList word)) := by
      refine Interpreter.short_exportVariable shell ?_
      have free := whole _ (List.mem_cons_self ..)
      simp only [String.toList_ofList, List.mem_append, List.mem_cons, not_or] at free ⊢
      exact free.2.2
    simp only [List.modifyHead_cons, List.map_cons, Interpreter.exportAll_assignment running plain.name,
      String.ofList_toList, Bool.false_eq_true, if_false]
    exact first.exportAll plain.name fun argument member => whole argument (List.mem_cons_of_mem _ member)

/-- and no later export makes it longer. -/
theorem short_exports {name : String} (isVariable : IsVariable name.toList) (short : Short name shell)
    (plain : ∀ binding ∈ environment, IsPlain binding) : Short name (environment.foldl exported shell) := by
  induction environment generalizing shell with
  | nil => exact short
  | cons binding rest ih =>
    have first : Short name (exported shell binding) := by
      rw [exported]
      split
      · exact short
      · exact short.exportAll isVariable (whole_exportArguments (plain binding (by simp)))
    exact ih first fun other member => plain other (by simp [member])

/-- Exports that leave every variable with its whole value have no value with a blank in it: the first such
value would be cut short. -/
theorem whole_of_exports (plain : ∀ binding ∈ environment, IsPlain binding) (running : shell.stopped = false)
    (defined : ∀ binding ∈ environment,
      (environment.foldl exported shell).machine.environment.lookup binding.1 = some binding.2) :
    ∀ binding ∈ environment, ' ' ∉ binding.2.toList := by
  induction environment generalizing shell with
  | nil => simp
  | cons binding rest ih =>
    have later : ∀ other ∈ rest, IsPlain other := fun other member => plain other (by simp [member])
    have here : ' ' ∉ binding.2.toList := by
      obtain ⟨-, value, set, free⟩ := short_exports (plain binding (by simp)).name
        (short_exported (plain binding (by simp)) running) later
      have same := defined binding (by simp)
      rw [List.foldl_cons, set] at same
      rwa [← Option.some.inj same]
    have still : (exported shell binding).stopped = false := by
      rw [exported_whole (plain binding (by simp)) here running]
      exact running
    have onward := ih later still fun other member => defined other (by simp [member])
    simpa [here] using onward

/-- The exports define the environment exactly if no value has a blank in it. -/
theorem defines_exports_iff (distinct : environment.Pairwise fun b c => b.1 ≠ c.1)
    (plain : ∀ binding ∈ environment, IsPlain binding) (running : shell.stopped = false) :
    Defines shell environment (environment.foldl exported shell) ↔
      ∀ binding ∈ environment, ' ' ∉ binding.2.toList :=
  ⟨fun defines => whole_of_exports plain running fun binding member => (defines.whole binding member).2,
    fun whole => defines_exports distinct plain whole running⟩

end Rollout.Session

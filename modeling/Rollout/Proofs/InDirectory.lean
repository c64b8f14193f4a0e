import Rollout.Proofs.Compounds
import Rollout.Session

/-!
# Commands in their directory

The line that a remote shell is given begins with the exports, each a simple command of its own, and then
with a change of directory that `&&` joins to the command. The shell joins it to the command's first simple
command, not to the command: what comes after a semicolon or `||` of the command is tried even where the
directory is not there.
-/

namespace Rollout.Session

open Rollout.Shell (Word Token Simple Compound Executed Outcome Runs readWord bareWord quotedWord tokens parse)

/-! ### The line -/

def assignmentText (binding : String × String) : List Char :=
  binding.1.toList ++ '=' :: binding.2.toList

def assignmentWord (binding : String × String) : Word :=
  ((readWord .bare (assignmentText binding ++ [';'])).map (·.1)).getD []

/-- An export that is a plain assignment: a variable's name, and a value with which the shell reads just one
word. -/
structure IsAssignment (binding : String × String) : Prop where
  name : Shell.IsVariable binding.1.toList
  whole : readWord .bare (assignmentText binding ++ [';']) = some (assignmentWord binding, [';'])

def exportCommand (words : List Word) : Simple :=
  .ofWords (bareWord "export".toList) words (by decide)

def echoCommand (words : List Word) : Simple :=
  .ofWords (bareWord "echo".toList) words (by decide)

def exporting (binding : String × String) : Simple :=
  exportCommand [assignmentWord binding]

def changing (directory : String) : Simple :=
  .ofWords (bareWord "cd".toList) [quotedWord directory.toList] (by decide)

theorem intercalate_append_space (pieces : List (List Char)) (nonempty : pieces ≠ []) :
    [' '].intercalate pieces ++ [' '] = pieces.flatMap (· ++ [' ']) := by
  induction pieces with
  | nil => exact absurd rfl nonempty
  | cons piece rest ih =>
    cases rest with
    | nil => simp
    | cons next rest =>
      rw [List.intercalate_cons_cons, List.append_assoc, ih (by simp)]
      simp

theorem toList_exportOf (binding : String × String) :
    (exportOf binding).toList = "export ".toList ++ (assignmentText binding ++ [';']) := by
  simp [exportOf, assignmentText]

/-- Every export stands in the line with a blank behind it, and then the command in its directory. -/
theorem toList_commandLine (command : String) (setting : Setting) :
    (commandLine command setting).toList =
      setting.environment.flatMap (fun binding => (exportOf binding).toList ++ [' ']) ++
        (inDirectory command setting.directory).toList := by
  cases given : setting.environment with
  | nil => simp [commandLine, given]
  | cons binding rest =>
    have joined := intercalate_append_space ((binding :: rest).map fun b => (exportOf b).toList) (by simp)
    rw [List.flatMap_map] at joined
    simp only [commandLine, given, List.isEmpty_cons, Bool.false_eq_true, if_false, String.toList_append,
      String.toList_intercalate, List.map_map]
    exact congrArg (· ++ (inDirectory command setting.directory).toList) joined

/-- The tokens of an export are its two words and the semicolon. -/
theorem tokens_exportOf {binding : String × String} (plain : IsAssignment binding) (rest : List Char) :
    tokens ((exportOf binding).toList ++ ' ' :: rest) =
      (tokens rest).map fun after => (exporting binding).tokens ++ .operator ";" :: after := by
  have line : (exportOf binding).toList ++ ' ' :: rest =
      "export".toList ++ ' ' :: (assignmentText binding ++ ';' :: ' ' :: rest) := by
    simp [toList_exportOf]
  have assigned : readWord .bare (assignmentText binding ++ ';' :: ' ' :: rest) =
      some (assignmentWord binding, ';' :: ' ' :: rest) := by
    simpa using Shell.readWord_append plain.whole (' ' :: rest)
  have starts : ∀ c ∈ (assignmentText binding ++ ';' :: ' ' :: rest).head?, Shell.isMeta c = false ∧ c ≠ '#' := by
    obtain ⟨c, more, name⟩ := List.exists_cons_of_ne_nil plain.name.nonempty
    have letter := Shell.isPlain_of_isNameChar (plain.name.chars c (by simp [name]))
    simp only [assignmentText, name, List.cons_append, List.head?_cons, Option.mem_some_iff, forall_eq']
    exact ⟨Shell.isMeta_of_isPlain letter, by rintro rfl; exact absurd letter (by decide)⟩
  rw [line, Shell.tokens_bareWord (by decide) (List.all_eq_true.1 rfl) (by simp; decide), Shell.tokens_blank,
    Shell.tokens_word starts (by simp) assigned (by simp), Shell.tokens_semicolon, Option.map_map,
    Option.map_map]
  rfl

/-- The tokens of a command in its directory are those of the change of directory, `&&` and its own. -/
theorem tokens_inDirectory (command directory : String) (given : directory ≠ "") :
    tokens (inDirectory command (some directory)).toList =
      (tokens command.toList).map fun after => (changing directory).tokens ++ .operator "&&" :: after := by
  have line : (inDirectory command (some directory)).toList =
      "cd".toList ++ ' ' :: (Shell.quoteChars directory.toList ++ ' ' :: '&' :: '&' :: ' ' :: command.toList) := by
    simp [inDirectory, given, Shell.quote]
  rw [line, Shell.tokens_bareWord (by decide) (List.all_eq_true.1 rfl) (by simp; decide), Shell.tokens_blank,
    Shell.tokens_quoteChars, Shell.tokens_both, Option.map_map, Option.map_map]
  rfl

/-- Exports that are read as simple commands stand before the compound that the rest of the line is. -/
theorem tokens_exports {command : String} {setting : Setting} {exported : String × String → Simple}
    {compound : Compound}
    (each : ∀ binding ∈ setting.environment, ∀ rest, tokens ((exportOf binding).toList ++ ' ' :: rest) =
      (tokens rest).map fun after => (exported binding).tokens ++ .operator ";" :: after)
    (read : tokens (inDirectory command setting.directory).toList = some compound.tokens) :
    tokens (commandLine command setting).toList =
      some ((setting.environment.map exported).foldr Compound.prepend compound).tokens := by
  rw [toList_commandLine]
  generalize setting.environment = environment at each
  induction environment with
  | nil => exact read
  | cons binding rest ih =>
    have onward := ih fun other member => each other (by simp [member])
    rw [List.flatMap_cons, List.append_assoc, List.append_assoc, List.singleton_append,
      each binding (by simp), onward, List.map_cons, List.foldr_cons, Compound.tokens_prepend]
    rfl

/-- The line of a compound command is a compound: the exports, and then the change of directory joined to the
command's first simple command. -/
theorem tokens_commandLine {command directory : String} {environment : Environment} {compound : Compound}
    (given : directory ≠ "") (plain : ∀ binding ∈ environment, IsAssignment binding)
    (read : tokens command.toList = some compound.tokens) :
    tokens (commandLine command { directory := some directory, environment }).toList =
      some ((environment.map exporting).foldr Compound.prepend (compound.guarded (changing directory))).tokens := by
  refine tokens_exports (fun binding member => tokens_exportOf (plain binding member)) ?_
  rw [tokens_inDirectory command directory given, read]
  exact congrArg some (Compound.tokens_guarded (changing directory) compound).symm

/-! ### Where the directory is not there -/

/-- The change of directory is reached and does not succeed. -/
def DirectoryFails (directory : String) (environment : Environment) (executed : List Executed) : Prop :=
  ∃ result, result ≠ Outcome.status 0 ∧
    executed[environment.length]? = some ⟨(changing directory).words, (changing directory).redirects, result⟩

/-- The words of the simple commands that prepare a command: the exports and the change of directory. -/
def preparing (directory : String) (environment : Environment) : List (List Word) :=
  environment.map (fun binding => (exporting binding).words) ++ [(changing directory).words]

/-- A run that fails to change the directory has carried out the exports, and goes on as the guarded
command does after its guard has failed. -/
theorem DirectoryFails.split {directory : String} {environment : Environment} {compound : Compound}
    {executed : List Executed} {outcome : Outcome} (fails : DirectoryFails directory environment executed)
    (run : Runs ((environment.map exporting).foldr Compound.prepend compound).tree executed outcome) :
    ∃ before more result, executed = before ++ more ∧
      before.map (·.words) = environment.map (fun binding => (exporting binding).words) ∧
      Runs compound.tree more outcome ∧ result ≠ .status 0 ∧
      more.head? = some ⟨(changing directory).words, (changing directory).redirects, result⟩ := by
  obtain ⟨result, failed, reached⟩ := fails
  obtain short | ⟨before, more, rfl, words, run⟩ := Compound.runs_prepended run
  · rw [List.getElem?_eq_none (by simpa using short)] at reached
    cases reached
  · have length : before.length = environment.length := by simpa using congrArg List.length words
    rw [List.map_map] at words
    refine ⟨before, more, result, rfl, words, run, failed, ?_⟩
    rw [List.getElem?_append_right (by omega), length, Nat.sub_self] at reached
    rw [List.head?_eq_getElem?, reached]

/-- A command is kept in its directory exactly if it is one and-or list with `&&` alone: then, whatever the
statuses, nothing of it is executed where the change of directory fails. -/
theorem kept_in_directory_iff {directory command : String} {environment : Environment} {compound : Compound}
    (given : directory ≠ "") (plain : ∀ binding ∈ environment, IsAssignment binding)
    (read : tokens command.toList = some compound.tokens) :
    ∃ line, parse (commandLine command { directory := some directory, environment }).toList = some line ∧
      ((∀ executed outcome, Runs line executed outcome → DirectoryFails directory environment executed →
          executed.map (·.words) = preparing directory environment) ↔
        compound.rest = [] ∧ ∀ next ∈ compound.first.rest, next.1 = .both) := by
  refine ⟨_, Shell.parse_of_tokens (tokens_commandLine given plain read), ?_⟩
  rw [← Compound.guarded_iff (changing directory) compound]
  constructor
  · intro kept executed outcome result run head failed
    obtain ⟨before, length, whole⟩ := Compound.exists_prepended (environment.map exporting) run
    have reached : (before ++ executed)[environment.length]? = executed.head? := by
      rw [List.getElem?_append_right (by simp [length]), length, List.length_map, Nat.sub_self,
        List.head?_eq_getElem?]
    have words := kept _ _ whole ⟨result, failed, reached.trans head⟩
    have lengths := congrArg List.length words
    simp only [preparing, List.length_map, List.length_append, length, List.length_singleton] at lengths
    omega
  · intro alone executed outcome run fails
    obtain ⟨before, more, result, rfl, words, rest, failed, head⟩ := fails.split run
    obtain ⟨first, rfl⟩ := List.length_eq_one_iff.1 (alone more outcome result rest head failed)
    obtain rfl := Option.some.inj head
    simp [preparing, words]

def makeThenList : Compound where
  first := {
    first := .ofWords (bareWord "make".toList) [] (by decide)
    rest := [(.both, .ofWords (bareWord "ls".toList) [] (by decide))] }
  rest := []

theorem tokens_makeThenList : tokens "make && ls".toList = some makeThenList.tokens := by
  have text : "make && ls".toList = "make".toList ++ ' ' :: '&' :: '&' :: ' ' :: ("ls".toList ++ []) := by decide
  rw [text, Shell.tokens_bareWord (by decide) (List.all_eq_true.1 rfl) (by simp; decide), Shell.tokens_blank,
    Shell.tokens_both, Shell.tokens_bareWord (by decide) (List.all_eq_true.1 rfl) (by simp), Shell.tokens_nil]
  rfl

theorem kept_in_directory_make :
    "/gone" ≠ "" ∧ (∀ binding ∈ [("A", "1")], IsAssignment binding) ∧
      tokens "make && ls".toList = some makeThenList.tokens ∧
      ∃ line, parse (commandLine "make && ls"
          { directory := some "/gone", environment := [("A", "1")] }).toList = some line ∧
        ∀ executed outcome, Runs line executed outcome → DirectoryFails "/gone" [("A", "1")] executed →
          executed.map (·.words) = preparing "/gone" [("A", "1")] := by
  have given : "/gone" ≠ "" := by decide
  have plain : ∀ binding ∈ [("A", "1")], IsAssignment binding := by
    intro binding member
    obtain rfl := List.mem_singleton.1 member
    exact ⟨by decide, by decide⟩
  obtain ⟨line, parsed, kept⟩ := kept_in_directory_iff given plain tokens_makeThenList
  exact ⟨given, plain, tokens_makeThenList, line, parsed, kept.2 ⟨rfl, by decide⟩⟩

def echoTwice : Compound where
  first := {
    first := echoCommand [bareWord "a".toList]
    rest := [] }
  rest := [{
    first := echoCommand [bareWord "b".toList]
    rest := [] }]

theorem tokens_echoTwice : tokens "echo a; echo b".toList = some echoTwice.tokens := by
  have text : "echo a; echo b".toList =
      "echo".toList ++ ' ' :: ("a".toList ++ ';' :: ' ' :: ("echo".toList ++ ' ' :: ("b".toList ++ []))) := by
    decide
  rw [text, Shell.tokens_bareWord (by decide) (List.all_eq_true.1 rfl) (by simp; decide), Shell.tokens_blank,
    Shell.tokens_bareWord (by decide) (List.all_eq_true.1 rfl) (by simp; decide), Shell.tokens_semicolon,
    Shell.tokens_bareWord (by decide) (List.all_eq_true.1 rfl) (by simp; decide), Shell.tokens_blank,
    Shell.tokens_bareWord (by decide) (List.all_eq_true.1 rfl) (by simp), Shell.tokens_nil]
  rfl

/-- With a semicolon, what stands behind it is executed where the directory is not there. -/
theorem directory_escaped :
    ∃ line executed outcome,
      parse (commandLine "echo a; echo b" { directory := some "/gone" }).toList = some line ∧
      Runs line executed outcome ∧ DirectoryFails "/gone" [] executed ∧
      executed.map (·.words) =
        preparing "/gone" [] ++ [[bareWord "echo".toList, bareWord "b".toList]] := by
  have parsed : parse (commandLine "echo a; echo b" { directory := some "/gone" }).toList =
      some (echoTwice.guarded (changing "/gone")).tree :=
    Shell.parse_of_tokens (tokens_commandLine (by decide) (by simp) tokens_echoTwice)
  refine ⟨_, _, .status 0, parsed,
    .sequence (.bothPassed (.simple _ _ (.status 1)) (by decide)) (.simple _ _ (.status 0)), ?_, ?_⟩
  · exact ⟨.status 1, by decide, rfl⟩
  · rfl

end Rollout.Session

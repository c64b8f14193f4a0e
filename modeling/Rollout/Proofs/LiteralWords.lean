import Rollout.Proofs.InDirectory
import Rollout.Proofs.Interpreting

/-!
# Quoted words

Whatever text is quoted, a shell reads one word that stands for just this text, up to the first character behind
it that ends words. So the line for a command in a directory begins with a change to this directory and no
other: behind the operator that joins the two, the command stands as it is, read or not read yet.
-/

namespace Rollout.Shell

/-- The text begins with the tokens, and behind them is the rest. -/
inductive Begins : List Char → List Token → List Char → Prop
  | here (text : List Char) : Begins text [] text
  | token {text between rest : List Char} {token : Token} {tokens : List Token}
      (read : readToken text = some (some token, between)) (others : Begins between tokens rest) :
      Begins text (token :: tokens) rest

variable {text between rest : List Char} {tokens : List Token}

theorem Begins.blank (begins : Begins text tokens rest) (nonempty : tokens ≠ []) : Begins (' ' :: text) tokens rest := by
  cases begins with
  | here => exact absurd rfl nonempty
  | token read others => exact .token (by rwa [readToken_blank]) others

theorem Begins.quoted (text : List Char) (begins : Begins (' ' :: between) tokens rest) :
    Begins (quoteChars text ++ ' ' :: between) (.word (quotedWord text) :: tokens) rest :=
  .token (readToken_quoteChars text (by simp; decide)) begins

theorem begins_both (rest : List Char) : Begins ('&' :: '&' :: rest) [.operator "&&"] rest :=
  .token rfl (.here rest)

end Rollout.Shell

namespace Rollout.Session

open Rollout.Shell (Word Token Simple Begins Spells quotedWord quoteChars readPipeline tokens)
open Rollout.Machine.Interpreter (Expands)

/-- The line for a command in a directory, with nothing exported, is read as a change of directory and `&&`,
and behind that is the command. -/
theorem begins_commandLine (command : String) {directory : String} (given : directory ≠ "") :
    Begins (commandLine command { directory := some directory }).toList
      [.word (quotedWord "cd".toList), .word (quotedWord directory.toList), .operator "&&"]
      (' ' :: command.toList) := by
  have line : (commandLine command { directory := some directory }).toList =
      quoteChars "cd".toList ++ ' ' :: (quoteChars directory.toList ++ ' ' :: '&' :: '&' :: ' ' :: command.toList) := by
    have name : quoteChars ['c', 'd'] = ['c', 'd'] := by decide
    simp [commandLine, inDirectory, given, Shell.quote, name]
  rw [line]
  have operator := (Shell.begins_both (' ' :: command.toList)).blank (by simp)
  exact .quoted _ ((Begins.quoted directory.toList operator).blank (by simp))

/-- A change of directory is a simple command by itself, whatever the directory is called and whatever stands
behind `&&`. -/
theorem readPipeline_changing (directory : String) (after : List Token) (fuel : Nat) :
    readPipeline (fuel + 2) (.word (quotedWord "cd".toList) :: .word (quotedWord directory.toList) ::
      .operator "&&" :: after) =
        some (.simple [quotedWord "cd".toList, quotedWord directory.toList] [], .operator "&&" :: after) := by
  have simple := Shell.readPipeline_simple (changing directory) (Shell.follows_operator .both after) fuel
  exact simple

/-- Quoting makes of every text one word that stands for it, wherever the word ends, and a shell in any state
expands it to the text. The line for a command in a directory, with nothing exported, begins with the simple
command of the two words `cd` and the directory, whatever characters the directory has; then comes `&&`, and
then the command as it was given. -/
theorem quoted_words_literal :
    (∀ text : String, ∃ word, Spells word text.toList ∧ tokens (Shell.quote text).toList = some [.word word] ∧
      (∀ rest : List Char, (∀ c ∈ rest.head?, Shell.isMeta c = true) →
        Shell.readWord .bare ((Shell.quote text).toList ++ rest) = some (word, rest)) ∧
      ∀ shell, Expands shell [word] [text]) ∧
    ∀ command directory : String, directory ≠ "" → ∃ name word,
      Spells name "cd".toList ∧ Spells word directory.toList ∧
      Begins (commandLine command { directory := some directory }).toList
        [.word name, .word word, .operator "&&"] (' ' :: command.toList) ∧
      ∀ after fuel, readPipeline (fuel + 2) (.word name :: .word word :: .operator "&&" :: after) =
        some (.simple [name, word] [], .operator "&&" :: after) := by
  constructor
  · intro text
    have quoted : (Shell.quote text).toList = quoteChars text.toList := by simp [Shell.quote]
    rw [quoted]
    have spells := Shell.spells_quotedWord text.toList
    refine ⟨quotedWord text.toList, spells, ?_, fun rest ends => Shell.readWord_quoteChars text.toList ends, ?_⟩
    · have read : Shell.readToken (quoteChars text.toList ++ []) = _ :=
        Shell.readToken_quoteChars text.toList (by simp)
      rw [List.append_nil] at read
      rw [Shell.tokens_cons read]
      rfl
    · intro shell
      have expands := (Machine.Interpreter.expands_nil shell).spells spells (Shell.quotedWord_ne_nil _)
      rwa [String.ofList_toList] at expands
  · intro command directory given
    exact ⟨_, _, Shell.spells_quotedWord _, Shell.spells_quotedWord _, begins_commandLine command given,
      readPipeline_changing directory⟩

/-- Quotes, blanks, dollars, semicolons and line feeds in the name of a directory are part of the one word. -/
theorem quoted_words_literal_awkward :
    "it's $HOME;\n" ≠ "" ∧
    commandLine "make" { directory := some "it's $HOME;\n" } = "cd 'it'\\''s $HOME;\n' && make" ∧
    ∃ name word, Spells name "cd".toList ∧ Spells word "it's $HOME;\n".toList ∧
      Begins "cd 'it'\\''s $HOME;\n' && make".toList [.word name, .word word, .operator "&&"] " make".toList := by
  have line : commandLine "make" { directory := some "it's $HOME;\n" } = "cd 'it'\\''s $HOME;\n' && make" := by
    decide
  have given : "it's $HOME;\n" ≠ "" := by decide
  obtain ⟨name, word, spelled, literal, begins, -⟩ := quoted_words_literal.2 "make" _ given
  rw [line] at begins
  exact ⟨given, line, name, word, spelled, literal, begins⟩

end Rollout.Session

import Rollout.Script.Fault
import Rollout.Text.Blank
import Rollout.Text.Split

/-!
# Statements

A script is read line by line. A line that is blank or whose first character is `#` says nothing;
every other line is one statement, a keyword with its arguments.

Arguments are separated by blanks. Single and double quotes hold blanks and number signs together and
stay part of the argument: they are meant for whoever runs the command. Outside quotes, a number sign
that begins an argument starts a comment, and `\#` stands for the number sign itself.

An assignment, `KEY = VALUE`, is brought to exactly two arguments, whatever blanks surround the sign.

This is the tokenizer of section 4.1 of the specification.
-/

namespace Rollout.Script

open Rollout.Text

/-- A keyword, its arguments as they were written, and the line they stand on, counted from 1. -/
structure Statement where
  keyword : Keyword
  arguments : List String
  line : Nat
  deriving DecidableEq, Repr

namespace Statement

def isQuote (c : Char) : Bool :=
  c = '"' || c = '\''

/-- The token collected so far, last character first, as the list of the token it ends: none if
nothing was collected. -/
def endToken : List Char → List (List Char)
  | [] => []
  | token => [token.reverse]

/-- The tokens of the rest of a line, inside the given open quote and after the characters of the
token under way, last character first. `none` if a quote is open at the end. -/
def tokensFrom : Option Char → List Char → List Char → Option (List (List Char))
  | none, token, [] => some (endToken token)
  | some _, _, [] => none
  | some quote, token, c :: rest =>
    tokensFrom (if c = quote then none else some quote) (c :: token) rest
  | none, token, '\\' :: '#' :: rest => tokensFrom none ('#' :: token) rest
  | none, token, c :: rest =>
    if c = '#' && token.isEmpty then some []
    else if isQuote c then tokensFrom (some c) (c :: token) rest
    else if isBlank c then (tokensFrom none [] rest).map (endToken token ++ ·)
    else tokensFrom none (c :: token) rest

/-- The tokens of a line, or the open quote that spoils it. -/
def tokens (line : List Char) : Except Fault (List String) :=
  match tokensFrom none [] line with
  | none => .error .unterminatedQuote
  | some found => .ok (found.map String.ofList)

def cutAt (mark : Char) : List Char → Option (List Char × List Char)
  | [] => none
  | c :: rest =>
    if c = mark then some ([], rest)
    else (cutAt mark rest).map fun (before, after) => (c :: before, after)

/-- The key and value of an assignment whose tokens are joined by single spaces and cut at the first
equals sign. -/
def assignment (keyword : Keyword) (arguments : List String) : Except Fault (List String) :=
  match cutAt '=' (" ".intercalate arguments).toList with
  | none => .error (.noEquals keyword)
  | some (left, right) =>
    let key := trim left
    let value := trim right
    if key.isEmpty || key.any isBlank then .error (.badKey keyword (String.ofList key))
    else if value.isEmpty then .error (.noValue keyword (String.ofList key))
    else .ok [String.ofList key, String.ofList value]

/-- Whether the first character that is not blank makes the whole line a comment. -/
def isComment (line : List Char) : Bool :=
  (trimStart line).head? = some '#'

/-- The statement that a first word makes with the tokens after it. -/
def ofTokens (word : String) (arguments : List String) :
    Except Fault (Keyword × List String) :=
  if !word.toList.all Char.isUpper then .error (.notAKeyword word)
  else match Keyword.ofWord? word with
    | none => .error (.unknownKeyword word)
    | some keyword =>
      if arguments.isEmpty then .error (.noArguments keyword)
      else if keyword.isAssignment then
        (assignment keyword arguments).map fun pair => (keyword, pair)
      else .ok (keyword, arguments)

/-- The keyword and arguments that a line states, if it states anything. -/
def ofLine (line : List Char) : Except Fault (Option (Keyword × List String)) :=
  if isComment line then .ok none
  else match tokens line with
    | .error fault => .error fault
    | .ok [] => .ok none
    | .ok (word :: arguments) => (ofTokens word arguments).map some

/-- The statements of lines that are numbered from `number` on, up to the first fault. -/
def ofLines (number : Nat) : List (List Char) → Except GrammarError (List Statement)
  | [] => .ok []
  | line :: rest =>
    match ofLine line with
    | .error fault => .error { fault, line := number }
    | .ok none => ofLines (number + 1) rest
    | .ok (some (keyword, arguments)) =>
      (ofLines (number + 1) rest).map ({ keyword, arguments, line := number } :: ·)

def ofSource (source : String) : Except GrammarError (List Statement) :=
  ofLines 1 (lines source.toList)

end Statement

end Rollout.Script

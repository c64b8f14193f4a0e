import Rollout.Script.Keyword

/-!
# Faults of a script line

Everything that can be wrong with one line of a script, and how it is told to the author. A script is
refused as a whole at its first fault, before anything runs.

The faults are those of sections 4.1 and 4.2 of the specification.
-/

namespace Rollout.Script

/-- What is wrong with a line. -/
inductive Fault where
  /-- A quote is open at the end of the line. -/
  | unterminatedQuote
  /-- The first word is not made of capital letters. -/
  | notAKeyword (word : String)
  /-- The first word is made of capital letters but is no keyword. -/
  | unknownKeyword (word : String)
  | noArguments (keyword : Keyword)
  /-- An assignment without an equals sign. -/
  | noEquals (keyword : Keyword)
  /-- An assignment to a key that is empty or holds a blank. -/
  | badKey (keyword : Keyword) (key : String)
  | noValue (keyword : Keyword) (key : String)
  | exactly (keyword : Keyword) (expected got : Nat)
  | atLeast (keyword : Keyword) (expected got : Nat)
  /-- A connect target without an at sign. -/
  | badTarget (target : String)
  | badPort (port : String)
  | noUsername
  | noHost
  /-- A wrapped value, named by its opening, whose last character does not close it. -/
  | unclosed (opening : String)
  | emptyForm (opening : String)
  | badVariableName (name : String)
  /-- A fault given in words. -/
  | stated (text : String)
  deriving DecidableEq, Repr

def countedArguments (count : Nat) : String :=
  toString count ++ if count = 1 then " argument" else " arguments"

def Fault.message : Fault → String
  | unterminatedQuote => "unterminated quote"
  | notAKeyword word => "invalid grammar near `" ++ word ++ "`"
  | unknownKeyword word => "invalid action `" ++ word ++ "`"
  | noArguments keyword => "`" ++ keyword.word ++ "` requires at least one argument"
  | noEquals keyword => "`" ++ keyword.word ++ "` expects `KEY = VALUE`"
  | badKey keyword key => "`" ++ keyword.word ++ "` has an invalid key `" ++ key ++ "`"
  | noValue keyword key => "`" ++ keyword.word ++ " " ++ key ++ "` is missing a value"
  | exactly keyword expected got =>
    "`" ++ keyword.word ++ "` takes exactly " ++ countedArguments expected ++
      ", got " ++ toString got
  | atLeast keyword expected got =>
    "`" ++ keyword.word ++ "` takes at least " ++ countedArguments expected ++
      ", got " ++ toString got
  | badTarget target => "`CONNECT " ++ target ++ "` expects user[:password]@host[:port]"
  | badPort port => "invalid port `" ++ port ++ "`"
  | noUsername => "`CONNECT` is missing a username"
  | noHost => "`CONNECT` is missing a host"
  | unclosed opening => "`" ++ opening ++ "` is missing its closing `)`"
  | emptyForm opening => "`" ++ opening ++ ")` needs a value inside the parentheses"
  | badVariableName name => "invalid environment variable name `" ++ name ++ "`"
  | stated text => text

/-- A fault and the line it is on, counted from 1. -/
structure GrammarError where
  fault : Fault
  line : Nat
  deriving DecidableEq, Repr

def GrammarError.message (error : GrammarError) : String :=
  "Grammar error at line " ++ toString error.line ++ ": " ++ error.fault.message

end Rollout.Script

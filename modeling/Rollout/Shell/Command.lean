import Rollout.Shell.Token

/-!
# Commands of the shell

The structure of a command line: simple commands with their assignments and redirections, pipelines,
lists, conditions and loops.
-/

namespace Rollout.Shell

inductive Redirect where
  | input (target : Word)
  | output (descriptor : Nat) (target : Word)
  | append (descriptor : Nat) (target : Word)
  | duplicate (descriptor : Nat) (target : Word)
  deriving DecidableEq, Repr

/-- A command. -/
inductive Command where
  | simple (words : List Word) (redirects : List Redirect)
  | pipe (left right : Command)
  | both (left right : Command)
  | either (left right : Command)
  | sequence (left right : Command)
  | negate (command : Command)
  | condition (test yes no : Command)
  /-- Repeats the body as long as the test succeeds, or fails if `expected` is false. -/
  | loop (expected : Bool) (test body : Command)
  | each (name : String) (words : List Word) (body : Command)
  | group (command : Command) (redirects : List Redirect)
  | subshell (command : Command) (redirects : List Redirect)
  | nothing
  deriving Repr

/-- A reserved word or other bare word at the head of the tokens. -/
def head? : List Token → Option String
  | .word word :: _ => word.bare?
  | _ => none

/-- Words that end a list of commands. -/
def closers : List String :=
  ["then", "else", "elif", "fi", "do", "done", "\x7d"]

def skipSeparators : List Token → List Token
  | .operator "\n" :: rest => skipSeparators rest
  | .operator ";" :: rest => skipSeparators rest
  | tokens => tokens

def skipNewlines : List Token → List Token
  | .operator "\n" :: rest => skipNewlines rest
  | tokens => tokens

def redirectOf (operator : String) (descriptor : Option Nat) (target : Word) : Option Redirect :=
  match operator with
  | "<" => some (.input target)
  | ">" => some (.output (descriptor.getD 1) target)
  | ">>" => some (.append (descriptor.getD 1) target)
  | ">&" => some (.duplicate (descriptor.getD 1) target)
  | _ => none

/-- The words and redirections of a simple command, and what follows it. -/
def readSimple : List Token → Option (List Word × List Redirect × List Token)
  | .descriptor number :: .operator operator :: .word target :: rest =>
    match redirectOf operator (some number) target with
    | some redirect =>
      (readSimple rest).map fun (words, redirects, rest) => (words, redirect :: redirects, rest)
    | none => none
  | .operator operator :: .word target :: rest =>
    match redirectOf operator none target with
    | some redirect =>
      (readSimple rest).map fun (words, redirects, rest) => (words, redirect :: redirects, rest)
    | none => some ([], [], .operator operator :: .word target :: rest)
  | .word word :: rest =>
    (readSimple rest).map fun (words, redirects, rest) => (word :: words, redirects, rest)
  | tokens => some ([], [], tokens)

def readRedirects (tokens : List Token) : Option (List Redirect × List Token) :=
  match readSimple tokens with
  | some ([], redirects, rest) => some (redirects, rest)
  | _ => none

/-- The words up to the end of a `for` clause. -/
def readWords : List Token → List Word × List Token
  | .word word :: rest => let (words, rest) := readWords rest; (word :: words, rest)
  | tokens => ([], tokens)

def expect (word : String) (tokens : List Token) : Option (List Token) :=
  if head? tokens = some word then some (tokens.drop 1) else none

mutual

def readList : Nat → List Token → Option (Command × List Token)
  | 0, _ => none
  | fuel + 1, tokens =>
    let tokens := skipSeparators tokens
    if tokens.isEmpty || closers.contains ((head? tokens).getD "") ||
        tokens.head? = some (.operator ")") then
      some (.nothing, tokens)
    else do
      let (first, rest) ← readAndOr fuel tokens
      match rest with
      | .operator ";" :: more | .operator "\n" :: more =>
        let (others, rest) ← readList fuel more
        return (.sequence first others, rest)
      | _ => return (first, rest)

/-- Pipelines joined by `&&` and `||`, which associate to the left. -/
def readAndOr : Nat → List Token → Option (Command × List Token)
  | 0, _ => none
  | fuel + 1, tokens => do
    let (first, rest) ← readPipeline fuel tokens
    readAndOrAfter fuel first rest

def readAndOrAfter : Nat → Command → List Token → Option (Command × List Token)
  | 0, _, _ => none
  | fuel + 1, left, .operator "&&" :: rest => do
    let (right, rest) ← readPipeline fuel (skipNewlines rest)
    readAndOrAfter fuel (.both left right) rest
  | fuel + 1, left, .operator "||" :: rest => do
    let (right, rest) ← readPipeline fuel (skipNewlines rest)
    readAndOrAfter fuel (.either left right) rest
  | _, left, rest => some (left, rest)

def readPipeline : Nat → List Token → Option (Command × List Token)
  | 0, _ => none
  | fuel + 1, tokens =>
    if head? tokens = some "!" then do
      let (command, rest) ← readPipeline fuel (tokens.drop 1)
      return (.negate command, rest)
    else do
      let (first, rest) ← readCommand fuel tokens
      match rest with
      | .operator "|" :: more =>
        let (others, rest) ← readPipeline fuel (skipNewlines more)
        return (.pipe first others, rest)
      | _ => return (first, rest)

def readCommand : Nat → List Token → Option (Command × List Token)
  | 0, _ => none
  | fuel + 1, .operator "(" :: rest => do
    let (command, rest) ← readList fuel rest
    match rest with
    | .operator ")" :: rest =>
      let (redirects, rest) ← readRedirects rest
      return (.subshell command redirects, rest)
    | _ => none
  | fuel + 1, tokens =>
    match head? tokens with
    | some "\x7b" => do
      let (command, rest) ← readList fuel (tokens.drop 1)
      let rest ← expect "\x7d" rest
      let (redirects, rest) ← readRedirects rest
      return (.group command redirects, rest)
    | some "if" => do
      let (command, rest) ← readCondition fuel (tokens.drop 1)
      let (redirects, rest) ← readRedirects rest
      return (.group command redirects, rest)
    | some "while" => readLoop fuel true (tokens.drop 1)
    | some "until" => readLoop fuel false (tokens.drop 1)
    | some "for" =>
      match tokens.drop 1 with
      | .word name :: rest => do
        let name ← name.bare?
        let rest ← expect "in" (skipNewlines rest)
        let (words, rest) := readWords rest
        let rest ← expect "do" (skipSeparators rest)
        let (body, rest) ← readList fuel rest
        let rest ← expect "done" rest
        let (redirects, rest) ← readRedirects rest
        return (.group (.each name words body) redirects, rest)
      | _ => none
    | _ => do
      let (words, redirects, rest) ← readSimple tokens
      if words.isEmpty && redirects.isEmpty then none
      else return (.simple words redirects, rest)

def readCondition : Nat → List Token → Option (Command × List Token)
  | 0, _ => none
  | fuel + 1, tokens => do
    let (test, rest) ← readList fuel tokens
    let rest ← expect "then" rest
    let (yes, rest) ← readList fuel rest
    match head? rest with
    | some "elif" =>
      let (no, rest) ← readCondition fuel (rest.drop 1)
      return (.condition test yes no, rest)
    | some "else" =>
      let (no, rest) ← readList fuel (rest.drop 1)
      let rest ← expect "fi" rest
      return (.condition test yes no, rest)
    | some "fi" => return (.condition test yes .nothing, rest.drop 1)
    | _ => none

def readLoop : Nat → Bool → List Token → Option (Command × List Token)
  | 0, _, _ => none
  | fuel + 1, expected, tokens => do
    let (test, rest) ← readList fuel tokens
    let rest ← expect "do" rest
    let (body, rest) ← readList fuel rest
    let rest ← expect "done" rest
    let (redirects, rest) ← readRedirects rest
    return (.group (.loop expected test body) redirects, rest)

end

/-- The command that a text holds, or `none` if it is no command. -/
def parse (text : List Char) : Option Command :=
  match tokens text with
  | none => none
  | some tokens =>
    match readList (8 * (tokens.length + 1)) tokens with
    | some (command, []) => some command
    | _ => none

end Rollout.Shell

import Rollout.Session

/-!
# Tokens of a command line

How a POSIX shell cuts a command line into words and operators, before it expands anything. Every
character of a word keeps how it is guarded: bare, inside double quotes, where a dollar sign still
counts, or inside single quotes or after a backslash, where nothing does.
-/

namespace Rollout.Shell

/-- How a character is kept from the shell. -/
inductive Guard where
  | bare
  | soft
  | hard
  deriving DecidableEq, Repr

/-- A character of a word, or the place where a quotation begins: a word of quotes alone is an empty
word and not none. -/
inductive Mark where
  | char (c : Char) (guard : Guard)
  | quotes
  deriving DecidableEq, Repr

abbrev Word := List Mark

def isMeta (c : Char) : Bool :=
  " \t\n;&|<>()".toList.contains c

def softEscapes : List Char := ['$', '\x60', '"', '\\', '\n']

/-- Where the reading of a word stands. -/
inductive Scan where
  | bare
  /-- Between single quotes. -/
  | hard
  /-- Between double quotes. -/
  | soft
  /-- In an expansion that the given number of closing brackets ends. -/
  | nested (guard : Guard) (depth : Nat)
  /-- In an expansion between braces. -/
  | braced (guard : Guard)
  /-- Between back quotes. -/
  | ticked (guard : Guard)
  deriving DecidableEq, Repr

/-- Where reading goes on after an expansion whose characters have the given guard. -/
def Scan.after : Guard → Scan
  | .soft => .soft
  | _ => .bare

def prepend (mark : Mark) (read : Option (Word × List Char)) : Option (Word × List Char) :=
  read.map fun (word, rest) => (mark :: word, rest)

/-- Reads the rest of a word. `none` if something that was opened is not closed. -/
def readWord : Scan → List Char → Option (Word × List Char)
  | .bare, [] => some ([], [])
  | _, [] => none
  | .hard, c :: rest =>
    if c = '\'' then readWord .bare rest else prepend (.char c .hard) (readWord .hard rest)
  | .bare, '\\' :: '\n' :: rest => readWord .bare rest
  | .bare, '\\' :: c :: rest => prepend (.char c .hard) (readWord .bare rest)
  | .soft, '\\' :: c :: rest =>
    if c = '\n' then readWord .soft rest
    else if softEscapes.contains c then prepend (.char c .hard) (readWord .soft rest)
    else prepend (.char '\\' .hard) (prepend (.char c .hard) (readWord .soft rest))
  | .nested guard depth, c :: rest =>
    prepend (.char c guard) <|
      if c = '(' then readWord (.nested guard (depth + 1)) rest
      else if c = ')' then
        readWord (if depth ≤ 1 then Scan.after guard else .nested guard (depth - 1)) rest
      else readWord (.nested guard depth) rest
  | .braced guard, c :: rest =>
    prepend (.char c guard) <|
      readWord (if c = '}' then Scan.after guard else .braced guard) rest
  | .ticked guard, c :: rest =>
    prepend (.char c guard) <|
      readWord (if c = '\x60' then Scan.after guard else .ticked guard) rest
  | .bare, '$' :: '(' :: rest =>
    prepend (.char '$' .bare) (prepend (.char '(' .bare) (readWord (.nested .bare 1) rest))
  | .bare, '$' :: '{' :: rest =>
    prepend (.char '$' .bare) (prepend (.char '{' .bare) (readWord (.braced .bare) rest))
  | .soft, '$' :: '(' :: rest =>
    prepend (.char '$' .soft) (prepend (.char '(' .soft) (readWord (.nested .soft 1) rest))
  | .soft, '$' :: '{' :: rest =>
    prepend (.char '$' .soft) (prepend (.char '{' .soft) (readWord (.braced .soft) rest))
  | .soft, c :: rest =>
    if c = '"' then readWord .bare rest
    else if c = '\x60' then prepend (.char c .soft) (readWord (.ticked .soft) rest)
    else prepend (.char c .soft) (readWord .soft rest)
  | .bare, c :: rest =>
    if c = '\'' then prepend .quotes (readWord .hard rest)
    else if c = '"' then prepend .quotes (readWord .soft rest)
    else if c = '\x60' then prepend (.char c .bare) (readWord (.ticked .bare) rest)
    else if isMeta c then some ([], c :: rest)
    else prepend (.char c .bare) (readWord .bare rest)

inductive Token where
  | word (word : Word)
  /-- An operator by its spelling; a line feed is one. -/
  | operator (text : String)
  /-- A number right before a redirection: the file descriptor it is for. -/
  | descriptor (number : Nat)
  deriving DecidableEq, Repr

def Word.bare? (word : Word) : Option String :=
  (word.mapM fun (mark : Mark) => match mark with
    | .char c .bare => some c
    | _ => none).map String.ofList

def wordToken (word : Word) (rest : List Char) : Token :=
  match word.bare?.bind String.toNat?, rest with
  | some number, '<' :: _ | some number, '>' :: _ => .descriptor number
  | _, _ => .word word

def longOperators : List (List Char) :=
  ["&&".toList, "||".toList, ";;".toList, ">>".toList, ">&".toList, "<&".toList, "<<".toList]

/-- The next token and what follows it: `some (none, …)` at the end, `none` if a quotation is not
closed. Blanks and comments before the token are passed over. -/
def readToken : List Char → Option (Option Token × List Char)
  | [] => some (none, [])
  | c :: rest =>
    if c = ' ' || c = '\t' then readToken rest
    else if c = '#' then readComment rest
    else if isMeta c then
      match rest with
      | d :: rest' =>
        if longOperators.contains [c, d] then
          some (some (.operator (String.ofList [c, d])), rest')
        else some (some (.operator (String.ofList [c])), rest)
      | [] => some (some (.operator (String.ofList [c])), rest)
    else (readWord .bare (c :: rest)).map fun (word, rest) =>
      (some (wordToken word rest), rest)
where
  /-- Passes over a comment, up to the end of its line. -/
  readComment : List Char → Option (Option Token × List Char)
    | [] => some (none, [])
    | '\n' :: rest => some (some (.operator "\n"), rest)
    | _ :: rest => readComment rest

/-- All tokens of a text that is read in at most `fuel` tokens. -/
def tokensWithin : Nat → List Char → Option (List Token)
  | 0, _ => some []
  | fuel + 1, text =>
    match readToken text with
    | none => none
    | some (none, _) => some []
    | some (some token, rest) => (tokensWithin fuel rest).map (token :: ·)

def tokens (text : List Char) : Option (List Token) :=
  tokensWithin (text.length + 1) text

end Rollout.Shell

import Rollout.Script.Action
import Rollout.Script.Statement

/-!
# Reading actions from statements

Each keyword fixes how many arguments it takes and what they mean. The forms of a connect target,
`user[:password]@host[:port]`, and of a variable's source, `ENV(…)`, `REMOTE_ENV(…)`, `CMD(…)`,
`REMOTE_CMD(…)` or a literal, are read here. A local command is started without a shell, so its quotes
are taken off; a remote command meets a shell and keeps them.

This is the action parser of section 4.2 of the specification.
-/

namespace Rollout.Script

open Rollout.Text

def cutAtLast (mark : Char) (text : List Char) : Option (List Char × List Char) :=
  (Statement.cutAt mark text.reverse).map fun (after, before) => (before.reverse, after.reverse)

def decimal (digits : List Char) : Nat :=
  digits.foldl (fun value digit => 10 * value + (digit.toNat - '0'.toNat)) 0

/-- A port number: digits, perhaps after a plus sign, of a value that fits sixteen bits. -/
def port? (text : List Char) : Option UInt16 :=
  let digits := match text with
    | '+' :: rest => rest
    | _ => text
  if digits.isEmpty || !digits.all Char.isDigit then none
  else if decimal digits < UInt16.size then some (UInt16.ofNat (decimal digits))
  else none

def defaultPort : UInt16 := 22

def loginOf (credentials address : List Char) : Except Fault Login :=
  let (username, password) := match Statement.cutAt ':' credentials with
    | some (username, password) => (username, some (String.ofList password))
    | none => (credentials, none)
  let finish (host : List Char) (port : UInt16) : Except Fault Login :=
    if username.isEmpty then .error .noUsername
    else if host.isEmpty then .error .noHost
    else .ok { username := String.ofList username, host := String.ofList host, port, password }
  match Statement.cutAt ':' address with
  | none => finish address defaultPort
  | some (host, port) =>
    match port? port with
    | none => .error (.badPort (String.ofList port))
    | some port => finish host port

/-- A login written `user[:password]@host[:port]`, where the last at sign divides. -/
def Login.ofText (target : String) : Except Fault Login :=
  match cutAtLast '@' target.toList with
  | none => .error (.badTarget target)
  | some (credentials, address) => loginOf credentials address

/-- A token without the quotes that enclose its parts, read inside the given open quote. -/
def unquote : Option Char → List Char → List Char
  | _, [] => []
  | some quote, c :: rest =>
    if c = quote then unquote none rest else c :: unquote (some quote) rest
  | none, c :: rest =>
    if Statement.isQuote c then unquote (some c) rest else c :: unquote none rest

/-- The words of a text that is split at blanks outside quotes, without those quotes. Reading goes on
inside the given open quote, and after the characters of the word under way, last character first; a
pair of quotes with nothing between them makes an empty word. -/
def unquotedWords : Option Char → Option (List Char) → List Char → List (List Char)
  | _, word, [] => (word.map List.reverse).toList
  | some quote, word, c :: rest =>
    if c = quote then unquotedWords none word rest
    else unquotedWords (some quote) (some (c :: word.getD [])) rest
  | none, word, c :: rest =>
    if Statement.isQuote c then unquotedWords (some c) (some (word.getD [])) rest
    else if isBlank c then (word.map List.reverse).toList ++ unquotedWords none none rest
    else unquotedWords none (some (c :: word.getD [])) rest

inductive Form where
  | environment (side : Side)
  | command (side : Side)
  deriving DecidableEq, Repr

def Form.opening : Form → String
  | environment .here => "ENV("
  | environment .remote => "REMOTE_ENV("
  | command .here => "CMD("
  | command .remote => "REMOTE_CMD("

/-- All wrapped forms. No opening begins another. -/
def Form.all : List Form :=
  [environment .here, environment .remote, command .here, command .remote]

/-- The source that a form makes of the trimmed text between its parentheses. -/
def Form.source (form : Form) (body : List Char) : Except Fault Source :=
  if body.isEmpty then .error (.emptyForm form.opening)
  else match form with
    | environment side =>
      if body.any isBlank then .error (.badVariableName (String.ofList body))
      else .ok (.environment side (String.ofList body))
    | command .here => .ok (.command .here ((unquotedWords none none body).map String.ofList))
    | command .remote => .ok (.command .remote ((words body).map String.ofList))

/-- The source written as `text`: one of the wrapped forms, or the text itself. -/
def Source.ofText (text : String) : Except Fault Source :=
  match Form.all.find? fun form => form.opening.toList.isPrefixOf text.toList with
  | none => .ok (.literal text)
  | some form =>
    if text.toList.getLast? = some ')' then
      form.source (trim (text.toList.drop form.opening.length).dropLast)
    else .error (.unclosed form.opening)

def ofOne (keyword : Keyword) (arguments : List String) (make : String → Except Fault Action) :
    Except Fault Action :=
  match arguments with
  | [argument] => make argument
  | _ => .error (.exactly keyword 1 arguments.length)

def ofTwo (keyword : Keyword) (arguments : List String)
    (make : String → String → Except Fault Action) : Except Fault Action :=
  match arguments with
  | [first, second] => make first second
  | _ => .error (.exactly keyword 2 arguments.length)

/-- An action of a keyword that takes one or more sources and then a destination. -/
def ofSources (keyword : Keyword) (arguments : List String)
    (make : List String → String → Action) : Except Fault Action :=
  match arguments.dropLast, arguments.getLast? with
  | source :: more, some destination => .ok (make (source :: more) destination)
  | _, _ => .error (.atLeast keyword 2 arguments.length)

def Action.ofArguments (keyword : Keyword) (arguments : List String) : Except Fault Action :=
  match keyword with
  | .connect => ofOne .connect arguments fun target => (Login.ofText target).map .connect
  | .var => ofTwo .var arguments fun key value => (Source.ofText value).map (.var key)
  | .env => ofTwo .env arguments fun key value => .ok (.env key value)
  | .cd => ofOne .cd arguments fun target => .ok (.cd target)
  | .cmd =>
    match arguments.map fun argument => String.ofList (unquote none argument.toList) with
    | [] => .error (.atLeast .cmd 1 0)
    | program :: rest => .ok (.cmd program rest)
  | .run =>
    if arguments.isEmpty then .error (.atLeast .run 1 0)
    else .ok (.run (Action.spaced arguments))
  | .move => ofTwo .move arguments fun source destination => .ok (.move source destination)
  | .copy => ofTwo .copy arguments fun source destination => .ok (.copy source destination)
  | .delete =>
    if arguments.isEmpty then .error (.atLeast .delete 1 0) else .ok (.delete arguments)
  | .upload => ofSources .upload arguments .upload
  | .download => ofSources .download arguments .download

/-- The action of a first word and arguments that are taken as they are. -/
def Action.ofWord (word : String) (arguments : List String) : Except Fault Action :=
  match Keyword.ofWord? word with
  | none => .error (.unknownKeyword word)
  | some keyword => Action.ofArguments keyword arguments

def Step.ofStatement (statement : Statement) : Except GrammarError Step :=
  match Action.ofArguments statement.keyword statement.arguments with
  | .error fault => .error { fault, line := statement.line }
  | .ok action => .ok { action, line := statement.line }

def stepsOf : List Statement → Except GrammarError (List Step)
  | [] => .ok []
  | statement :: rest =>
    match Step.ofStatement statement with
    | .error error => .error error
    | .ok step => (stepsOf rest).map (step :: ·)

/-- Reads a whole script. All lines are split into statements before the first statement is looked
into, so a line that cannot be split is reported before an earlier one that has the wrong shape. -/
def parse (source : String) : Except GrammarError Script :=
  match Statement.ofSource source with
  | .error error => .error error
  | .ok statements => (stepsOf statements).map fun steps => { steps }

end Rollout.Script

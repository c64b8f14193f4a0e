import Rollout.Machine.Programs
import Rollout.Shell.Command
import Rollout.Shell.Expansion
import Rollout.Text.Blank
import Rollout.Text.Decode

/-!
# The shell on the operator's machine

Carries out command lines: expands words, redirects output, runs the standard programs and the shell's
own commands. Loops need not end, so a run is given a bound on how deep it nests and repeats; a run
that reaches the bound counts as killed.
-/

namespace Rollout.Machine

open Rollout.Shell (Word Part Cell Redirect Command)

inductive Exit where
  | status (code : Nat)
  | signal (number : Nat)
  deriving DecidableEq, Repr

/-- Where a stream goes. -/
inductive Sink where
  | out
  | err
  | file (place : String)
  | nowhere
  deriving DecidableEq, Repr

/-- Loops that are being left: the innermost of them is ended, or goes on with its next round. -/
inductive Leave where
  | ended (loops : Nat)
  | next (loops : Nat)
  deriving DecidableEq, Repr

structure Interpreter where
  /-- Its environment holds the exported variables. -/
  machine : Machine
  bindings : List (String × String) := []
  /-- Variables without a value that are exported as soon as they have one. -/
  awaited : List String := []
  name : String := "sh"
  arguments : List String := []
  status : Nat := 0
  /-- What was written, latest first; `true` is the standard output. -/
  written : List (Bool × Bytes) := []
  out : Sink := .out
  err : Sink := .err
  ended : Option Exit := none
  /-- How many loops are under way. -/
  loops : Nat := 0
  leaving : Option Leave := none

namespace Interpreter

/-- Whether the shell passes over what comes next. -/
def stopped (shell : Interpreter) : Bool :=
  shell.ended.isSome || shell.leaving.isSome

/-- The shell at the end of a round of a loop, and whether the loop goes on. -/
def roundEnd (shell : Interpreter) : Interpreter × Bool :=
  match shell.leaving with
  | none => (shell, shell.ended.isNone)
  | some (.ended loops) =>
    ({ shell with leaving := if loops ≤ 1 then none else some (.ended (loops - 1)) }, false)
  | some (.next loops) =>
    if loops ≤ 1 then ({ shell with leaving := none }, true)
    else ({ shell with leaving := some (.next (loops - 1)) }, false)

def collected (shell : Interpreter) (out : Bool) : Bytes :=
  (shell.written.reverse.filter fun chunk => chunk.1 == out).flatMap (·.2)

def emit (shell : Interpreter) (sink : Sink) (bytes : Bytes) : Interpreter :=
  if bytes.isEmpty then shell
  else match sink with
    | .out => { shell with written := (true, bytes) :: shell.written }
    | .err => { shell with written := (false, bytes) :: shell.written }
    | .file place => { shell with machine := shell.machine.append place bytes }
    | .nowhere => shell

def withStatus (shell : Interpreter) (status : Nat) : Interpreter :=
  { shell with status }

/-- The shell after a complaint that ends nothing. -/
def complain (shell : Interpreter) (status : Nat) (text : String) : Interpreter :=
  (shell.emit shell.err (complaint (shell.name ++ ": 1: " ++ text))).withStatus status

/-- The shell after a complaint that ends it. -/
def abort (shell : Interpreter) (text : String) : Interpreter :=
  { shell.complain 2 text with ended := some (.status 2) }

def processNumber : String := "4242"

def natural? (text : List Char) : Option Nat :=
  if text.isEmpty || !text.all Char.isDigit then none else some (numberIn 10 text)

def value (shell : Interpreter) (name : String) : Option String :=
  match name with
  | "?" => some (toString shell.status)
  | "#" => some (toString shell.arguments.length)
  | "$" => some processNumber
  | "0" => some shell.name
  | "@" | "*" => some (" ".intercalate shell.arguments)
  | "-" | "!" => some ""
  | _ =>
    match natural? name.toList with
    | some n => shell.arguments[n - 1]?
    | none => (shell.bindings.lookup name).or (shell.machine.environment.lookup name)

/-- The pairs with a new value for a name, which goes last if it is new. -/
def rebind (name value : String) : List (String × String) → List (String × String)
  | [] => [(name, value)]
  | pair :: rest =>
    if pair.1 = name then (name, value) :: rest else pair :: rebind name value rest

def assign (shell : Interpreter) (name value : String) : Interpreter :=
  if (shell.machine.environment.lookup name).isSome || shell.awaited.contains name then
    { shell with machine := { shell.machine with
        environment := rebind name value shell.machine.environment } }
  else { shell with bindings := rebind name value shell.bindings }

def exportVariable (shell : Interpreter) (name value : String) : Interpreter :=
  { shell with
    bindings := shell.bindings.filter (·.1 ≠ name)
    machine := { shell.machine with
      environment := rebind name value shell.machine.environment } }

/-- The shell at the start of a text. It knows the directory under a name, whatever the name meant before. -/
def started (machine : Machine) (name : String := "sh") (arguments : List String := []) : Interpreter :=
  assign { machine, name, arguments } "PWD" machine.directory

def moved (shell : Interpreter) (directory : String) : Interpreter :=
  assign { shell with machine := { shell.machine with directory } } "PWD" directory

/-- The shell after `export` of a name alone: what has no value yet is exported once it has one. -/
def exportName (shell : Interpreter) (name : String) : Interpreter :=
  match shell.value name with
  | some value => shell.exportVariable name value
  | none => { shell with awaited := name :: shell.awaited }

/-- The shell after `export` with an argument: a name, or a name and the value after the equals sign. A name
that no variable can have ends the shell. -/
def exportArgument (shell : Interpreter) (argument : String) : Interpreter :=
  let (name, value) := argument.toList.span (· ≠ '=')
  if !Rollout.Shell.namesVariable name then
    shell.abort ("export: " ++ String.ofList name ++ ": bad variable name")
  else match value with
    | '=' :: value => shell.exportVariable (String.ofList name) (String.ofList value)
    | _ => shell.exportName (String.ofList name)

def exportAll (shell : Interpreter) : List String → Interpreter
  | [] => shell.withStatus 0
  | argument :: rest =>
    let after := shell.exportArgument argument
    if after.stopped then after else after.exportAll rest

/-- A variable as a number; what is no number counts as zero. -/
def numberOf (shell : Interpreter) (name : String) : Int :=
  ((shell.value name).bind String.toInt?).getD 0

/-- A word `NAME=VALUE`, cut at its first bare equals sign. -/
def assignment? (word : Word) : Option (String × Word) :=
  let name := Rollout.Shell.nameOf word
  match name, word.drop name.length with
  | first :: _, .char '=' .bare :: rest =>
    if first.isDigit then none else some (String.ofList name, rest)
  | _, _ => none

def numberOf? (text : String) : Option Int :=
  match Text.trim text.toList with
  | '+' :: digits => (natural? digits).map Int.ofNat
  | '-' :: digits => (natural? digits).map fun value => -Int.ofNat value
  | digits => (natural? digits).map Int.ofNat

/-- What a comparison of two numbers says, or what is said of the one that is no number. -/
def compareNumbers (left right : String) (holds : Int → Int → Bool) : Except String Bool :=
  match numberOf? left, numberOf? right with
  | some a, some b => .ok (holds a b)
  | none, _ => .error ("Illegal number: " ++ left)
  | _, none => .error ("Illegal number: " ++ right)

def compare (left operator right : String) : Except String Bool :=
  match operator with
  | "=" => .ok (left = right)
  | "!=" => .ok (left ≠ right)
  | "-eq" => compareNumbers left right fun a b => a = b
  | "-ne" => compareNumbers left right fun a b => a ≠ b
  | "-lt" => compareNumbers left right fun a b => a < b
  | "-le" => compareNumbers left right fun a b => a ≤ b
  | "-gt" => compareNumbers left right fun a b => a > b
  | "-ge" => compareNumbers left right fun a b => a ≥ b
  | _ => .error (left ++ ": unexpected operator")

/-- Whether what a path leads to has a mode that allows something. -/
def allows (machine : Machine) (path : String) (may : Nat → Bool) : Bool :=
  match machine.node path with
  | .ok (.file _ mode) | .ok (.directory mode) => may mode
  | _ => false

def testOne (machine : Machine) (operator operand : String) : Except String Bool :=
  match operator with
  | "-n" => .ok (!operand.isEmpty)
  | "-z" => .ok operand.isEmpty
  | "-d" => .ok (machine.isDirectory operand)
  | "-e" => .ok (machine.node operand).toOption.isSome
  | "-r" => .ok (allows machine operand mayRead)
  | "-w" => .ok (allows machine operand mayWrite)
  | "-x" => .ok (allows machine operand mayExecute)
  | "-f" =>
    match machine.node operand with
    | .ok (.file ..) => .ok true
    | _ => .ok false
  | "-s" =>
    match machine.contentAt operand with
    | .ok content => .ok (!content.isEmpty)
    | _ => .ok false
  | _ => .error (operator ++ ": unexpected operator")

def testSimple (machine : Machine) : List String → Except String Bool
  | [] => .ok false
  | [operand] => .ok (!operand.isEmpty)
  | [left, operator, right] => compare left operator right
  | "!" :: rest => (testSimple machine rest).map not
  | [operator, operand] => testOne machine operator operand
  | operand :: _ => .error (operand ++ ": unexpected operator")

/-- The arguments before and after the first `word`, if it has some on both sides. -/
def cutAtWord (word : String) (arguments : List String) : Option (List String × List String) :=
  match arguments.span (· ≠ word) with
  | (left@(_ :: _), _ :: right@(_ :: _)) => some (left, right)
  | _ => none

/-- What `test` says of at most `fuel` arguments: `-o` binds looser than `-a`. -/
def testWithin (machine : Machine) : Nat → List String → Except String Bool
  | 0, _ => .ok false
  | fuel + 1, arguments =>
    if arguments.length ≤ 3 then testSimple machine arguments
    else match cutAtWord "-o" arguments with
      | some (left, right) => do
        return (← testWithin machine fuel left) || (← testWithin machine fuel right)
      | none =>
        match cutAtWord "-a" arguments with
        | some (left, right) => do
          return (← testWithin machine fuel left) && (← testWithin machine fuel right)
        | none => testSimple machine arguments

/-- The shell after a `test` under the name it was called by. -/
def tested (shell : Interpreter) (name : String) (arguments : List String) : Interpreter :=
  match testWithin shell.machine (arguments.length + 1) arguments with
  | .ok holds => shell.withStatus (if holds then 0 else 1)
  | .error text => shell.complain 2 (name ++ ": " ++ text)

def signalOf (option : String) : Option Nat :=
  match option with
  | "-9" | "-KILL" | "-SIGKILL" => some 9
  | "-15" | "-TERM" | "-SIGTERM" => some 15
  | "-2" | "-INT" | "-SIGINT" => some 2
  | "-1" | "-HUP" | "-SIGHUP" => some 1
  | "-6" | "-ABRT" | "-SIGABRT" => some 6
  | _ => none

def firstLine : Bytes → Bytes × Bytes
  | [] => ([], [])
  | byte :: rest =>
    if byte = 10 then ([], rest)
    else let (line, rest) := firstLine rest; (byte :: line, rest)

/-- The shell that leaves one or more of the loops under way. -/
def leave (shell : Interpreter) (how : Nat → Leave) (arguments : List String) : Interpreter :=
  let loops := min ((arguments.head?.bind fun given => natural? given.toList).getD 1) shell.loops
  let shell := shell.withStatus 0
  if loops = 0 then shell else { shell with leaving := some (how loops) }

/-- Runs one of the shell's own commands; none if there is no such command. -/
def builtIn (shell : Interpreter) (name : String) (arguments : List String) : Option Interpreter :=
  let ran (ran : Ran) : Interpreter :=
    let shell := { shell with machine := ran.machine }
    ((shell.emit shell.out ran.out).emit shell.err ran.err).withStatus ran.status
  match name, arguments with
  | ":", _ | "true", _ => some (shell.withStatus 0)
  | "false", _ => some (shell.withStatus 1)
  | "echo", arguments => some (ran (shellEcho shell.machine arguments))
  | "printf", arguments => 
    some (ran (printf .shell (shell.name ++ ": 1: printf: ") shell.machine arguments))
  | "pwd", _ => some (ran (pwd shell.machine))
  | "test", arguments => some (shell.tested "test" arguments)
  | "[", arguments =>
    if arguments.getLast? = some "]" then some (shell.tested "[" arguments.dropLast)
    else some (shell.complain 2 "[: missing ]")
  | "exit", [] | "return", [] => some { shell with ended := some (.status shell.status) }
  | "exit", given :: _ | "return", given :: _ =>
    match natural? (Text.trim given.toList) with
    | some status => some { shell with status, ended := some (.status (status % 256)) }
    | none => some (shell.abort (name ++ ": Illegal number: " ++ given))
  | "break", arguments => some (shell.leave .ended arguments)
  | "continue", arguments => some (shell.leave .next arguments)
  | "set", "--" :: arguments => some ({ shell with arguments }.withStatus 0)
  | "kill", [option, target] =>
    if target = processNumber then
      some { shell with ended := some (.signal ((signalOf option).getD 15)) }
    else some (shell.complain 1 "kill: No such process")
  | "kill", [target] =>
    if target = processNumber then some { shell with ended := some (.signal 15) }
    else some (shell.complain 1 "kill: No such process")
  | "cd", arguments =>
    let target := (arguments.head?).getD ((shell.value "HOME").getD "")
    match shell.machine.locate (if target.isEmpty then "." else target) with
    | .ok place =>
      if shell.machine.files.isDirectory place.path then
        some ((shell.moved place.path).withStatus 0)
      else some (shell.complain 2 ("cd: can't cd to " ++ target))
    | .error _ => some (shell.complain 2 ("cd: can't cd to " ++ target))
  | "export", arguments => some (shell.exportAll arguments)
  | "unset", arguments =>
    some ({ shell with
      bindings := shell.bindings.filter fun pair => !arguments.contains pair.1
      awaited := shell.awaited.filter fun name => !arguments.contains name
      machine := { shell.machine with
        environment :=
          shell.machine.environment.filter fun pair => !arguments.contains pair.1 } }.withStatus 0)
  | "shift", arguments =>
    let count := (arguments.head?.bind fun given => natural? given.toList).getD 1
    if count ≤ shell.arguments.length then
      some ({ shell with arguments := shell.arguments.drop count }.withStatus 0)
    else some (shell.abort "shift: can't shift that many")
  | "read", arguments =>
    let (line, rest) := firstLine shell.machine.input
    let ended := shell.machine.input.isEmpty
    let shell := { shell with machine := { shell.machine with input := rest } }
    some ((shell.assign (arguments.getLast?.getD "REPLY")
      (Text.decodeLossy line)).withStatus (if ended then 1 else 0))
  | _, _ => none

/-- Points a descriptor at a sink. -/
def point (shell : Interpreter) (descriptor : Nat) (sink : Sink) : Interpreter :=
  if descriptor = 1 then { shell with out := sink }
  else if descriptor = 2 then { shell with err := sink }
  else shell

def openFor (shell : Interpreter) (keep : Bool) (descriptor : Nat) (target : String) :
    Except String Interpreter :=
  if target = nullDevice then .ok (shell.point descriptor .nowhere)
  else if target = outputDevice then .ok (shell.point descriptor shell.out)
  else if target = errorDevice then .ok (shell.point descriptor shell.err)
  else
    let old := if keep then (shell.machine.contentAt target).toOption.getD [] else []
    match shell.machine.createFile target with
    | .ok (place, machine) =>
      .ok ({ shell with machine := machine.append place old }.point descriptor (.file place))
    | .error .noEntry => .error ("cannot create " ++ target ++ ": Directory nonexistent")
    | .error error => .error ("cannot create " ++ target ++ ": " ++ error.description)

def redirect (shell : Interpreter) (kind : Redirect) (target : String) :
    Except String Interpreter :=
  match kind with
  | .input _ =>
    if target = nullDevice then .ok { shell with machine := { shell.machine with input := [] } }
    else match shell.machine.contentAt target with
      | .ok content => .ok { shell with machine := { shell.machine with input := content } }
      | .error .noEntry => .error ("cannot open " ++ target ++ ": No such file")
      | .error error => .error ("cannot open " ++ target ++ ": " ++ error.description)
  | .output descriptor _ => shell.openFor false descriptor target
  | .append descriptor _ => shell.openFor true descriptor target
  | .duplicate descriptor _ =>
    match target with
    | "1" => .ok (shell.point descriptor shell.out)
    | "2" => .ok (shell.point descriptor shell.err)
    | "-" => .ok (shell.point descriptor .nowhere)
    | _ => .error (target ++ ": bad file descriptor")

def targetOf : Redirect → Word
  | .input target | .output _ target | .append _ target | .duplicate _ target => target

/-- The word that stands for all arguments, one field each; without arguments it is no field at all. -/
def allArguments : List Part :=
  [.quotes, .parameter ['@'] true]

def cellsOf (guarded : Bool) (text : String) : List Cell :=
  text.toList.map fun c => .char c (!guarded)

def withoutNewlines (text : List Char) : List Char :=
  (text.reverse.dropWhile (· = '\n')).reverse

/-- What stands between the braces of a parameter: its name, an operator and a word. -/
def braced (text : List Char) : String × List Char × List Char :=
  let name := match text with
    | c :: _ => if Rollout.Shell.isNameChar c then text.takeWhile Rollout.Shell.isNameChar else [c]
    | [] => []
  let rest := text.drop name.length
  let operator := rest.takeWhile ([':', '-', '+', '='].contains ·) |>.take 2
  let operator := if operator.head? = some ':' then operator else operator.take 1
  (String.ofList name, operator, rest.drop operator.length)

/-- The shell for a command whose effects on the shell itself do not stay. -/
def child (shell : Interpreter) : Interpreter :=
  { shell with
    written := [], out := .out, err := .err, ended := none, loops := 0, leaving := none }

def childStatus (child : Interpreter) : Nat :=
  match child.ended with
  | some (.status status) => status
  | some (.signal number) => 128 + number
  | none => child.status

/-- The shell after a child: files and the rest of the input stay, the child's own state does not. -/
def after (shell child : Interpreter) : Interpreter :=
  let shell := { shell with machine := { shell.machine with
    files := child.machine.files, input := child.machine.input } }
  let shell := child.written.reverse.foldl
    (fun shell chunk => shell.emit (if chunk.1 then shell.out else shell.err) chunk.2) shell
  shell.withStatus child.childStatus

/-- The shell that a program's start amounts to, if it does, and the text it is to carry out. -/
def launch? (machine : Machine) (name : String) (arguments : List String) :
    Option (Interpreter × List Char) :=
  match programName name, arguments with
  | "sh", "-c" :: text :: rest =>
    some (started machine (rest.head?.getD "sh") (rest.drop 1), text.toList)
  | "sh", script :: rest =>
    match machine.contentAt script with
    | .ok content =>
      some (started machine script rest, (Text.decodeLossy content).toList)
    | .error _ =>
      let shell := started machine
      let text := complaint ("sh: 0: cannot open " ++ script ++ ": No such file")
      some ({ shell.emit .err text with status := 2, ended := some (.status 2) }, [])
  | "sh", [] =>
    let text := (Text.decodeLossy machine.input).toList
    some (started { machine with input := [] }, text)
  | _, _ =>
    match name.toList.contains '/', machine.node name with
    | true, .ok (.file content mode) =>
      if mayExecute mode then
        some (started machine name arguments, (Text.decodeLossy content).toList)
      else none
    | _, _ => none

mutual

/-- The cells of a word's parts, and the shell after expanding them. -/
def expand : Nat → Interpreter → List Part → Interpreter × List Cell
  | 0, shell, _ => ({ shell with ended := some (.signal 9) }, [])
  | _, shell, [] => (shell, [])
  | fuel + 1, shell, part :: rest =>
    let (shell, cells) : Interpreter × List Cell := match part with
      | .char c => (shell, [.char c false])
      | .quotes => (shell, [.quotes])
      | .parameter ['@'] true =>
        (shell, (shell.arguments.map fun argument =>
          .quotes :: cellsOf true argument).intersperse [.fieldEnd] |>.flatten)
      | .parameter text guarded =>
        match braced text with
        | (name, [], []) => (shell, cellsOf guarded ((shell.value name).getD ""))
        | ("#", _, word) =>
          (shell, cellsOf guarded (toString ((shell.value (String.ofList word)).getD "").length))
        | (name, operator, word) =>
          let old := shell.value name
          let missing : Bool := match operator with
            | ':' :: _ => (old.getD "").isEmpty
            | _ => old.isNone
          let alternative : Bool := operator.getLast? == some '+'
          if missing != alternative then
            match Rollout.Shell.readWord .soft (word ++ ['"']) with
            | some (marks, _) =>
              let (shell, cells) := expand fuel shell (Word.parts marks)
              let text := cells.filterMap fun cell => match cell with
                | .char c _ => some c
                | _ => none
              let shell := if operator.getLast? = some '=' then
                shell.assign name (String.ofList text) else shell
              (shell, cellsOf guarded (String.ofList text))
            | none => (shell.abort "Bad substitution", [])
          else if alternative then (shell, [])
          else (shell, cellsOf guarded (old.getD ""))
      | .arithmetic text guarded =>
        match Rollout.Shell.arithmetic shell.numberOf text with
        | some value => (shell, cellsOf guarded (toString value))
        | none => (shell.abort "arithmetic expression: expecting primary", [])
      | .command text guarded =>
        match Rollout.Shell.parse text with
        | some command =>
          let child := eval fuel shell.child command
          let output := withoutNewlines (Text.decodeLossy (child.collected true)).toList
          let shell := { shell with machine := { shell.machine with
            files := child.machine.files, input := child.machine.input } }
          let shell := (shell.emit shell.err (child.collected false)).withStatus child.childStatus
          (shell, cellsOf guarded (String.ofList output))
        | none => (shell.abort "Syntax error", [])
    let (shell, more) := expand fuel shell rest
    (shell, cells ++ more)

def expandWords : Nat → Interpreter → List Word → Interpreter × List String
  | 0, shell, _ => ({ shell with ended := some (.signal 9) }, [])
  | _, shell, [] => (shell, [])
  | fuel + 1, shell, word :: rest =>
    if shell.arguments.isEmpty && word.parts = allArguments then expandWords fuel shell rest
    else
      let (shell, cells) := expand fuel shell word.parts
      let (shell, more) := expandWords fuel shell rest
      (shell, Rollout.Shell.fields none cells ++ more)

def expandText : Nat → Interpreter → Word → Interpreter × String
  | 0, shell, _ => ({ shell with ended := some (.signal 9) }, "")
  | fuel + 1, shell, word =>
    let (shell, cells) := expand fuel shell word.parts
    (shell, String.ofList (cells.filterMap fun cell => match cell with
      | .char c _ => some c
      | _ => none))

def redirectAll : Nat → Interpreter → List Redirect → Except String Interpreter × Interpreter
  | 0, shell, _ => (.error "too deep", shell)
  | _, shell, [] => (.ok shell, shell)
  | fuel + 1, shell, kind :: rest =>
    let (shell, target) := expandText fuel shell (targetOf kind)
    match shell.redirect kind target with
    | .error text => (.error text, shell)
    | .ok shell => redirectAll fuel shell rest

def assignAll : Nat → Interpreter → List (String × Word) → Interpreter × List (String × String)
  | 0, shell, _ => ({ shell with ended := some (.signal 9) }, [])
  | _, shell, [] => (shell, [])
  | fuel + 1, shell, (name, word) :: rest =>
    let (shell, value) := expandText fuel shell word
    let (shell, more) := assignAll fuel shell rest
    (shell, (name, value) :: more)

/-- Runs a command with its streams redirected, and puts the streams back. -/
def redirected : Nat → Interpreter → List Redirect → Command → Interpreter
  | 0, shell, _, _ => { shell with ended := some (.signal 9) }
  | fuel + 1, shell, redirects, command =>
    match redirectAll fuel shell redirects with
    | (.error text, shell) => shell.complain 2 text
    | (.ok inner, _) =>
      let inner := eval fuel inner command
      let input := if redirects.any (fun kind => match kind with | .input _ => true | _ => false)
        then shell.machine.input else inner.machine.input
      { inner with out := shell.out, err := shell.err, machine := { inner.machine with input } }

/-- Carries out a text. -/
def carryOut : Nat → Interpreter → List Char → Interpreter
  | 0, shell, _ => { shell with ended := some (.signal 9) }
  | fuel + 1, shell, text =>
    if shell.ended.isSome then shell
    else match Rollout.Shell.parse text with
      | none => shell.abort "Syntax error: Unterminated quoted string"
      | some command => eval fuel shell command

def runProgram : Nat → Interpreter → String → List String → Interpreter
  | 0, shell, _, _ => { shell with ended := some (.signal 9) }
  | fuel + 1, shell, name, arguments =>
    match launch? shell.machine name arguments with
    | some (inner, text) => shell.after (carryOut fuel inner text)
    | none =>
      match program? (programName name) with
      | some program =>
        let ran := program shell.machine arguments
        let shell := { shell with machine := { shell.machine with
          files := ran.machine.files, input := ran.machine.input } }
        ((shell.emit shell.out ran.out).emit shell.err ran.err).withStatus ran.status
      | none =>
        if name.toList.contains '/' && (shell.machine.node name).toOption.isSome then
          shell.complain 126 (name ++ ": Permission denied")
        else shell.complain 127 (name ++ ": not found")

/-- Carries out a command's words: one of the shell's own commands, or a program. -/
def invoke : Nat → Interpreter → String → List String → Interpreter
  | 0, shell, _, _ => { shell with ended := some (.signal 9) }
  | fuel + 1, shell, name, arguments =>
    match name, arguments with
    | "eval", _ => carryOut fuel shell (" ".intercalate arguments).toList
    | "command", name :: arguments => invoke fuel shell name arguments
    | "exec", name :: arguments =>
      let ran := runProgram fuel shell name arguments
      { ran with ended := ran.ended.or (some (.status ran.status)) }
    | ".", script :: _ =>
      match shell.machine.contentAt script with
      | .ok content => carryOut fuel shell (Text.decodeLossy content).toList
      | .error _ => shell.abort (".: cannot open " ++ script ++ ": No such file")
    | _, _ => (shell.builtIn name arguments).getD (runProgram fuel shell name arguments)

def eval : Nat → Interpreter → Command → Interpreter
  | 0, shell, _ => { shell with ended := some (.signal 9) }
  | fuel + 1, shell, command =>
    if shell.stopped then shell
    else match command with
      | .nothing => shell
      | .sequence left right => eval fuel (eval fuel shell left) right
      | .both left right =>
        let shell := eval fuel shell left
        if shell.status = 0 then eval fuel shell right else shell
      | .either left right =>
        let shell := eval fuel shell left
        if shell.status = 0 then shell else eval fuel shell right
      | .negate command =>
        let shell := eval fuel shell command
        shell.withStatus (if shell.status = 0 then 1 else 0)
      | .condition test yes no =>
        let shell := eval fuel shell test
        if shell.status = 0 then eval fuel shell yes else eval fuel (shell.withStatus 0) no
      | .loop expected test body =>
        let ran := rounds fuel { shell with loops := shell.loops + 1 } expected test body 0
        { ran with loops := shell.loops }
      | .each name words body =>
        let (shell, values) := expandWords fuel shell words
        if values.isEmpty then shell.withStatus 0
        else
          let ran := eachValue fuel { shell with loops := shell.loops + 1 } name body values
          { ran with loops := shell.loops }
      | .group command redirects => redirected fuel shell redirects command
      | .subshell command redirects =>
        shell.after (redirected fuel shell.child redirects command)
      | .pipe left right =>
        let source := eval fuel shell.child left
        let shell := { shell with machine := { shell.machine with files := source.machine.files } }
        let shell := shell.emit shell.err (source.collected false)
        let inner := shell.child
        let inner := eval fuel
          { inner with machine := { inner.machine with input := source.collected true } } right
        let input := shell.machine.input
        let shell := shell.after inner
        { shell with machine := { shell.machine with input } }
      | .simple words redirects =>
        let assignments := (words.map assignment?).takeWhile Option.isSome |>.filterMap id
        let (shell, assigned) := assignAll fuel shell assignments
        let (shell, fields) := expandWords fuel shell (words.drop assignments.length)
        if shell.ended.isSome then shell
        else match redirectAll fuel shell redirects with
          | (.error text, shell) => shell.complain 2 text
          | (.ok inner, _) =>
            let restore (inner : Interpreter) : Interpreter :=
              { inner with out := shell.out, err := shell.err }
            match fields with
            | [] =>
              restore ((assigned.foldl (fun shell pair => shell.assign pair.1 pair.2) inner))
            | ["exec"] => inner
            | name :: arguments =>
              if assigned.isEmpty then restore (invoke fuel inner name arguments)
              else
                let run := assigned.foldl
                  (fun shell pair => shell.exportVariable pair.1 pair.2) inner
                let ran := invoke fuel run name arguments
                let ran := { ran with
                  bindings := shell.bindings
                  machine := { ran.machine with environment := shell.machine.environment } }
                restore (ran.moved ran.machine.directory)

def eachValue : Nat → Interpreter → String → Command → List String → Interpreter
  | 0, shell, _, _, _ => { shell with ended := some (.signal 9) }
  | _, shell, _, _, [] => shell
  | fuel + 1, shell, name, body, value :: rest =>
    match (eval fuel (shell.assign name value) body).roundEnd with
    | (shell, true) => eachValue fuel shell name body rest
    | (shell, false) => shell

/-- Carries out a body as long as a test comes out as expected, and leaves the status of the last
round, or `status` if there was none. -/
def rounds : Nat → Interpreter → Bool → Command → Command → Nat → Interpreter
  | 0, shell, _, _, _, _ => { shell with ended := some (.signal 9) }
  | fuel + 1, shell, expected, test, body, status =>
    let tested := eval fuel shell test
    if tested.stopped then tested.roundEnd.1
    else if (tested.status = 0) = expected then
      match (eval fuel tested body).roundEnd with
      | (shell, true) => rounds fuel shell expected test body shell.status
      | (shell, false) => shell
    else tested.withStatus status

end

end Interpreter

/-- How deep a run may nest and repeat. -/
def runBound : Nat := 1000000

/-- Runs a program and returns how its shell stands at the end. -/
def runArguments (machine : Machine) (name : String) (arguments : List String) : Interpreter :=
  match Interpreter.launch? machine name arguments with
  | some (shell, text) => Interpreter.carryOut runBound shell text
  | none => Interpreter.runProgram runBound (Interpreter.started machine) name arguments

end Rollout.Machine

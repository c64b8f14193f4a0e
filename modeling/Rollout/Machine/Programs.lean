import Rollout.Machine.State
import Rollout.Machine.Format

/-!
# Programs of the operator's machine

The small standard programs that local commands are made of. A program reads the machine, may change
its files and take from its standard input, and ends with a status and what it wrote.
-/

namespace Rollout.Machine

/-- How a program's run came out. -/
structure Ran where
  machine : Machine
  status : Nat := 0
  out : Bytes := []
  err : Bytes := []
  deriving DecidableEq, Repr

def complaint (text : String) : Bytes :=
  utf8 (text ++ "\n")

def isEchoOption (argument : String) : Bool :=
  match argument.toList with
  | '-' :: c :: rest => (c :: rest).all fun c => c = 'n' || c = 'e' || c = 'E'
  | _ => false

/-- The arguments with single spaces between them, on a line of their own unless told otherwise. -/
def echo (machine : Machine) (arguments : List String) : Ran :=
  let options := (arguments.takeWhile isEchoOption).flatMap fun argument => argument.toList.drop 1
  let text := " ".intercalate (arguments.dropWhile isEchoOption)
  let escapes := (options.filter (· ≠ 'n')).getLast? = some 'e'
  let (out, ended) :=
    if escapes then unescape Dialect.program.textEscapes text else (utf8 text, false)
  { machine, out := if ended || options.contains 'n' then out else out ++ [10] }

/-- `echo` as the shell's own command: escapes always count, and `-n` alone is an option. -/
def shellEcho (machine : Machine) (arguments : List String) : Ran :=
  let (bare, arguments) := match arguments with
    | "-n" :: rest => (true, rest)
    | _ => (false, arguments)
  let text := " ".intercalate arguments
  let (out, ended) := unescape Dialect.shell.textEscapes text
  { machine, out := if ended || bare then out else out ++ [10] }

/-- The arguments in the shape of a format. Complaints are headed by the name of who writes. -/
def printf (dialect : Dialect) (heading : String) (machine : Machine) (operands : List String) : Ran :=
  let printing := printed dialect operands
  { machine, status := printing.status, out := printing.out
    err := printing.complaints.flatMap fun text => complaint (heading ++ text) }

/-- The operands of a program that knows no options: what follows `--` is one whatever it looks like. -/
def operands? : List String → Except String (List String)
  | [] => .ok []
  | "--" :: rest => .ok rest
  | argument :: rest =>
    match argument.toList with
    | '-' :: option :: _ => .error (String.ofList [option])
    | _ => (operands? rest).map (argument :: ·)

/-- A program's run that ends at once for the way in which it was called. -/
def misused (machine : Machine) (name text : String) : Ran :=
  { machine, status := 1
    err := complaint (name ++ ": " ++ text) ++
      complaint ("Try '" ++ name ++ " --help' for more information.") }

def nullDevice : String := "/dev/null"

def inputDevice : String := "/dev/stdin"

def outputDevice : String := "/dev/stdout"

def errorDevice : String := "/dev/stderr"

/-- The contents of the named files one after the other; `-` and no name at all are the standard
input. -/
def catFiles (ran : Ran) : List String → Ran
  | [] => ran
  | name :: rest =>
    if name = nullDevice then catFiles ran rest
    else if name = "-" || name = inputDevice then
      catFiles { ran with
        machine := { ran.machine with input := [] }, out := ran.out ++ ran.machine.input } rest
    else match ran.machine.contentAt name with
      | .ok content => catFiles { ran with out := ran.out ++ content } rest
      | .error error =>
        catFiles { ran with
          status := 1
          err := ran.err ++ complaint ("cat: " ++ shownName name ++ ": " ++ error.description) } rest

def cat (machine : Machine) (arguments : List String) : Ran :=
  match operands? arguments with
  | .error option => misused machine "cat" ("invalid option -- '" ++ option ++ "'")
  | .ok [] => catFiles { machine } ["-"]
  | .ok names => catFiles { machine } names

def pwd (machine : Machine) : Ran :=
  { machine, out := complaint machine.directory }

def touchFiles (ran : Ran) : List String → Ran
  | [] => ran
  | name :: rest =>
    match ran.machine.node name with
    | .ok _ => touchFiles ran rest
    | .error _ =>
      match ran.machine.createFile name with
      | .ok (_, machine) => touchFiles { ran with machine } rest
      | .error error =>
        touchFiles { ran with
          status := 1
          err := ran.err ++
            complaint ("touch: cannot touch " ++ quotedName name ++ ": " ++ error.description) } rest

def touch (machine : Machine) (arguments : List String) : Ran :=
  match operands? arguments with
  | .error option => misused machine "touch" ("invalid option -- '" ++ option ++ "'")
  | .ok [] => misused machine "touch" "missing file operand"
  | .ok names => touchFiles { machine } names

/-- Each of the named directories, made anew; with parents if `parents` says so. -/
def makeAll (parents : Bool) (ran : Ran) : List String → Ran
  | [] => ran
  | name :: rest =>
    match
      if parents && !name.isEmpty then ran.machine.makeDirectories name
      else ran.machine.makeDirectory name
    with
    | .ok machine => makeAll parents { ran with machine } rest
    | .error error =>
      makeAll parents { ran with
        status := 1
        err := ran.err ++
          complaint ("mkdir: cannot create directory " ++ escapedName name ++ ": " ++
            error.description) } rest

def mkdir (machine : Machine) (arguments : List String) : Ran :=
  match operands? (arguments.filter (· ≠ "-p")) with
  | .error option => misused machine "mkdir" ("invalid option -- '" ++ option ++ "'")
  | .ok [] => misused machine "mkdir" "missing operand"
  | .ok names => makeAll (arguments.contains "-p") { machine } names

def program? (name : String) : Option (Machine → List String → Ran) :=
  match name with
  | "echo" => some echo
  | "printf" => some (printf .program "printf: ")
  | "cat" => some cat
  | "pwd" => some fun machine _ => pwd machine
  | "true" => some fun machine _ => { machine }
  | "false" => some fun machine _ => { machine, status := 1 }
  | "touch" => some touch
  | "mkdir" => some mkdir
  | _ => none

def programDirectories : List String := ["/bin", "/usr/bin"]

/-- The standard program's name that a path to it ends with. -/
def programName (path : String) : String :=
  if programDirectories.contains (Files.parent path) then Files.name path else path

end Rollout.Machine

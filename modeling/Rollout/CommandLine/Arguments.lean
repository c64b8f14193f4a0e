import Rollout.Text.Split

/-!
# Arguments of the program

One script may be named, and options may stand before or after it, in long form with their value after
an equals sign or in the next argument, or in short form, several in one argument. Arguments are read
from left to right, and the first that is help, version or misuse decides. After `--` nothing is an
option.

The options are those of section 10.4 of the specification.
-/

namespace Rollout.CommandLine

inductive Format where
  | text
  | json
  deriving DecidableEq, Repr

structure Arguments where
  /-- The script's path; without one the script comes from the standard input. -/
  script : Option String := none
  /-- Where local paths start. -/
  directory : Option String := none
  /-- Only list the script's steps. -/
  check : Bool := false
  format : Option Format := none
  /-- How long to wait for a connection, in milliseconds. -/
  timeout : Option UInt64 := none
  /-- How much is logged. -/
  verbosity : Nat := 0
  logFile : Option String := none
  deriving DecidableEq, Repr

/-- What becomes of the arguments. -/
inductive Request where
  | run (arguments : Arguments)
  | help
  | version
  | misuse
  deriving DecidableEq, Repr

inductive Valued where
  | directory
  | format
  | timeout
  | logFile
  deriving DecidableEq, Repr

inductive Flag where
  | check
  | verbose
  | help
  | version
  deriving DecidableEq, Repr

/-- An option. -/
inductive Choice where
  | valued (option : Valued)
  | flag (option : Flag)
  deriving DecidableEq, Repr

namespace Choice

def ofName? (name : String) : Option Choice :=
  match name with
  | "directory" => some (valued .directory)
  | "format" => some (valued .format)
  | "timeout" => some (valued .timeout)
  | "log-file" => some (valued .logFile)
  | "check" => some (flag .check)
  | "verbose" => some (flag .verbose)
  | "help" => some (flag .help)
  | "version" => some (flag .version)
  | _ => none

def ofLetter? (letter : Char) : Option Choice :=
  match letter with
  | 'C' => some (valued .directory)
  | 'f' => some (valued .format)
  | 'v' => some (flag .verbose)
  | 'h' => some (flag .help)
  | 'V' => some (flag .version)
  | _ => none

end Choice

/-- A number of milliseconds: digits, perhaps after a plus sign, that fit 64 bits. -/
def milliseconds? (text : String) : Option UInt64 :=
  let digits := match text.toList with
    | '+' :: rest => rest
    | digits => digits
  if digits.isEmpty || !digits.all Char.isDigit then none
  else match (String.ofList digits).toNat? with
    | some value => if value < UInt64.size then some (UInt64.ofNat value) else none
    | none => none

def path? (text : String) : Option String :=
  if text.isEmpty then none else some text

def Format.ofName? (name : String) : Option Format :=
  match name with
  | "text" => some text
  | "json" => some json
  | _ => none

def once {α : Type} (old value : Option α) : Option α :=
  match old with
  | some _ => none
  | none => value

namespace Arguments

/-- The arguments with an option's value, if the value is fit and the option is given once. -/
def give? (arguments : Arguments) (value : String) : Valued → Option Arguments
  | .directory => do
    return { arguments with directory := some (← once arguments.directory (path? value)) }
  | .format => do
    return { arguments with format := some (← once arguments.format (Format.ofName? value)) }
  | .timeout => do
    return { arguments with timeout := some (← once arguments.timeout (milliseconds? value)) }
  | .logFile => do
    return { arguments with logFile := some (← once arguments.logFile (path? value)) }

def name? (arguments : Arguments) (script : String) : Option Arguments := do
  return { arguments with script := some (← once arguments.script (path? script)) }

end Arguments

/-- What reading one argument leads to: an end, or more arguments, the first of which may be taken for
the value of an option. -/
inductive Step where
  | finished (request : Request)
  | more (arguments : Arguments)
  | wantsValue (arguments : Arguments) (option : Valued)

def Step.ofOption : Option Arguments → Step
  | some arguments => more arguments
  | none => finished .misuse

def Step.ofFlag (arguments : Arguments) : Flag → Step
  | .check => if arguments.check then finished .misuse else more { arguments with check := true }
  | .verbose => more { arguments with verbosity := arguments.verbosity + 1 }
  | .help => finished .help
  | .version => finished .version

def readLong (arguments : Arguments) (name : List Char) (value : Option (List Char)) : Step :=
  match Choice.ofName? (String.ofList name), value with
  | some (.valued option), some value => .ofOption (arguments.give? (String.ofList value) option)
  | some (.valued option), none => .wantsValue arguments option
  | some (.flag option), none => .ofFlag arguments option
  | _, _ => .finished .misuse

/-- Reads short options that stand in one argument. What follows the letter of an option with a value
is the value. -/
def readShort (arguments : Arguments) : List Char → Step
  | [] => .more arguments
  | letter :: rest =>
    match Choice.ofLetter? letter with
    | none => .finished .misuse
    | some (.valued option) =>
      match rest with
      | [] => .wantsValue arguments option
      | '=' :: value => .ofOption (arguments.give? (String.ofList value) option)
      | value => .ofOption (arguments.give? (String.ofList value) option)
    | some (.flag option) =>
      match Step.ofFlag arguments option with
      | .more arguments => readShort arguments rest
      | step => step

def cut (text : List Char) : List Char × Option (List Char) :=
  match text.span (· ≠ '=') with
  | (name, _ :: value) => (name, some value)
  | (name, []) => (name, none)

def readOne (arguments : Arguments) (argument : String) : Step :=
  match argument.toList with
  | '-' :: '-' :: long => let (name, value) := cut long; readLong arguments name value
  | '-' :: letter :: rest => readShort arguments (letter :: rest)
  | _ => .ofOption (arguments.name? argument)

/-- Whether an argument can be the value of an option before it. -/
def isValue (argument : String) : Bool :=
  match argument.toList with
  | '-' :: _ :: _ => false
  | _ => true

def readNames (arguments : Arguments) : List String → Request
  | [] => .run arguments
  | argument :: rest =>
    match arguments.name? argument with
    | some arguments => readNames arguments rest
    | none => .misuse

def read (arguments : Arguments) : List String → Request
  | [] => .run arguments
  | "--" :: rest => readNames arguments rest
  | argument :: rest =>
    match readOne arguments argument with
    | .finished request => request
    | .more arguments => read arguments rest
    | .wantsValue arguments option =>
      match rest with
      | [] => .misuse
      | value :: rest =>
        if isValue value then
          match arguments.give? value option with
          | some arguments => read arguments rest
          | none => .misuse
        else .misuse

def timeoutVariable : String := "SKIFF_CONNECT_TIMEOUT"

/-- The request with the environment's timeout where no other is given. -/
def withEnvironment (lookup : String → Option String) : Request → Request
  | .run arguments =>
    match arguments.timeout, lookup timeoutVariable with
    | none, some value =>
      match milliseconds? value with
      | some timeout => .run { arguments with timeout := some timeout }
      | none => .misuse
    | _, _ => .run arguments
  | request => request

/-- What the program is asked for by its arguments and its environment. -/
def Request.ofArguments (lookup : String → Option String) (arguments : List String) : Request :=
  withEnvironment lookup (read {} arguments)

end Rollout.CommandLine

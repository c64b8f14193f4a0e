import Rollout.Copy
import Rollout.Failure
import Rollout.Text.Decode
import Rollout.Text.Split

/-!
# Asking for a password

The question goes to the standard error. If the input is no terminal, the answer is its next line.
On a terminal the keys are read one by one and nothing is shown; Enter ends the answer, Backspace takes
the last character back, and Escape and Ctrl-C break it off.

Section 11 of the specification asks for it.
-/

namespace Rollout.Terminal

def question (text : String) : String :=
  text ++ ": "

/-- A key as the terminal sends it. -/
inductive Key where
  | enter
  | backspace
  | escape
  /-- A character, perhaps with the control key held down. -/
  | char (c : Char) (control : Bool)
  deriving DecidableEq, Repr

namespace Key

/-- The key that one byte below the printable ones stands for; the tabulator is no key that counts. -/
def ofControl (byte : UInt8) : List Key :=
  if byte = 13 then [enter]
  else if byte = 9 then []
  else if byte = 0 then [char ' ' true]
  else if byte ≤ 26 then [char (Char.ofNat (byte.toNat + 96)) true]
  else [char (Char.ofNat (byte.toNat + 24)) true]

def keypadStart : Nat := 57399

/-- The characters of a keypad's keys by number, where its Enter key counts as a line feed. -/
def keypad : List Char := "0123456789./*-+\n=,".toList

/-- The ranges of the numbers of keys that type nothing. -/
def silentCodes : List (Nat × Nat) :=
  [(57358, 57363), (57376, 57398), (57417, 57454)]

/-- The key that the terminal reports by number: a code point, or a number of its own. -/
def ofCode (code : Nat) (control : Bool) : List Key :=
  match code with
  | 13 => [enter]
  | 27 => [escape]
  | 127 => [backspace]
  | 9 => []
  | _ =>
    if silentCodes.any fun (first, last) => first ≤ code && code ≤ last then []
    else if keypadStart ≤ code && code < keypadStart + keypad.length then
      match keypad[code - keypadStart]? with
      | some '\n' | none => [enter]
      | some c => [char c control]
    else if code.isValidChar then [char (Char.ofNat code) control]
    else []

def endsSequence (byte : UInt8) : Bool :=
  64 ≤ byte && byte ≤ 126

def numbers (mark : Char) (text : List Char) : List (Option Nat) :=
  (Text.splitOn mark text).map fun part => (String.ofList part).toNat?

/-- A key reported by number: its code, its modifiers and whether it went down. What is not a press,
such as a release, does not count. -/
def ofReport (body : List Char) : List Key :=
  match Text.splitOn ';' body with
  | code :: rest =>
    match numbers ':' code, (rest.head?.map (numbers ':')).getD [] with
    | some code :: _, modifiers =>
      let mask := ((modifiers.head?.join).getD 1) - 1
      let kind := ((modifiers[1]?).join).getD 1
      if kind = 2 || kind = 3 then [] else ofCode code (mask / 4 % 2 = 1)
    | _, _ => []
  | [] => []

def pasteEnd : Bytes := [27, 91, 50, 48, 49, 126]

def afterPaste : Bytes → Bytes
  | [] => []
  | byte :: rest =>
    if pasteEnd.isPrefixOf (byte :: rest) then (byte :: rest).drop pasteEnd.length
    else afterPaste rest

/-- A control sequence after its first two bytes: the key that it stands for, and what follows. -/
def sequence : Bytes → List Key × Bytes
  | [] => ([], [])
  | first :: rest =>
    if 48 ≤ first && first ≤ 57 then
      let body := first :: rest.takeWhile fun byte => !endsSequence byte
      match rest.dropWhile fun byte => !endsSequence byte with
      | [] => ([], [])
      | last :: rest =>
        if last = 117 then (ofReport (body.map fun byte => Char.ofNat byte.toNat), rest)
        else if last = 126 && body = [50, 48, 48] then ([], afterPaste rest)
        else ([], rest)
    else if first = 91 then ([], rest.drop 1)
    else if first = 77 then ([], rest.drop 3)
    else if first = 60 || first = 63 then ([], (rest.dropWhile fun byte => !endsSequence byte).drop 1)
    else ([], rest)

/-- How many bytes follow the first byte of a character; none if no character begins so. -/
def further? (first : UInt8) : Option Nat :=
  if 0xC0 ≤ first && first ≤ 0xDF then some 1
  else if 0xE0 ≤ first && first ≤ 0xEF then some 2
  else if 0xF0 ≤ first && first ≤ 0xF7 then some 3
  else none

/-- The key of a character of several bytes, and what follows. Bytes that are no character are dropped,
together with the first one that does not go on with them. -/
def character (first : UInt8) (rest : Bytes) : List Key × Bytes :=
  match further? first with
  | none => ([], rest)
  | some further =>
    let going := (rest.take further).takeWhile Text.continues
    if going.length < further then ([], rest.drop (going.length + 1))
    else
      match Text.decode? (first :: going) with
      | some text => (text.toList.map fun c => char c false, rest.drop further)
      | none => ([], rest.drop further)

/-- The keys that the bytes stand for, at most `fuel` of them. -/
def ofBytes : Nat → Bytes → List Key
  | 0, _ | _, [] => []
  | fuel + 1, first :: rest =>
    if first = 27 then
      match rest with
      | [] => [escape]
      | 27 :: rest => escape :: ofBytes fuel rest
      | 91 :: rest => let (keys, rest) := sequence rest; keys ++ ofBytes fuel rest
      | 79 :: rest => ofBytes fuel (rest.drop 1)
      | rest => ofBytes fuel rest
    else if first = 127 then backspace :: ofBytes fuel rest
    else if first < 32 then ofControl first ++ ofBytes fuel rest
    else if first < 128 then char (Char.ofNat first.toNat) false :: ofBytes fuel rest
    else
      let (keys, rest) := character first rest
      keys ++ ofBytes fuel rest

end Key

/-- What the program sees of its standard input: what it has taken but not used, as bytes or as keys,
and what waits. -/
structure Input where
  taken : Bytes := []
  keys : List Key := []
  waiting : Bytes := []
  deriving DecidableEq, Repr

namespace Input

/-- How many bytes the program takes at once. -/
def blockSize : Nat := 8192

def firstLine : Bytes → Bytes × Bytes
  | [] => ([], [])
  | byte :: rest =>
    if byte = 10 then ([10], rest)
    else ((byte :: (firstLine rest).1), (firstLine rest).2)

/-- The input with blocks taken until a line is complete or nothing is left. -/
def fill (input : Input) : Input :=
  if input.taken.contains 10 || input.waiting.isEmpty then input
  else fill { input with
    taken := input.taken ++ input.waiting.take blockSize
    waiting := input.waiting.drop blockSize }
termination_by input.waiting.length
decreasing_by
  have : input.waiting ≠ [] := by
    intro empty
    simp_all
  have := List.length_pos_iff.2 this
  simp only [List.length_drop, blockSize]
  omega

/-- Takes the next line. At the end of the input it is empty. -/
def nextLine (input : Input) : Bytes × Input :=
  let input := input.fill
  let (line, rest) := firstLine input.taken
  (line, { input with taken := rest })

end Input

/-- A line without the line feeds and carriage returns at its end. -/
def withoutEnd (line : String) : String :=
  String.ofList (line.toList.reverse.dropWhile fun c => c = '\n' || c = '\r').reverse

/-- The answer in the next line of an input that is no terminal. -/
def readLine (input : Input) : Except IoError String × Input :=
  let (line, input) := input.nextLine
  match Text.decode? line with
  | none => (.error .invalidText, input)
  | some line => (.ok (withoutEnd line), input)

def cancelled : IoError :=
  .cancelled "password entry cancelled"

/-- What is said when the keys end before the answer does. -/
def keysEnded : IoError :=
  .other "input ended"

/-- The answer that keys spell, after the characters typed so far, latest first, and the keys after it. -/
def spell (typed : List Char) : List Key → Except IoError String × List Key
  | [] => (.error keysEnded, [])
  | .enter :: rest => (.ok (String.ofList typed.reverse), rest)
  | .escape :: rest => (.error cancelled, rest)
  | .backspace :: rest => spell (typed.drop 1) rest
  | .char c control :: rest =>
    if control && c = 'c' then (.error cancelled, rest) else spell (c :: typed) rest

def readHidden (input : Input) : Except IoError String × Input :=
  let (answer, keys) := spell [] (input.keys ++ Key.ofBytes (input.waiting.length + 1) input.waiting)
  (answer, { input with keys, waiting := [] })

/-- Takes the answer to a question, from keys or from the next line. -/
def answer (keys : Bool) (input : Input) : Except IoError String × Input :=
  if keys then readHidden input else readLine input

end Rollout.Terminal

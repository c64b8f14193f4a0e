import Rollout.Machine.Shown

/-!
# Escapes and formats

Texts in which backslash escapes stand for bytes, and formats in which percent signs stand for
arguments. The standard program that writes formats and the shell's own command for it agree on what is
written, but not on which escapes there are nor on how they complain.
-/

namespace Rollout.Machine

def utf8Chars (text : List Char) : Bytes :=
  utf8 (String.ofList text)

def isOctal (c : Char) : Bool := '0' ≤ c && c ≤ '7'

def digitValue (c : Char) : Nat :=
  if c.isDigit then c.toNat - '0'.toNat
  else if c.isLower then c.toNat - 'a'.toNat + 10
  else c.toNat - 'A'.toNat + 10

def isDigitOf (base : Nat) (c : Char) : Bool :=
  c.isAlphanum && digitValue c < base

def numberIn (base : Nat) (digits : List Char) : Nat :=
  digits.foldl (fun value digit => base * value + digitValue digit) 0

/-- Which escapes a text may hold beside letters and octal numbers of up to three digits. -/
structure Escapes where
  /-- A zero before an octal number is none of its digits. -/
  leadingZero : Bool
  /-- `\x` begins a hexadecimal number of one or two digits. -/
  hexadecimal : Bool
  /-- `\c` ends the output. -/
  stops : Bool

def letterEscape (c : Char) : Option UInt8 :=
  match c with
  | 'a' => some 7
  | 'b' => some 8
  | 'e' => some 27
  | 't' => some 9
  | 'n' => some 10
  | 'v' => some 11
  | 'f' => some 12
  | 'r' => some 13
  | '\\' => some 92
  | _ => none

/-- What the characters after a backslash stand for, whether they end the output, and what follows. -/
def escape (escapes : Escapes) : List Char → Bytes × Bool × List Char
  | [] => ([92], false, [])
  | c :: rest =>
    if escapes.stops && c = 'c' then ([], true, [])
    else match letterEscape c with
      | some byte => ([byte], false, rest)
      | none =>
        if isOctal c then
          let source := if escapes.leadingZero && c = '0' then rest else c :: rest
          let digits := (source.take 3).takeWhile isOctal
          ([UInt8.ofNat (numberIn 8 digits)], false, source.drop digits.length)
        else
          let digits := (rest.take 2).takeWhile (isDigitOf 16)
          if escapes.hexadecimal && c = 'x' && !digits.isEmpty then
            ([UInt8.ofNat (numberIn 16 digits)], false, rest.drop digits.length)
          else (utf8Chars ['\\', c], false, rest)

/-- A text of at most `fuel` characters with its escapes carried out, and whether one of them ended
the output. -/
def unescapeWithin (escapes : Escapes) : Nat → List Char → Bytes × Bool
  | 0, _ => ([], false)
  | _, [] => ([], false)
  | fuel + 1, '\\' :: rest =>
    match escape escapes rest with
    | (bytes, true, _) => (bytes, true)
    | (bytes, false, rest) =>
      let (more, ended) := unescapeWithin escapes fuel rest
      (bytes ++ more, ended)
  | fuel + 1, c :: rest =>
    let (more, ended) := unescapeWithin escapes fuel rest
    (utf8Chars [c] ++ more, ended)

/-- A text with its escapes carried out, and whether one of them ended the output. -/
def unescape (escapes : Escapes) (text : String) : Bytes × Bool :=
  unescapeWithin escapes text.length text.toList

/-- Who writes: a program of its own, or a command of the shell. -/
inductive Dialect where
  | program
  | shell
  deriving DecidableEq, Repr

namespace Dialect

def formatEscapes : Dialect → Escapes
  | program => { leadingZero := false, hexadecimal := true, stops := true }
  | shell => { leadingZero := false, hexadecimal := false, stops := false }

def textEscapes : Dialect → Escapes
  | program => { leadingZero := true, hexadecimal := true, stops := true }
  | shell => { leadingZero := true, hexadecimal := false, stops := true }

def notNumber : Dialect → String → String
  | program, argument => escapedName argument ++ ": expected a numeric value"
  | shell, argument => argument ++ ": expected numeric value"

/-- What is said of an argument that begins with a number and goes on. -/
def notWhole : Dialect → String → String
  | program, argument => escapedName argument ++ ": value not completely converted"
  | shell, argument => argument ++ ": not completely converted"

/-- What is said of a conversion that there is not, and the status it leaves. -/
def notConversion : Dialect → String → String × Nat
  | program, text => (text ++ ": invalid conversion specification", 1)
  | shell, text => (text ++ ": invalid directive", 2)

def noFormat : Dialect → String × Nat
  | program => ("missing operand\nTry 'printf --help' for more information.", 1)
  | shell => ("usage: printf format [arg ...]", 2)

end Dialect

structure Conversion where
  flags : List Char
  width : Nat
  precision : Option Nat
  letter : Char

def conversion? (format : List Char) : Option (Conversion × List Char) :=
  let flags := format.takeWhile ("-+ 0#".toList.contains ·)
  let rest := format.drop flags.length
  let width := rest.takeWhile Char.isDigit
  let rest := rest.drop width.length
  let (precision, rest) := match rest with
    | '.' :: rest =>
      let digits := rest.takeWhile Char.isDigit
      (some (numberIn 10 digits), rest.drop digits.length)
    | _ => (none, rest)
  match rest with
  | letter :: rest => some ({ flags, width := numberIn 10 width, precision, letter }, rest)
  | [] => none

/-- How much of an argument is a number. -/
inductive Fit where
  | whole
  | partly
  | nothing
  deriving DecidableEq, Repr

/-- The number that digits write: of base sixteen after `0x`, of base eight after `0`, else of base
ten. -/
def magnitude (text : List Char) : Nat × Fit :=
  let read (base : Nat) (text : List Char) : Nat × Fit :=
    let digits := text.takeWhile (isDigitOf base)
    (numberIn base digits,
      if digits.isEmpty then .nothing
      else if digits.length = text.length then .whole else .partly)
  match text with
  | '0' :: 'x' :: rest | '0' :: 'X' :: rest =>
    match read 16 rest with
    | (_, .nothing) => (0, .partly)
    | number => number
  | '0' :: _ => read 8 text
  | _ => read 10 text

/-- An argument as a whole number. After a quote, a character stands for its code. -/
def wholeNumber (argument : String) : Int × Fit :=
  match argument.toList with
  | '\'' :: c :: _ | '"' :: c :: _ => (c.toNat, .whole)
  | '-' :: rest => let (value, fit) := magnitude rest; (-value, fit)
  | '+' :: rest => let (value, fit) := magnitude rest; (value, fit)
  | text => let (value, fit) := magnitude text; (value, fit)

/-- What was written so far, what was complained of, and the arguments that are left. -/
structure Printing where
  arguments : List String
  out : Bytes := []
  complaints : List String := []
  status : Nat := 0
  ended : Bool := false

namespace Printing

def write (printing : Printing) (bytes : Bytes) : Printing :=
  { printing with out := printing.out ++ bytes }

def complain (printing : Printing) (text : String) (status : Nat) : Printing :=
  { printing with complaints := printing.complaints ++ [text], status }

def pad (conversion : Conversion) (field : Bytes) : Bytes :=
  let padding := List.replicate (conversion.width - field.length) (32 : UInt8)
  if conversion.flags.contains '-' then field ++ padding else padding ++ field

/-- A number padded to a conversion's width, with a sign or mark in front of its digits. -/
def padNumber (conversion : Conversion) (sign : String) (digits : List Char) : Bytes :=
  let room := match conversion.precision with
    | some precision => precision
    | none =>
      if conversion.flags.contains '0' && !conversion.flags.contains '-' then
        conversion.width - sign.length
      else 0
  let zeros := List.replicate (room - digits.length) '0'
  pad conversion (utf8 sign ++ utf8Chars (zeros ++ digits))

/-- The number that an argument is; one that is missing counts as zero. -/
def number (dialect : Dialect) (printing : Printing) (argument : Option String) : Int × Printing :=
  match argument with
  | none => (0, printing)
  | some argument =>
    if argument.isEmpty && dialect = .shell then (0, printing)
    else match wholeNumber argument with
      | (value, .whole) => (value, printing)
      | (value, .partly) => (value, printing.complain (dialect.notWhole argument) 1)
      | (_, .nothing) => (0, printing.complain (dialect.notNumber argument) 1)

/-- A number without a sign, of sixty-four bits. -/
def unsigned (value : Int) : Nat :=
  (value % (UInt64.size : Int)).toNat

def convert (dialect : Dialect) (printing : Printing) (conversion : Conversion) : Printing :=
  let argument := printing.arguments.head?
  let printing := { printing with arguments := printing.arguments.drop 1 }
  let text := argument.getD ""
  match conversion.letter with
  | 's' =>
    let bytes := utf8 text
    printing.write (pad conversion ((conversion.precision.map bytes.take).getD bytes))
  | 'b' =>
    let (bytes, ended) := unescape dialect.textEscapes text
    { printing.write (pad conversion bytes) with ended }
  | 'c' => printing.write (pad conversion ((utf8 text).take 1))
  | 'd' | 'i' =>
    let (value, printing) := printing.number dialect argument
    let sign :=
      if value < 0 then "-"
      else if conversion.flags.contains '+' then "+"
      else if conversion.flags.contains ' ' then " " else ""
    printing.write (padNumber conversion sign (Nat.toDigits 10 value.natAbs))
  | 'u' =>
    let (value, printing) := printing.number dialect argument
    printing.write (padNumber conversion "" (Nat.toDigits 10 (unsigned value)))
  | 'o' =>
    let (value, printing) := printing.number dialect argument
    let mark := if conversion.flags.contains '#' then "0" else ""
    printing.write (padNumber conversion mark (Nat.toDigits 8 (unsigned value)))
  | 'x' =>
    let (value, printing) := printing.number dialect argument
    let mark := if conversion.flags.contains '#' then "0x" else ""
    printing.write (padNumber conversion mark (Nat.toDigits 16 (unsigned value)))
  | 'X' =>
    let (value, printing) := printing.number dialect argument
    let mark := if conversion.flags.contains '#' then "0X" else ""
    printing.write (padNumber conversion mark ((Nat.toDigits 16 (unsigned value)).map Char.toUpper))
  | letter =>
    let (text, status) := dialect.notConversion (String.ofList ['%', letter])
    { printing.complain text status with ended := true }

/-- One pass over a format of at most `fuel` characters. -/
def pass (dialect : Dialect) : Nat → List Char → Printing → Printing
  | 0, _, printing => printing
  | _, [], printing => printing
  | fuel + 1, '%' :: '%' :: rest, printing => pass dialect fuel rest (printing.write [37])
  | fuel + 1, '%' :: rest, printing =>
    match conversion? rest with
    | none =>
      let (text, status) := dialect.notConversion "%"
      { printing.complain text status with ended := true }
    | some (conversion, rest) =>
      let printing := printing.convert dialect conversion
      if printing.ended then printing else pass dialect fuel rest printing
  | fuel + 1, '\\' :: '"' :: rest, printing => pass dialect fuel rest (printing.write [34])
  | fuel + 1, '\\' :: rest, printing =>
    match escape dialect.formatEscapes rest with
    | (bytes, true, _) => { printing.write bytes with ended := true }
    | (bytes, false, rest) => pass dialect fuel rest (printing.write bytes)
  | fuel + 1, c :: rest, printing => pass dialect fuel rest (printing.write (utf8Chars [c]))

/-- A format repeated until it has used up its arguments; it is written once if it uses none. -/
def repeated (dialect : Dialect) (format : List Char) : Nat → Printing → Printing
  | 0, printing => printing
  | fuel + 1, printing =>
    let after := pass dialect format.length format printing
    match after.arguments with
    | [] => after
    | left :: _ =>
      if after.ended then after
      else if after.arguments.length < printing.arguments.length then
        repeated dialect format fuel after
      else if dialect = .program then
        { after with complaints := after.complaints ++
            ["warning: ignoring excess arguments, starting with " ++ escapedName left] }
      else after

end Printing

def printed (dialect : Dialect) (operands : List String) : Printing :=
  match if operands.head? = some "--" then operands.drop 1 else operands with
  | [] =>
    let (text, status) := dialect.noFormat
    ({ arguments := [] } : Printing).complain text status
  | format :: arguments =>
    Printing.repeated dialect format.toList (arguments.length + 1) { arguments }

end Rollout.Machine

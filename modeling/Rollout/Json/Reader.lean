/-!
# Reading JSON

A JSON text is read into its syntax first: strings and numbers stay as they are written. So a value
that nobody asks for is held to the grammar and to nothing else, whatever it holds. What a string
stands for is decided when it is decoded; an escape that is half a character stands for nothing.
-/

namespace Rollout.Json

/-- A JSON value as it is written. -/
inductive Syntactic where
  | null
  | bool (value : Bool)
  /-- A number's text. -/
  | number (text : List Char)
  /-- What stands between a string's quotes. -/
  | string (text : List Char)
  | array (items : List Syntactic)
  /-- The fields in order, keys as they are written. -/
  | object (fields : List (List Char × Syntactic))

namespace Reader

def isBlank (c : Char) : Bool :=
  c = ' ' || c = '\n' || c = '\t' || c = '\r'

def skipBlanks (text : List Char) : List Char :=
  text.dropWhile isBlank

def digits? (text : List Char) : Option (List Char × List Char) :=
  match text.span Char.isDigit with
  | ([], _) => none
  | cut => some cut

/-- Cuts the whole part of a number: zero, or digits that do not begin with zero. -/
def whole? : List Char → Option (List Char × List Char)
  | '0' :: rest => if rest.head?.any Char.isDigit then none else some (['0'], rest)
  | text => digits? text

def fraction? : List Char → Option (List Char × List Char)
  | '.' :: rest => (digits? rest).map fun (digits, rest) => ('.' :: digits, rest)
  | text => some ([], text)

def exponent? : List Char → Option (List Char × List Char)
  | mark :: rest =>
    if mark = 'e' || mark = 'E' then
      match rest with
      | sign :: more =>
        if sign = '+' || sign = '-' then
          (digits? more).map fun (digits, rest) => (mark :: sign :: digits, rest)
        else (digits? rest).map fun (digits, rest) => (mark :: digits, rest)
      | [] => none
    else some ([], mark :: rest)
  | [] => some ([], [])

def number? (text : List Char) : Option (List Char × List Char) := do
  let (sign, text) := match text with
    | '-' :: rest => (['-'], rest)
    | _ => ([], text)
  let (whole, text) ← whole? text
  let (fraction, text) ← fraction? text
  let (exponent, text) ← exponent? text
  return (sign ++ whole ++ fraction ++ exponent, text)

def hexValue? (c : Char) : Option Nat :=
  if c.isDigit then some (c.toNat - '0'.toNat)
  else if 'a' ≤ c && c ≤ 'f' then some (c.toNat - 'a'.toNat + 10)
  else if 'A' ≤ c && c ≤ 'F' then some (c.toNat - 'A'.toNat + 10)
  else none

/-- The number that four hexadecimal digits write. -/
def unit? : List Char → Option Nat
  | [a, b, c, d] => do
    return ((← hexValue? a) * 16 + (← hexValue? b)) * 256 + ((← hexValue? c) * 16 + (← hexValue? d))
  | _ => none

def shortEscape? (c : Char) : Option Char :=
  match c with
  | '"' => some '"'
  | '\\' => some '\\'
  | '/' => some '/'
  | 'b' => some '\x08'
  | 'f' => some '\x0C'
  | 'n' => some '\n'
  | 'r' => some '\r'
  | 't' => some '\t'
  | _ => none

def string? : List Char → Option (List Char × List Char)
  | [] => none
  | '"' :: rest => some ([], rest)
  | '\\' :: 'u' :: a :: b :: c :: d :: rest =>
    if (unit? [a, b, c, d]).isSome then
      (string? rest).map fun (text, rest) => ('\\' :: 'u' :: a :: b :: c :: d :: text, rest)
    else none
  | '\\' :: c :: rest =>
    if (shortEscape? c).isSome then
      (string? rest).map fun (text, rest) => ('\\' :: c :: text, rest)
    else none
  | c :: rest =>
    if c.toNat < 0x20 || c = '\\' then none
    else (string? rest).map fun (text, rest) => (c :: text, rest)

/-- The text after a word, if it begins with it. -/
def word? (word text : List Char) : Option (List Char) :=
  if word.isPrefixOf text then some (text.drop word.length) else none

mutual

def value? : Nat → List Char → Option (Syntactic × List Char)
  | 0, _ => none
  | fuel + 1, text =>
    match skipBlanks text with
    | '\x7b' :: rest =>
      match skipBlanks rest with
      | '\x7d' :: rest => some (.object [], rest)
      | _ => (fields? fuel rest).map fun (fields, rest) => (.object fields, rest)
    | '[' :: rest =>
      match skipBlanks rest with
      | ']' :: rest => some (.array [], rest)
      | _ => (items? fuel rest).map fun (items, rest) => (.array items, rest)
    | '"' :: rest => (string? rest).map fun (text, rest) => (.string text, rest)
    | 't' :: rest => (word? "rue".toList rest).map (.bool true, ·)
    | 'f' :: rest => (word? "alse".toList rest).map (.bool false, ·)
    | 'n' :: rest => (word? "ull".toList rest).map (.null, ·)
    | rest => (number? rest).map fun (text, rest) => (.number text, rest)

def items? : Nat → List Char → Option (List Syntactic × List Char)
  | 0, _ => none
  | fuel + 1, text => do
    let (item, text) ← value? fuel text
    match skipBlanks text with
    | ',' :: rest => (items? fuel rest).map fun (items, rest) => (item :: items, rest)
    | ']' :: rest => some ([item], rest)
    | _ => none

def fields? : Nat → List Char → Option (List (List Char × Syntactic) × List Char)
  | 0, _ => none
  | fuel + 1, text => do
    let (key, text) ← match skipBlanks text with
      | '"' :: rest => string? rest
      | _ => none
    let text ← match skipBlanks text with
      | ':' :: rest => some rest
      | _ => none
    let (value, text) ← value? fuel text
    match skipBlanks text with
    | ',' :: rest => (fields? fuel rest).map fun (fields, rest) => ((key, value) :: fields, rest)
    | '\x7d' :: rest => some ([(key, value)], rest)
    | _ => none

end

/-- Whether a number is the first, or the second, unit of a character that takes two. -/
def isHigh (unit : Nat) : Bool := 0xD800 ≤ unit && unit < 0xDC00

def isLow (unit : Nat) : Bool := 0xDC00 ≤ unit && unit < 0xE000

end Reader

/-- Reads a text that holds one value and nothing else. -/
def read? (text : String) : Option Syntactic :=
  match Reader.value? (2 * text.length + 2) text.toList with
  | some (value, rest) => if (Reader.skipBlanks rest).isEmpty then some value else none
  | none => none

open Reader in
def decode? : List Char → Option (List Char)
  | [] => some []
  | '\\' :: 'u' :: a :: b :: c :: d :: rest =>
    match unit? [a, b, c, d] with
    | none => none
    | some unit =>
      if isHigh unit then
        match rest with
        | '\\' :: 'u' :: a :: b :: c :: d :: rest =>
          match unit? [a, b, c, d] with
          | none => none
          | some second =>
            if isLow second then
              (decode? rest).map
                (Char.ofNat (0x10000 + (unit - 0xD800) * 0x400 + (second - 0xDC00)) :: ·)
            else none
        | _ => none
      else if isLow unit then none
      else (decode? rest).map (Char.ofNat unit :: ·)
  | '\\' :: c :: rest =>
    match shortEscape? c with
    | none => none
    | some c => (decode? rest).map (c :: ·)
  | c :: rest => (decode? rest).map (c :: ·)

def Syntactic.text? : Syntactic → Option String
  | .string text => (decode? text).map String.ofList
  | _ => none

def Syntactic.natural? : Syntactic → Option Nat
  | .number text => if text.all Char.isDigit then (String.ofList text).toNat? else none
  | _ => none

end Rollout.Json

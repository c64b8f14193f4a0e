import Rollout.Copy

/-!
# Names in complaints

How the standard programs show the names they complain about. A name that a shell would take as it
stands may be shown as it stands; any other is quoted so that a shell would read it back. Bytes that do
not print are written as escapes between quotes of their own.
-/

namespace Rollout.Machine

def utf8 (text : String) : Bytes :=
  text.toUTF8.data.toList

def isShown (byte : UInt8) : Bool := 32 ≤ byte && byte < 127

def escapeLetter? (byte : UInt8) : Option Char :=
  match byte.toNat with
  | 7 => some 'a'
  | 8 => some 'b'
  | 9 => some 't'
  | 10 => some 'n'
  | 11 => some 'v'
  | 12 => some 'f'
  | 13 => some 'r'
  | _ => none

def octalDigit (value : Nat) : Char :=
  Char.ofNat ('0'.toNat + value % 8)

def escapeByte (byte : UInt8) : List Char :=
  match escapeLetter? byte with
  | some letter => ['\\', letter]
  | none =>
    let value := byte.toNat
    ['\\', octalDigit (value / 64), octalDigit (value / 8), octalDigit value]

/-- Characters that a shell does not take as they stand, wherever they are. -/
def isActive (c : Char) : Bool :=
  " !\"$&'()*:;<=>?[\\^\x60|".toList.contains c

def needsQuotes (name : List Char) : Bool :=
  match name with
  | [] => true
  | first :: rest =>
    first = '#' || first = '~' || (rest.isEmpty && (first = '\x7b' || first = '\x7d')) ||
      name.any fun c => isActive c || !(32 ≤ c.toNat && c.toNat < 127)

def isQuotable (c : Char) : Bool :=
  c.isAlphanum || " %'+,-./:@]_".toList.contains c

/-- Whether a name has a single quote and fits between double quotes. A number sign or a tilde does so
at the beginning alone. -/
def fitsDoubleQuotes (name : List Char) : Bool :=
  name.contains '\'' &&
    match name with
    | [] => false
    | first :: rest => (first = '#' || first = '~' || isQuotable first) && rest.all isQuotable

/-- The rest of a name between single quotes, where `escaping` says whether an escape is under way. -/
def singleQuotedFrom (escaping : Bool) : Bytes → List Char
  | [] => ['\'']
  | byte :: rest =>
    if byte = 39 then ['\'', '\\', '\'', '\''] ++ singleQuotedFrom false rest
    else if isShown byte then
      (if escaping then ['\'', '\''] else []) ++ Char.ofNat byte.toNat :: singleQuotedFrom false rest
    else
      (if escaping then [] else ['\'', '$', '\'']) ++ escapeByte byte ++ singleQuotedFrom true rest

def quotedName (name : String) : String :=
  if fitsDoubleQuotes name.toList then "\"" ++ name ++ "\""
  else "'" ++ String.ofList (singleQuotedFrom false (utf8 name))

def shownName (name : String) : String :=
  if needsQuotes name.toList then quotedName name else name

def escapedName (name : String) : String :=
  let chars := (utf8 name).flatMap fun byte =>
    if byte = 39 || byte = 92 then ['\\', Char.ofNat byte.toNat]
    else if isShown byte then [Char.ofNat byte.toNat]
    else escapeByte byte
  "'" ++ String.ofList chars ++ "'"

end Rollout.Machine

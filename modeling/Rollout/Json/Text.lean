/-!
# JSON text

JSON values and how they are written: compactly on one line, or laid out with two spaces per level.
Objects keep the order of their fields. Strings are written with the short escapes where JSON has one
and with four hexadecimal digits for the other control characters; everything else stands as it is.
-/

namespace Rollout

/-- A JSON value whose numbers are natural. -/
inductive Json where
  | bool (value : Bool)
  | number (value : Nat)
  | string (text : String)
  | array (items : List Json)
  | object (fields : List (String × Json))
  deriving Repr

namespace Json

def hexDigit (digit : Nat) : Char :=
  if digit < 10 then Char.ofNat ('0'.toNat + digit) else Char.ofNat ('a'.toNat + (digit - 10))

def escapeChar (c : Char) : List Char :=
  if c = '"' then ['\\', '"']
  else if c = '\\' then ['\\', '\\']
  else if c = '\n' then ['\\', 'n']
  else if c = '\r' then ['\\', 'r']
  else if c = '\t' then ['\\', 't']
  else if c.toNat = 0x08 then ['\\', 'b']
  else if c.toNat = 0x0C then ['\\', 'f']
  else if c.toNat < 0x20 then
    ['\\', 'u', '0', '0', hexDigit (c.toNat / 16), hexDigit (c.toNat % 16)]
  else [c]

def quoted (text : String) : List Char :=
  '"' :: text.toList.flatMap escapeChar ++ ['"']

mutual

def compactChars : Json → List Char
  | bool true => "true".toList
  | bool false => "false".toList
  | number value => (toString value).toList
  | string text => quoted text
  | array items => '[' :: compactItems items ++ [']']
  | object fields => '{' :: compactFields fields ++ ['}']

def compactItems : List Json → List Char
  | [] => []
  | [item] => compactChars item
  | item :: rest => compactChars item ++ ',' :: compactItems rest

def compactFields : List (String × Json) → List Char
  | [] => []
  | [(key, value)] => quoted key ++ ':' :: compactChars value
  | (key, value) :: rest => quoted key ++ ':' :: compactChars value ++ ',' :: compactFields rest

end

/-- A line feed and the blanks that begin a line at the given depth. -/
def newline (depth : Nat) : List Char :=
  '\n' :: List.replicate (2 * depth) ' '

mutual

/-- A value laid out over several lines, for a value that begins at the given depth. An empty array
or object stays on its line. -/
def prettyChars (depth : Nat) : Json → List Char
  | bool true => "true".toList
  | bool false => "false".toList
  | number value => (toString value).toList
  | string text => quoted text
  | array [] => "[]".toList
  | array (item :: rest) =>
    '[' :: prettyItems (depth + 1) (item :: rest) ++ newline depth ++ [']']
  | object [] => ['{', '}']
  | object (field :: rest) =>
    '{' :: prettyFields (depth + 1) (field :: rest) ++ newline depth ++ ['}']

def prettyItems (depth : Nat) : List Json → List Char
  | [] => []
  | [item] => newline depth ++ prettyChars depth item
  | item :: rest => newline depth ++ prettyChars depth item ++ ',' :: prettyItems depth rest

def prettyFields (depth : Nat) : List (String × Json) → List Char
  | [] => []
  | [(key, value)] => newline depth ++ quoted key ++ ':' :: ' ' :: prettyChars depth value
  | (key, value) :: rest =>
    newline depth ++ quoted key ++ ':' :: ' ' :: prettyChars depth value ++
      ',' :: prettyFields depth rest

end

def compact (value : Json) : String :=
  String.ofList value.compactChars

def pretty (value : Json) : String :=
  String.ofList (value.prettyChars 0)

end Json

end Rollout

import Rollout.Shell.Token

/-!
# What a word holds

A word before its expansion: plain characters, parameters, arithmetic and the output of commands. Bare
expansions are split into fields at blanks afterwards; everything else stays together.
-/

namespace Rollout.Shell

/-- A part of a word. -/
inductive Part where
  | char (c : Char)
  | quotes
  /-- A parameter by name, or the text between its braces. -/
  | parameter (text : List Char) (guarded : Bool)
  | arithmetic (text : List Char) (guarded : Bool)
  | command (text : List Char) (guarded : Bool)
  deriving DecidableEq, Repr

/-- The characters up to the bracket that closes the given number of open ones, and what follows. -/
def untilClosed : Nat → List Mark → List Char × List Mark
  | _, [] => ([], [])
  | depth, .quotes :: rest => untilClosed depth rest
  | depth, .char c _ :: rest =>
    if c = ')' && depth ≤ 1 then ([], rest)
    else
      let depth := if c = '(' then depth + 1 else if c = ')' then depth - 1 else depth
      let (text, rest) := untilClosed depth rest
      (c :: text, rest)

/-- The characters up to a closing mark, and what follows. -/
def untilMark (closing : Char) : List Mark → List Char × List Mark
  | [] => ([], [])
  | .quotes :: rest => untilMark closing rest
  | .char c _ :: rest =>
    if c = closing then ([], rest)
    else
      let (text, rest) := untilMark closing rest
      (c :: text, rest)

def isNameChar (c : Char) : Bool := c.isAlphanum || c = '_'

def namesVariable (text : List Char) : Bool :=
  text.head?.any (fun c => !c.isDigit) && text.all isNameChar

def isSpecial (c : Char) : Bool := c.isDigit || "@*#?$!-".toList.contains c

def nameOf : List Mark → List Char
  | .char c guard :: rest => if guard ≠ .hard && isNameChar c then c :: nameOf rest else []
  | _ => []

/-- The part that a dollar sign begins, and what follows it. -/
def dollarPart (guarded : Bool) (rest : List Mark) : Part × List Mark :=
  match rest with
  | .char '(' _ :: .char '(' _ :: rest' =>
    let (text, rest') := untilClosed 2 rest'
    (.arithmetic (text.reverse.drop 1).reverse guarded, rest')
  | .char '(' _ :: rest' =>
    let (text, rest') := untilClosed 1 rest'
    (.command text guarded, rest')
  | .char '{' _ :: rest' =>
    let (text, rest') := untilMark '}' rest'
    (.parameter text guarded, rest')
  | .char c _ :: rest' =>
    if isSpecial c then (.parameter [c] guarded, rest')
    else match nameOf rest with
      | [] => (.char '$', rest)
      | name => (.parameter name guarded, rest.drop name.length)
  | _ => (.char '$', rest)

/-- The parts of a word of at most `fuel` marks. -/
def partsWithin : Nat → List Mark → List Part
  | 0, _ => []
  | _, [] => []
  | fuel + 1, .quotes :: rest => .quotes :: partsWithin fuel rest
  | fuel + 1, .char c guard :: rest =>
    if c = '$' && guard ≠ .hard then
      let (part, rest) := dollarPart (guard = .soft) rest
      part :: partsWithin fuel rest
    else if c = '\x60' && guard ≠ .hard then
      let (text, rest) := untilMark '\x60' rest
      .command text (guard = .soft) :: partsWithin fuel rest
    else .char c :: partsWithin fuel rest

def Word.parts (word : Word) : List Part :=
  partsWithin word.length word

/-- A piece of an expanded word. -/
inductive Cell where
  /-- A character; a field may end at it if it is a blank that `splits`. -/
  | char (c : Char) (splits : Bool)
  | quotes
  /-- A field ends here. -/
  | fieldEnd
  deriving DecidableEq, Repr

/-- The fields that cells make, after the characters of the field under way, last one first. -/
def fields : Option (List Char) → List Cell → List String
  | field, [] => (field.map fun chars => String.ofList chars.reverse).toList
  | field, .quotes :: rest => fields (some (field.getD [])) rest
  | field, .fieldEnd :: rest =>
    (field.map fun chars => String.ofList chars.reverse).toList ++ fields none rest
  | field, .char c splits :: rest =>
    if splits && (c = ' ' || c = '\t' || c = '\n') then
      (field.map fun chars => String.ofList chars.reverse).toList ++ fields none rest
    else fields (some (c :: field.getD [])) rest

/-! ### Arithmetic -/

inductive Sign where
  | number (value : Nat)
  | name (text : String)
  | operator (text : String)
  deriving DecidableEq, Repr

/-- The tokens of an arithmetic expression of at most `fuel` characters. -/
def signs : Nat → List Char → List Sign
  | 0, _ => []
  | _, [] => []
  | fuel + 1, c :: rest =>
    if c.isDigit then
      let digits := (c :: rest).takeWhile Char.isDigit
      .number ((String.ofList digits).toNat?.getD 0) :: signs fuel ((c :: rest).drop digits.length)
    else if isNameChar c then
      let name := (c :: rest).takeWhile isNameChar
      .name (String.ofList name) :: signs fuel ((c :: rest).drop name.length)
    else if c = ' ' || c = '\t' || c = '\n' || c = '$' then signs fuel rest
    else match rest with
      | d :: rest' =>
        if ["==".toList, "!=".toList, "<=".toList, ">=".toList].contains [c, d] then
          .operator (String.ofList [c, d]) :: signs fuel rest'
        else .operator (String.ofList [c]) :: signs fuel rest
      | [] => [.operator (String.ofList [c])]

/-- The operators of each level, loosest first. -/
def operatorLevels : List (List String) :=
  [["==", "!=", "<", ">", "<=", ">="], ["+", "-"], ["*", "/", "%"]]

def truth (value : Bool) : Int := if value then 1 else 0

/-- The result of an operator; none for a division by zero. -/
def apply (operator : String) (a b : Int) : Option Int :=
  match operator with
  | "+" => some (a + b)
  | "-" => some (a - b)
  | "*" => some (a * b)
  | "/" => if b = 0 then none else some (Int.tdiv a b)
  | "%" => if b = 0 then none else some (Int.tmod a b)
  | "==" => some (truth (a = b))
  | "!=" => some (truth (a ≠ b))
  | "<" => some (truth (a < b))
  | ">" => some (truth (a > b))
  | "<=" => some (truth (a ≤ b))
  | ">=" => some (truth (a ≥ b))
  | _ => none

mutual

/-- The value of an expression whose loosest operators are of the given levels, and what follows. -/
def evaluate (value : String → Int) : Nat → List (List String) → List Sign → Option (Int × List Sign)
  | 0, _, _ => none
  | fuel + 1, [], signs =>
    match signs with
    | .number n :: rest => some (n, rest)
    | .name name :: rest => some (value name, rest)
    | .operator "-" :: rest => do
      let (n, rest) ← evaluate value fuel [] rest
      return (-n, rest)
    | .operator "+" :: rest => evaluate value fuel [] rest
    | .operator "!" :: rest => do
      let (n, rest) ← evaluate value fuel [] rest
      return (truth (n = 0), rest)
    | .operator "(" :: rest => do
      let (n, rest) ← evaluate value fuel operatorLevels rest
      match rest with
      | .operator ")" :: rest => return (n, rest)
      | _ => none
    | _ => none
  | fuel + 1, operators :: tighter, signs => do
    let (first, rest) ← evaluate value fuel tighter signs
    evaluateAfter value fuel operators tighter first rest

def evaluateAfter (value : String → Int) :
    Nat → List String → List (List String) → Int → List Sign → Option (Int × List Sign)
  | 0, _, _, _, _ => none
  | fuel + 1, operators, tighter, left, .operator operator :: rest =>
    if operators.contains operator then do
      let (right, rest) ← evaluate value fuel tighter rest
      evaluateAfter value fuel operators tighter (← apply operator left right) rest
    else some (left, .operator operator :: rest)
  | _, _, _, left, rest => some (left, rest)

end

def arithmetic (value : String → Int) (text : List Char) : Option Int :=
  let signs := signs text.length text
  if signs.isEmpty then some 0
  else match evaluate value (8 * (signs.length + 1)) operatorLevels signs with
    | some (n, []) => some n
    | _ => none

end Rollout.Shell

/-!
# Text from bytes

Reading bytes as UTF-8. Strict reading refuses bytes that are not; lossy reading puts U+FFFD for every
longest run of bytes that begins a character and does not end it, and for every byte that begins none.
-/

namespace Rollout.Text

/-- The text that the bytes are, if they are well-formed UTF-8. -/
def decode? (bytes : List UInt8) : Option String :=
  String.fromUTF8? ⟨bytes.toArray⟩

def replacement : Char := '\uFFFD'

def continues (byte : UInt8) : Bool := 0x80 ≤ byte && byte ≤ 0xBF

/-- The range of the second byte of a character and the number of bytes after the first, by the first
byte of a character of several bytes. -/
def lead? (first : UInt8) : Option (Nat × UInt8 × UInt8) :=
  if 0xC2 ≤ first && first ≤ 0xDF then some (1, 0x80, 0xBF)
  else if first = 0xE0 then some (2, 0xA0, 0xBF)
  else if first = 0xED then some (2, 0x80, 0x9F)
  else if 0xE1 ≤ first && first ≤ 0xEF then some (2, 0x80, 0xBF)
  else if first = 0xF0 then some (3, 0x90, 0xBF)
  else if 0xF1 ≤ first && first ≤ 0xF3 then some (3, 0x80, 0xBF)
  else if first = 0xF4 then some (3, 0x80, 0x8F)
  else none

/-- The payload of the first byte of a character with the given number of further bytes. -/
def leadPayload (first : UInt8) (further : Nat) : Nat :=
  first.toNat % Nat.pow 2 (6 - further)

/-- How many of the bytes go on with the character that a first byte began. -/
def continuation (first : UInt8) (rest : List UInt8) : Nat :=
  match lead? first, rest with
  | some (further, low, high), second :: others =>
    if low ≤ second && second ≤ high then
      1 + ((others.take (further - 1)).takeWhile continues).length
    else 0
  | _, _ => 0

/-- The character that begins the bytes, or what stands for the bytes that are none, and how many
bytes after the first belong to it. -/
def nextChar (first : UInt8) (rest : List UInt8) : Char × Nat :=
  if first < 0x80 then (Char.ofNat first.toNat, 0)
  else match lead? first with
    | none => (replacement, 0)
    | some (further, _, _) =>
      let count := continuation first rest
      if count = further then
        (Char.ofNat ((rest.take count).foldl (fun value byte => 64 * value + byte.toNat % 64)
          (leadPayload first further)), count)
      else (replacement, count)

/-- The characters of the bytes. -/
def decodeChars (bytes : List UInt8) : List Char :=
  match bytes with
  | [] => []
  | first :: rest =>
    let (c, count) := nextChar first rest
    c :: decodeChars (rest.drop count)
termination_by bytes.length
decreasing_by simp only [List.length_drop, List.length_cons]; omega

/-- The bytes as text, whatever they are. -/
def decodeLossy (bytes : List UInt8) : String :=
  String.ofList (decodeChars bytes)

end Rollout.Text

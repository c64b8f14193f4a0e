/-!
# Splitting at a mark

The pieces of a text between the occurrences of one character. There is always one piece more than
there are marks, so joining the pieces with the mark gives the text back.

Lines are not split so: a line ends at a line feed, and a carriage return right before that line feed
belongs to the ending. What follows the last line feed is a line only if it is not empty, so a final line
feed ends the last line and does not begin another.
-/

namespace Rollout.Text

def splitOn (mark : Char) : List Char → List (List Char)
  | [] => [[]]
  | c :: rest =>
    if c = mark then [] :: splitOn mark rest
    else match splitOn mark rest with
      | [] => [[c]]
      | piece :: more => (c :: piece) :: more

def joinWith (mark : Char) : List (List Char) → List Char
  | [] => []
  | [piece] => piece
  | piece :: rest => piece ++ mark :: joinWith mark rest

theorem splitOn_ne_nil (mark : Char) (text : List Char) : splitOn mark text ≠ [] := by
  cases text with
  | nil => simp [splitOn]
  | cons c rest =>
    simp only [splitOn]
    split
    · simp
    · split <;> simp

theorem joinWith_splitOn (mark : Char) (text : List Char) :
    joinWith mark (splitOn mark text) = text := by
  induction text with
  | nil => rfl
  | cons c rest ih =>
    simp only [splitOn]
    split
    · rename_i same
      cases split : splitOn mark rest with
      | nil => exact absurd split (splitOn_ne_nil mark rest)
      | cons piece more => rw [split] at ih; simp [joinWith, same, ih]
    · cases split : splitOn mark rest with
      | nil => exact absurd split (splitOn_ne_nil mark rest)
      | cons piece more =>
        rw [split] at ih
        cases more with
        | nil => simpa [joinWith] using ih
        | cons next others => simpa [joinWith] using ih

/-- The lines of a text without their endings, in order. -/
def lines : List Char → List (List Char)
  | [] => []
  | '\r' :: '\n' :: rest => [] :: lines rest
  | c :: rest =>
    if c = '\n' then [] :: lines rest
    else match lines rest with
      | [] => [[c]]
      | line :: more => (c :: line) :: more

end Rollout.Text

import Rollout.Terminal.Style

/-!
# The progress bar of a transfer

One line, drawn again in place whenever the whole percentage changes. Counts are 64 bits wide, as the
host may announce any size, and sums and products that do not fit break the drawing off.

It is the terminal's form of the byte progress in section 11 of the specification.
-/

namespace Rollout.Terminal

structure Bar where
  label : String
  total : UInt64
  done : UInt64 := 0
  /-- The percentage drawn last. -/
  shown : Option Nat := none
  deriving DecidableEq, Repr

namespace Bar

def width : Nat := 24

/-- The sum, if it fits into 64 bits. -/
def sum? (first second : UInt64) : Option UInt64 :=
  if first.toNat + second.toNat < UInt64.size then some (first + second) else none

/-- The product, if it fits into 64 bits. -/
def product? (first second : UInt64) : Option UInt64 :=
  if first.toNat * second.toNat < UInt64.size then some (first * second) else none

/-- The whole percentage that is done, as far as it can be worked out; nothing to do is all done. -/
def percent? (bar : Bar) : Option Nat :=
  if bar.total = 0 then some 100
  else (product? (min bar.done bar.total) 100).map fun product => (product / bar.total).toNat

def filled (percent : Nat) : Nat :=
  percent * width / 100

def threePlaces (number : Nat) : String :=
  let digits := toString number
  String.ofList (List.replicate (3 - digits.length) ' ') ++ digits

/-- The line as it stands between its brackets and after them. -/
def text (bar : Bar) (percent : Nat) : String :=
  let marks := List.replicate (filled percent) '#' ++ List.replicate (width - filled percent) ' '
  "  " ++ bar.label ++ " [" ++ String.ofList marks ++ "] " ++ threePlaces percent ++ "% (" ++
    toString bar.done.toNat ++ "/" ++ toString bar.total.toNat ++ " bytes)"

def restart : String :=
  control "1G" ++ control "2K"

/-- Draws the bar, unless the percentage drawn last still holds. -/
def draw (bar : Bar) : Option (Bar × String) :=
  bar.percent?.map fun percent =>
    if bar.shown = some percent then (bar, "")
    else ({ bar with shown := some percent }, restart ++ bar.text percent)

def advance (bar : Bar) (bytes : UInt64) : Option (Bar × String) :=
  (sum? bar.done bytes).bind fun done => draw { bar with done }

def finish (bar : Bar) : Option (Bar × String) :=
  bar.draw.map fun (bar, drawn) => (bar, drawn ++ "\n")

/-- What is drawn of a transfer. -/
structure Drawing where
  text : String
  /-- The bar as it was drawn last. -/
  bar : Bar
  /-- Whether the drawing broke off there. -/
  brokeOff : Bool := false
  deriving DecidableEq, Repr

def Drawing.after (drawing : Drawing) (text : String) : Drawing :=
  { drawing with text := text ++ drawing.text }

/-- Draws the bar after every advance, up to one at which that breaks off, and at the end if there is one. -/
def drawAll (bar : Bar) (finished : Bool) : List UInt64 → Drawing
  | [] =>
    if finished then
      match bar.finish with
      | none => { text := "", bar, brokeOff := true }
      | some (bar, drawn) => { text := drawn, bar }
    else { text := "", bar }
  | bytes :: rest =>
    match bar.advance bytes with
    | none => { text := "", bar, brokeOff := true }
    | some (bar, drawn) => (bar.drawAll finished rest).after drawn

def drawing (label : String) (total : UInt64) (advances : List UInt64) (finished : Bool) : Drawing :=
  drawAll { label, total } finished advances

end Bar

end Rollout.Terminal

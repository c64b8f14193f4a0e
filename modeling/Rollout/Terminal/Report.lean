import Rollout.Deployment.Request
import Rollout.Terminal.Style

/-!
# Reports on the terminal

What the operator reads of a run: a line for every step that is done, a line at the end, and a line for
every path that was not deleted. Colours are used only where they can be seen.

Section 4.4 of the specification gives the lines, and section 11 the colours.
-/

namespace Rollout.Terminal

open Rollout.Deployment (Report SkipReason)
open Rollout.Script (Action)

/-- A text in a style, if styles are shown. -/
def styled (coloured : Bool) (style : Style) (text : String) : String :=
  if coloured then style.apply text else text

def stepMark (coloured : Bool) (number : Nat) : String :=
  styled coloured .bold ("[step " ++ toString number ++ "]:")

/-- An action with its keyword and what follows it told apart by colour. -/
def describe (coloured : Bool) (action : Action) : String :=
  let text := action.display
  if !coloured then text
  else match text.toList.span (· ≠ ' ') with
    | (keyword, _ :: rest) =>
      Style.yellow.apply (String.ofList keyword) ++ " " ++ Style.green.apply (String.ofList rest)
    | _ => text

def skipText : SkipReason → String
  | .isProtected => "protected system path, not deleting"
  | .isMissing => "does not exist"

def line? (coloured : Bool) : Report → Option String
  | .stepCompleted number action =>
    some (stepMark coloured number ++ " " ++ describe coloured action ++ "\n")
  | .finished number =>
    some (stepMark coloured number ++ " " ++ styled coloured .greenBold "done!" ++ "\n")
  | .skipped path reason =>
    some ("  " ++ styled coloured .yellow path ++ " " ++
      styled coloured .darkGrey (skipText reason) ++ "\n")
  | .transfer _ => none

end Rollout.Terminal

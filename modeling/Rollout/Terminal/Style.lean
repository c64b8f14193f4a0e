/-!
# Styled text

The control sequences that colour text on a terminal. A style is switched on before a text and off
after it; the sequences nest nowhere in the texts that are styled here.
-/

namespace Rollout.Terminal

def escapeChar : Char := '\x1b'

def control (body : String) : String :=
  String.ofList [escapeChar, '['] ++ body

inductive Style where
  | bold
  | yellow
  | green
  | darkGrey
  | greenBold
  deriving DecidableEq, Repr

namespace Style

def colour (number : Nat) : String :=
  control ("38;5;" ++ toString number ++ "m")

def opening : Style → String
  | bold => control "1m"
  | yellow => colour 11
  | green => colour 10
  | darkGrey => colour 8
  | greenBold => colour 10 ++ control "1m"

def closing : Style → String
  | bold | greenBold => control "0m"
  | yellow | green | darkGrey => control "39m"

def apply (style : Style) (text : String) : String :=
  style.opening ++ text ++ style.closing

end Style

end Rollout.Terminal

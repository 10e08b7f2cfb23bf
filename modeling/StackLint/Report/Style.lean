/-
  StackLint.Report.Style
  ──────────────────────
  **COLOURS.**

  Reports are plain text.  On a terminal that shows colours, pieces of text
  stand between escape sequences that switch a style on and off.
-/
import StackLint.Text.CodePoint

namespace StackLint

/-- How a piece of text looks. -/
inductive Style where
  | red | green | cyan | bold | dim
  | yellow
  | boldRed | boldYellow | boldCyan
  deriving DecidableEq, Repr

namespace Style

/-- The sequence that switches to the style. -/
def start : Style → String
  | .red => "\x1b[0;31m"
  | .green => "\x1b[0;32m"
  | .yellow => "\x1b[1;33m"
  | .cyan => "\x1b[0;36m"
  | .bold => "\x1b[1m"
  | .dim => "\x1b[2m"
  | .boldRed => "\x1b[1m\x1b[0;31m"
  | .boldYellow => "\x1b[1m\x1b[1;33m"
  | .boldCyan => "\x1b[1m\x1b[0;36m"

/-- The sequence that switches all styles off. -/
def stop : String := "\x1b[0m"

end Style

/-- Whether a report has colours. -/
inductive Colouring where
  | plain | coloured
  deriving DecidableEq, Repr

/-- A piece of text in a style. -/
def Colouring.paint (colouring : Colouring) (style : Style) (t : Text) : Text :=
  match colouring with
  | .plain => t
  | .coloured => style.start ++ t ++ Style.stop

end StackLint

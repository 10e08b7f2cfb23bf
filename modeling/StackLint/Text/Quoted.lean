/-
  StackLint.Text.Quoted
  ─────────────────────
  **QUOTED TEXT IN MESSAGES.**

  A message shows a piece of source between quotes.  The quotes are single,
  unless the text has a single quote and no double one.  The quote, the
  backslash and what cannot be printed are written as escapes, so a quoted
  text is always one line of printable characters.
-/
import StackLint.Text.Hexadecimal
import StackLint.Text.Printable

namespace StackLint

namespace Text

/-- The quote that surrounds a text. -/
def quoteMark (t : Text) : CodePoint :=
  if t.contains (.scalar '\'') && !t.contains (.scalar '"') then '"' else '\''

/-- One character between quotes of the given kind. -/
def escaped (quote c : CodePoint) : Text :=
  if c = quote ∨ c = '\\' then ['\\', c]
  else if c = '\t' then "\\t"
  else if c = '\n' then "\\n"
  else if c = '\r' then "\\r"
  else if c.isPrintable then [c]
  else if c.val ≤ 0xFF then "\\x" ++ hex 2 c.val
  else if c.val ≤ 0xFFFF then "\\u" ++ hex 4 c.val
  else "\\U" ++ hex 8 c.val

/-- A text between quotes. -/
def quoted (t : Text) : Text :=
  let quote := t.quoteMark
  quote :: t.flatMap (escaped quote) ++ [quote]

end Text

end StackLint

/-
  StackLint.Source
  ────────────────
  **PARSED SOURCES.**

  A source is the exact text of a configuration file with its tree.  Every
  position that a rule reports and every range that a fix replaces refers to
  this one text.
-/
import StackLint.Parse.Program
import StackLint.Path
import StackLint.Text.Position

namespace StackLint

/-- A configuration file: its path, its text, and what the parser made of
it. -/
structure Source where
  path : Path
  text : Text
  tree : Tree
  complaints : List (Nat × Complaint)
  /-- The offsets at which the lines of the text begin. -/
  lineStarts : List Nat := text.lineStarts
  lineStarts_eq : lineStarts = text.lineStarts := by rfl

namespace Source

/-- The source of a text. -/
def ofText (path : Path) (text : Text) : Except ScanFailure Source := do
  let program ← parse text
  return {
    path, text
    tree := program.tree
    complaints := program.complaints }

/-- The offset inside the text that is nearest to a given one. -/
def clamp (s : Source) (offset : Int) : Nat :=
  clampOffset s.text.length offset

/-- The line and column of an offset. -/
def position (s : Source) (offset : Int) : Position :=
  Position.ofOffset s.lineStarts (s.clamp offset)

/-- The spaces and tabs at the head of the line that holds an offset. -/
def lineIndent (s : Source) (offset : Int) : Text :=
  Text.indent (s.text.drop (lineStartOf s.lineStarts (s.clamp offset)))

/-- The line of a node. -/
def lineOf (s : Source) (n : Tree) : Nat :=
  (s.position n.info.start).line

/-- The text that a node spans. -/
def textOf (s : Source) (n : Tree) : Text :=
  s.text.slice n.info.start n.info.stop

end Source

end StackLint

/-
  StackLint.Text.Position
  ───────────────────────
  **LINES AND COLUMNS.**

  Offsets count code points from the start of a text; people read lines and
  columns, counted from one.  A line ends after its newline.  `lineStarts`
  lists the offsets at which lines begin, and `Position.ofOffset` finds the
  line of an offset in that list.
-/
import StackLint.Text.CodePoint

namespace StackLint

/-! ## §1. Line starts. -/

/-- The offsets after the newlines of a text that begins at `offset`. -/
def Text.lineStartsFrom (offset : Nat) : Text → List Nat
  | [] => []
  | c :: rest =>
      if c = '\n' then (offset + 1) :: lineStartsFrom (offset + 1) rest
      else lineStartsFrom (offset + 1) rest

/-- The offsets at which the lines of a text begin. -/
def Text.lineStarts (t : Text) : List Nat :=
  0 :: t.lineStartsFrom 0

/-! ## §2. Positions. -/

/-- A place in a text, counted from one. -/
structure Position where
  line : Nat
  column : Nat
  deriving DecidableEq, Repr

/-- The nearest offset inside a text of the given length. -/
def clampOffset (length : Nat) (offset : Int) : Nat :=
  min offset.toNat length

/-- The start of the last line that begins at or before `offset`. -/
def lineStartOf (starts : List Nat) (offset : Nat) : Nat :=
  (starts.takeWhile (· ≤ offset)).getLast?.getD 0

/-- The position of an offset, given the line starts of the text. -/
def Position.ofOffset (starts : List Nat) (offset : Nat) : Position where
  line := (starts.takeWhile (· ≤ offset)).length
  column := offset - lineStartOf starts offset + 1

/-- The spaces and tabs at the head of a text. -/
def Text.indent (t : Text) : Text :=
  t.takeWhile fun c => c = ' ' || c = '\t'

end StackLint

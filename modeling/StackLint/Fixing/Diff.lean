/-
  StackLint.Fixing.Diff
  ─────────────────────
  **WHAT A FIX CHANGES, LINE BY LINE.**

  The lines that two texts share at their heads and at their tails are left
  out; what is between is one region, shown with the lines that go and the
  lines that come.  A region that keeps its number of lines is shown line
  against line.
-/
import StackLint.Text.CodePoint

namespace StackLint

/-! ## §1. The changed region. -/

/-- How many items two lists share at their heads. -/
def commonHead [DecidableEq α] : List α → List α → Nat
  | a :: as, b :: bs => if a = b then commonHead as bs + 1 else 0
  | _, _ => 0

/-- The region in which two texts differ. -/
structure ChangedRegion where
  /-- How many lines are shared before the region. -/
  before : Nat
  removed : List Text
  added : List Text
  deriving DecidableEq, Repr

namespace ChangedRegion

/-- The region in which two lists of lines differ.  Lines shared at the head do
not count as shared at the tail, too. -/
def between (old new : List Text) : ChangedRegion :=
  let head := commonHead old new
  let old := old.drop head
  let new := new.drop head
  let tail := commonHead old.reverse new.reverse
  { before := head
    removed := old.take (old.length - tail)
    added := new.take (new.length - tail) }

/-- One end of the region as the header names it: its first line, counted from
one, and how many lines it has. -/
def extent (r : ChangedRegion) (lines : List Text) : Text :=
  Text.ofNat (r.before + 1) ++ "," ++ Text.ofNat lines.length

/-- The line above the body. -/
def header (r : ChangedRegion) : Text :=
  "@@ -" ++ r.extent r.removed ++ " +" ++ r.extent r.added ++ " @@"

/-- A line that goes. -/
def removal (line : Text) : Text := "- " ++ line

/-- A line that comes. -/
def addition (line : Text) : Text := "+ " ++ line

/-- The lines of the region. -/
def body (r : ChangedRegion) : List Text :=
  if r.removed.length = r.added.length then
    (r.removed.zip r.added).flatMap fun (old, new) =>
      if old = new then [] else [removal old, addition new]
  else r.removed.map removal ++ r.added.map addition

end ChangedRegion

/-! ## §2. Diffs. -/

/-- The difference of two texts, each shown under a name; empty when they are
equal. -/
def diff (old new oldName newName : Text) : Text :=
  if old = new then []
  else
    let region := ChangedRegion.between old.lines new.lines
    Text.join "\n"
      (("--- " ++ oldName) :: ("+++ " ++ newName) :: region.header :: region.body) ++ "\n"

end StackLint

/-
  StackLint.Path
  ──────────────
  **PATHS.**

  A path is a root and the names below it.  Slashes in a row count as one and
  single points as nothing, but two points are a name like any other.  Exactly
  two slashes in front are a root of their own.
-/
import StackLint.Text.CodePoint

namespace StackLint

/-- Where a path begins. -/
inductive PathRoot where
  /-- The working directory. -/
  | here
  /-- The root directory. -/
  | top
  /-- The root that two slashes stand for. -/
  | doubled
  deriving DecidableEq, Repr

/-- A path: the names from its root on. -/
structure Path where
  root : PathRoot
  parts : List Text
  deriving DecidableEq, Repr

namespace Path

/-! ## §1. Reading and writing. -/

/-- How a root is written. -/
def PathRoot.text : PathRoot → Text
  | .here => []
  | .top => "/"
  | .doubled => "//"

/-- The root of the path that a text writes. -/
def rootOf (t : Text) : PathRoot :=
  match (t.takeWhile (· == .scalar '/')).length with
  | 0 => .here
  | 2 => .doubled
  | _ => .top

/-- The pieces of a text between its slashes. -/
def pieces : Text → List Text
  | [] => [[]]
  | c :: rest =>
      if c = '/' then [] :: pieces rest
      else
        match pieces rest with
        | [] => [[c]]
        | piece :: others => (c :: piece) :: others

/-- The path that a text writes. -/
def ofText (t : Text) : Path where
  root := rootOf t
  parts := (pieces t).filter fun piece => piece ≠ [] && piece ≠ ("." : Text)

/-- A path as a text.  The working directory itself is a point. -/
def text (p : Path) : Text :=
  if p.root = .here ∧ p.parts = [] then "."
  else PathRoot.text p.root ++ Text.join "/" p.parts

/-! ## §2. Parts. -/

/-- The last name of a path, empty when there is none. -/
def name (p : Path) : Text :=
  p.parts.getLast?.getD []

/-- The path without its last name. -/
def parent (p : Path) : Path :=
  { p with parts := p.parts.dropLast }

/-- The path of `q` seen from `p`. -/
def append (p q : Path) : Path :=
  match q.root with
  | .here => { p with parts := p.parts ++ q.parts }
  | _ => q

/-- Whether a name has a NUL in it.  No file has such a name, and a path with
one cannot even be looked for. -/
def hasNul (p : Path) : Bool :=
  p.parts.any fun name => name.contains (.scalar '\x00')

/-- The path one name further down. -/
def child (p : Path) (name : Text) : Path :=
  { p with parts := p.parts ++ [name] }

end Path

end StackLint

/-
  StackLint.Text.CodePoint
  ────────────────────────
  **TEXT AS A SEQUENCE OF CODE POINTS.**

  A text is a list of Unicode code points.  Unlike a `String` it may hold
  surrogates that stand alone: an escape such as `\ud83d` in a string literal
  denotes one, and two of them side by side are never joined.  Offsets,
  lengths and columns everywhere in the library count code points.
-/

namespace StackLint

/-! ## §1. Code points. -/

/-- One code point: a character, or a surrogate that stands alone. -/
inductive CodePoint where
  /-- A Unicode scalar value. -/
  | scalar (c : Char)
  /-- The surrogate `U+D800 + index`. -/
  | surrogate (index : Fin 2048)
  deriving DecidableEq, Repr

/-- Text, in code points. -/
abbrev Text := List CodePoint

namespace CodePoint

instance : Inhabited CodePoint := ⟨.scalar 'A'⟩

instance : Coe Char CodePoint := ⟨.scalar⟩

/-- The number of a code point. -/
def val : CodePoint → Nat
  | .scalar c => c.toNat
  | .surrogate index => 0xD800 + index

/-- Half of a pair that stands alone, and thus no character. -/
def isSurrogate : CodePoint → Bool
  | .scalar _ => false
  | .surrogate _ => true

/-- The code point of a number; every number above `U+10FFFF` gives NUL. -/
def ofNat (n : Nat) : CodePoint :=
  if h : 0xD800 ≤ n ∧ n < 0xE000 then .surrogate ⟨n - 0xD800, by omega⟩
  else .scalar (Char.ofNat n)

/-- The code point of a number, if there is one. -/
def ofNat? (n : Nat) : Option CodePoint :=
  if n ≤ 0x10FFFF then some (ofNat n) else none

/-- Membership in a table of closed intervals. -/
def isIn (c : CodePoint) (ranges : List (Nat × Nat)) : Bool :=
  ranges.any fun range => range.1 ≤ c.val && c.val ≤ range.2

/-- One of the letters `a` to `z` and `A` to `Z`. -/
def isAsciiLetter (c : CodePoint) : Bool :=
  (0x61 ≤ c.val && c.val ≤ 0x7A) || (0x41 ≤ c.val && c.val ≤ 0x5A)

/-- One of the digits `0` to `9`. -/
def isAsciiDigit (c : CodePoint) : Bool :=
  0x30 ≤ c.val && c.val ≤ 0x39

/-- The value of a hexadecimal digit in ASCII. -/
def hexValue (c : CodePoint) : Option Nat :=
  if c.isAsciiDigit then some (c.val - 0x30)
  else if 0x61 ≤ c.val && c.val ≤ 0x66 then some (c.val - 0x61 + 10)
  else if 0x41 ≤ c.val && c.val ≤ 0x46 then some (c.val - 0x41 + 10)
  else none

/-- An ASCII letter in lower case; all else as it is. -/
def toAsciiLower (c : CodePoint) : CodePoint :=
  if 0x41 ≤ c.val && c.val ≤ 0x5A then ofNat (c.val + 32) else c

end CodePoint

/-! ## §2. Texts. -/

namespace Text

/-- The text of a string. -/
def ofString (s : String) : Text :=
  s.toList.map .scalar

instance : Coe String Text := ⟨ofString⟩

/-- Different strings have different texts. -/
theorem ofString_injective {s t : String} (same : ofString s = ofString t) : s = t :=
  String.toList_inj.mp ((List.map_inj_right fun _ _ => CodePoint.scalar.inj).mp same)

/-- The decimal numeral of a natural number. -/
def ofNat (n : Nat) : Text :=
  ofString (toString n)

/-- The code points from offset `start` up to, but not including, `stop`.
Offsets past the end stop there, and nothing lies between `start` and an
earlier `stop`. -/
def slice (t : Text) (start stop : Nat) : Text :=
  (t.drop start).take (stop - start)

/-- Whether `part` occurs in `t` as a run of neighbouring code points. -/
def hasInfix (part : Text) : Text → Bool
  | [] => part.isEmpty
  | c :: rest => part.isPrefixOf (c :: rest) || hasInfix part rest

/-- Replaces the occurrences of `old` by `new`, from left to right.  `skip` code points
belong to an occurrence that was already replaced. -/
def replaceFrom (old new : Text) : (skip : Nat) → Text → Text
  | _, [] => []
  | skip + 1, _ :: rest => replaceFrom old new skip rest
  | 0, c :: rest =>
      if old.isPrefixOf (c :: rest) then new ++ replaceFrom old new (old.length - 1) rest
      else c :: replaceFrom old new 0 rest

/-- Replaces every occurrence of `old`, which is not empty, by `new`.  Of occurrences that
overlap the first one counts, and what was put in is not searched again. -/
def replaceAll (t old new : Text) : Text :=
  replaceFrom old new 0 t

/-- The lines of a text: what stands between its newlines.  There is always
one line more than there are newlines. -/
def lines : Text → List Text
  | [] => [[]]
  | c :: rest =>
      if c = '\n' then [] :: lines rest
      else
        match lines rest with
        | [] => [[c]]
        | line :: others => (c :: line) :: others

/-- The texts one after the other, with `separator` between neighbours. -/
def join (separator : Text) (parts : List Text) : Text :=
  separator.intercalate parts

/-- Whether a surrogate stands alone somewhere in a text. -/
def hasSurrogate (t : Text) : Bool :=
  t.any CodePoint.isSurrogate

/-- ASCII letters in lower case; all else as it is. -/
def toAsciiLower (t : Text) : Text :=
  t.map CodePoint.toAsciiLower

end Text

end StackLint

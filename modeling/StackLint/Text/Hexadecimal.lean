/-
  StackLint.Text.Hexadecimal
  ──────────────────────────
  **HEXADECIMAL NUMERALS.**

  Writes natural numbers in lower-case hexadecimal, and reads the lenient
  numerals that a braced escape accepts: blanks at both ends, one sign, a `0x`
  in front, single underscores between digits (also right after the `0x`), and
  the decimal digits of every script for `0` to `9`.  Blanks are the six of
  ASCII (tab, line feed, vertical tab, form feed, carriage return, space) and
  the white space of Unicode above ASCII.
-/
import StackLint.Text.Digit

namespace StackLint

/-! ## §1. Blanks. -/

/-- Blanks, as closed intervals. -/
def blankRanges : List (Nat × Nat) :=
  [(0x9, 0xD), (0x20, 0x20), (0x85, 0x85), (0xA0, 0xA0), (0x1680, 0x1680), (0x2000, 0x200A),
   (0x2028, 0x2029), (0x202F, 0x202F), (0x205F, 0x205F), (0x3000, 0x3000)]

namespace CodePoint

/-- A blank that may stand before or after a numeral. -/
def isBlank (c : CodePoint) : Bool :=
  c.isIn blankRanges

end CodePoint

/-- The text without the blanks at its two ends. -/
def Text.trimBlanks (t : Text) : Text :=
  ((t.dropWhile CodePoint.isBlank).reverse.dropWhile CodePoint.isBlank).reverse

namespace Text

/-! ## §2. Writing. -/

/-- The lower-case hexadecimal digit of a value below sixteen. -/
def hexDigit (value : Nat) : CodePoint :=
  CodePoint.ofNat (if value < 10 then 0x30 + value else 0x61 + (value - 10))

/-- The last `width` hexadecimal digits of a number. -/
def hex : (width : Nat) → Nat → Text
  | 0, _ => []
  | width + 1, n => hex width (n / 16) ++ [hexDigit (n % 16)]

/-! ## §3. Reading. -/

/-- A decimal digit of any script as its ASCII digit; all else as it is. -/
def asciiDigit (c : CodePoint) : CodePoint :=
  match c.decimalValue with
  | some value => hexDigit value
  | none => c

/-- Digits with single underscores between them.  `value` is the number read
so far, and `afterDigit` says that the last character was a digit. -/
def hexDigits? (value : Nat) (afterDigit : Bool) : Text → Option Nat
  | [] => if afterDigit then some value else none
  | c :: rest =>
      if c = '_' then
        if afterDigit then hexDigits? value false rest else none
      else
        match c.hexValue with
        | some digit => hexDigits? (16 * value + digit) true rest
        | none => none

/-- An unsigned numeral, with or without `0x` in front. -/
def hexNatural? : Text → Option Nat
  | first :: mark :: rest =>
      if first = '0' && (mark = 'x' || mark = 'X') then
        match rest with
        | c :: digits => hexDigits? 0 false (if c = '_' then digits else rest)
        | [] => none
      else hexDigits? 0 false (first :: mark :: rest)
  | digits => hexDigits? 0 false digits

/-- The number that a hexadecimal numeral denotes, if the text is one. -/
def hexInteger? (t : Text) : Option Int :=
  match (t.trimBlanks).map asciiDigit with
  | [] => none
  | c :: rest =>
      if c = '-' then (hexNatural? rest).map fun n => -(n : Int)
      else if c = '+' then (hexNatural? rest).map Int.ofNat
      else (hexNatural? (c :: rest)).map Int.ofNat

end Text

end StackLint

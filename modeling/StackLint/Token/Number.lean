/-
  StackLint.Token.Number
  ──────────────────────
  **NUMERALS.**

  How far a numeral reaches: hexadecimal, binary and octal integers, and
  decimal numbers with fraction and exponent, each with underscores between
  the digits and an optional `n` behind.  Decimal digits may be those of any
  script.
-/
import StackLint.Text.Digit

namespace StackLint

/-- The number of code points at the head of a text that all satisfy `p`. -/
def runLength (p : CodePoint → Bool) (t : Text) : Nat :=
  (t.takeWhile p).length

namespace Number

/-! ## §1. Parts. -/

/-- A decimal digit or an underscore. -/
def isDigitOrUnderscore (c : CodePoint) : Bool :=
  c.isDecimal || c == '_'

/-- The width of an `n` at the head of a text. -/
def suffixWidth : Text → Nat
  | c :: _ => if c = 'n' then 1 else 0
  | [] => 0

/-- The digits of an integer whose base is marked by the letter after its
leading zero. -/
def radixDigit? (mark : CodePoint) : Option (CodePoint → Bool) :=
  if mark = 'x' ∨ mark = 'X' then some fun c => c.hexValue.isSome || c == '_'
  else if mark = 'b' ∨ mark = 'B' then some fun c => c == '0' || c == '1' || c == '_'
  else if mark = 'o' ∨ mark = 'O' then some fun c => (0x30 ≤ c.val && c.val ≤ 0x37) || c == '_'
  else none

/-- The width of an exponent, zero when there is none. -/
def exponentWidth : Text → Nat
  | e :: rest =>
      if e = 'e' ∨ e = 'E' then
        let sign := match rest with
          | c :: _ => if c = '+' ∨ c = '-' then 1 else 0
          | [] => 0
        let digits := runLength CodePoint.isDecimal (rest.drop sign)
        if digits = 0 then 0 else 1 + sign + digits
      else 0
  | [] => 0

/-- The width of the integer part and the fraction. -/
def mantissaWidth? : Text → Option Nat
  | [] => none
  | c :: rest =>
      if c.isDecimal then
        let whole := runLength isDigitOrUnderscore rest
        match rest.drop whole with
        | point :: after =>
            if point = '.' then some (1 + whole + 1 + runLength isDigitOrUnderscore after)
            else some (1 + whole)
        | [] => some (1 + whole)
      else if c = '.' then
        match rest with
        | d :: after =>
            if d.isDecimal then some (2 + runLength isDigitOrUnderscore after) else none
        | [] => none
      else none

/-! ## §2. Whole numerals. -/

/-- The width of an integer with a base mark. -/
def radixWidth? : Text → Option Nat
  | first :: mark :: rest =>
      if first = '0' then do
        let isDigit ← radixDigit? mark
        let digits := runLength isDigit rest
        if digits = 0 then none
        else some (2 + digits + suffixWidth (rest.drop digits))
      else none
  | _ => none

/-- The width of a decimal number. -/
def decimalWidth? (t : Text) : Option Nat := do
  let mantissa ← mantissaWidth? t
  let exponent := exponentWidth (t.drop mantissa)
  return mantissa + exponent + suffixWidth (t.drop (mantissa + exponent))

/-- The width of the numeral at the head of a text. -/
def width? (t : Text) : Option Nat :=
  (radixWidth? t).or (decimalWidth? t)

end Number

end StackLint

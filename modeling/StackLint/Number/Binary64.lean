/-
  StackLint.Number.Binary64
  ─────────────────────────
  **NUMERALS AS DOUBLE-PRECISION NUMBERS.**

  The nearest number of 53 binary digits to a decimal numeral, in exact
  arithmetic: ties go to the even neighbour, what is too small becomes zero and
  what is too large becomes infinite.
-/
import StackLint.Json.Basic

namespace StackLint

/-- A double-precision number. -/
inductive Binary64 where
  /-- The number `± mantissa · 2 ^ exponent`; zero has a sign, too. -/
  | finite (negative : Bool) (mantissa : Nat) (exponent : Int)
  | infinite (negative : Bool)
  | notANumber
  deriving DecidableEq, Repr

namespace Binary64

/-! ## §1. Rounding. -/

/-- The quotient of two numbers, rounded to the nearest integer.  A tie goes to
the even one. -/
def roundQuotient (num den : Nat) : Nat :=
  let quotient := num / den
  let remainder := num % den
  if 2 * remainder < den then quotient
  else if den < 2 * remainder then quotient + 1
  else if quotient % 2 = 0 then quotient
  else quotient + 1

/-- The quotient `num / (den · 2 ^ exponent)`, rounded. -/
def scaled (num den : Nat) (exponent : Int) : Nat :=
  if 0 ≤ exponent then roundQuotient num (den <<< exponent.toNat)
  else roundQuotient (num <<< (-exponent).toNat) den

/-- The largest `e` with `2 ^ e ≤ num / den`. -/
def magnitude (num den : Nat) : Int :=
  let e : Int := (Nat.log2 num : Int) - Nat.log2 den
  let reached :=
    if 0 ≤ e then den <<< e.toNat ≤ num else den ≤ num <<< (-e).toNat
  if reached then e else e - 1

/-- The number nearest to the positive fraction `num / den`. -/
def ofFraction (negative : Bool) (num den : Nat) : Binary64 :=
  let exponent := max (magnitude num den - 52) (-1074)
  let mantissa := scaled num den exponent
  if 971 < exponent ∨ (exponent = 971 ∧ 1 <<< 53 ≤ mantissa) then .infinite negative
  else .finite negative mantissa exponent

/-- The number nearest to `± digits · 10 ^ exponent`. -/
def ofDecimal (negative : Bool) (digits : Nat) (exponent : Int) : Binary64 :=
  if digits = 0 then .finite negative 0 0
  else
    let places : Int := exponent + (toString digits).length
    if 310 < places then .infinite negative
    else if places < -330 then .finite negative 0 0
    else if 0 ≤ exponent then ofFraction negative (digits * Nat.pow 10 exponent.toNat) 1
    else ofFraction negative digits (Nat.pow 10 (-exponent).toNat)

/-- The number nearest to a numeral. -/
def ofNumeral : Numeral → Binary64
  | .integer n => ofDecimal (n < 0) n.natAbs 0
  | .decimal negative digits exponent => ofDecimal negative digits exponent
  | .infinity negative => .infinite negative
  | .notANumber => .notANumber

/-- The number nearest to a numeral.  An integer has to be in range, whereas a
decimal numeral that is too large counts as infinite. -/
def ofNumeral? (n : Numeral) : Option Binary64 :=
  match n, ofNumeral n with
  | .integer _, .infinite _ => none
  | _, nearest => some nearest

/-- Zero, without a sign. -/
def zero : Binary64 :=
  .finite false 0 0

/-! ## §2. Reading off. -/

/-- The number without its sign, rounded to an integer. -/
def roundedMagnitude (mantissa : Nat) (exponent : Int) : Nat :=
  if 0 ≤ exponent then mantissa <<< exponent.toNat
  else roundQuotient mantissa (1 <<< (-exponent).toNat)

/-- The number in decimal digits without a fraction. -/
def wholeText : Binary64 → Text
  | .finite negative mantissa exponent =>
      (if negative then "-" else "") ++ Text.ofNat (roundedMagnitude mantissa exponent)
  | .infinite negative => if negative then "-inf" else "inf"
  | .notANumber => "nan"

/-- The truth value that a number stands for: zero and one do, no other. -/
def toBool? : Binary64 → Option Bool
  | .finite negative mantissa exponent =>
      if mantissa = 0 then some false
      else if !negative && exponent ≤ 0 && mantissa == 1 <<< (-exponent).toNat then some true
      else none
  | _ => none

end Binary64

end StackLint

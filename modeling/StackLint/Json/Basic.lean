/-
  StackLint.Json.Basic
  ────────────────────
  **JSON VALUES.**

  The values of a settings file.  Numbers keep what was written: whether a
  numeral is an integer, and its exact decimal value.  The members of an object
  keep their order, and their names are distinct.
-/
import StackLint.Text.CodePoint

namespace StackLint

/-! ## §1. Values. -/

/-- A number, exactly as its numeral says. -/
inductive Numeral where
  /-- A numeral without fraction and exponent. -/
  | integer (n : Int)
  /-- The number `± digits · 10 ^ exponent`. -/
  | decimal (negative : Bool) (digits : Nat) (exponent : Int)
  | infinity (negative : Bool)
  | notANumber
  deriving DecidableEq, Repr

/-- A JSON value. -/
inductive Json where
  | null
  | bool (b : Bool)
  | number (n : Numeral)
  | string (value : Text)
  | array (items : List Json)
  | object (members : List (Text × Json))

/-! ## §2. Members of an object. -/

/-- The value under a key in a list of pairs. -/
def lookupKey (key : Text) : List (Text × α) → Option α
  | [] => none
  | (k, value) :: rest => if k = key then some value else lookupKey key rest

/-- Sets the value under a key: in its old place when the key is there, else
at the end. -/
def setKey (key : Text) (value : α) : List (Text × α) → List (Text × α)
  | [] => [(key, value)]
  | (k, old) :: rest => if k = key then (k, value) :: rest else (k, old) :: setKey key value rest

/-- The member of an object with the given name. -/
def Json.member? (name : Text) : Json → Option Json
  | .object members => lookupKey name members
  | _ => none

end StackLint

/-
  StackLint.Token.Escape
  ──────────────────────
  **ESCAPE SEQUENCES.**

  What a backslash and the characters after it denote in a string or a
  template.  A malformed escape never spoils the literal: it denotes the
  character after the backslash, or nothing.  A braced escape takes
  everything up to the next closing brace as its numeral.
-/
import StackLint.Text.Hexadecimal

namespace StackLint

/-- Why a text cannot be cut into tokens. -/
inductive ScanFailure where
  /-- A character that shows a digit begins no number. -/
  | malformedNumber
  /-- The number in a braced escape does not fit in 32 bits. -/
  | escapeOutOfRange
  deriving DecidableEq, Repr

/-- A decoded piece of text and the number of code points it was written
with. -/
structure Decoded where
  value : Text
  width : Nat
  deriving DecidableEq, Repr

namespace Escape

/-- The characters of one-letter escapes. -/
def simple? (c : CodePoint) : Option Char :=
  if c = 'n' then some '\n'
  else if c = 't' then some '\t'
  else if c = 'r' then some '\r'
  else if c = 'b' then some '\x08'
  else if c = 'f' then some '\x0c'
  else if c = 'v' then some '\x0b'
  else if c = '0' then some '\x00'
  else none

/-- The number that exactly `count` hexadecimal digits at the head of a text
denote. -/
def hexDigits? (count : Nat) (t : Text) : Option Nat :=
  let digits := t.take count
  if digits.length = count then
    digits.foldlM (fun value c => c.hexValue.map (16 * value + ·)) 0
  else none

/-- What the numeral of a braced escape denotes: the code point of that
number, nothing when there is none.  A number beyond 32 bits is a failure. -/
def braced (numeral : Text) : Except ScanFailure Text :=
  match numeral.hexInteger? with
  | none => .ok []
  | some n =>
      if n < -0x80000000 ∨ 0x7FFFFFFF < n then .error .escapeOutOfRange
      else if n < 0 then .ok []
      else .ok (CodePoint.ofNat? n.toNat).toList

/-- Decodes the escape whose backslash stands before `t`; the width does not
count the backslash. -/
def decode : Text → Except ScanFailure Decoded
  | [] => .ok ⟨[], 0⟩
  | c :: rest =>
      match simple? c with
      | some d => .ok ⟨[d], 1⟩
      | none =>
          if c = '\r' ∧ rest.head? = some (.scalar '\n') then .ok ⟨[], 2⟩
          else if c = '\n' then .ok ⟨[], 1⟩
          else if c = 'x' then
            match hexDigits? 2 rest with
            | some n => .ok ⟨[CodePoint.ofNat n], 3⟩
            | none => .ok ⟨[c], 1⟩
          else if c = 'u' then
            if rest.head? = some (.scalar '{') ∧ rest.contains (.scalar '}') then do
              let numeral := (rest.drop 1).takeWhile (· != (.scalar '}'))
              let value ← braced numeral
              return ⟨value, numeral.length + 3⟩
            else
              match hexDigits? 4 rest with
              | some n => .ok ⟨[CodePoint.ofNat n], 5⟩
              | none => .ok ⟨[c], 1⟩
          else .ok ⟨[c], 1⟩

end Escape

end StackLint

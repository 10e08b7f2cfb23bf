/-
  StackLint.Text.Utf8
  ───────────────────
  **UTF-8.**

  Files hold bytes and the library works on text.  `decodeUtf8` reads well
  formed UTF-8 (shortest form, no surrogates) and says what is wrong with the
  first bytes that are not; `encodeUtf8?` writes every text but one with a
  surrogate that stands alone.
-/
import StackLint.Text.CodePoint

namespace StackLint

/-! ## §1. Decoding. -/

/-- What is wrong with bytes that are not UTF-8. -/
inductive Utf8Failure where
  /-- A byte that opens no character. -/
  | invalidStart
  /-- A character that is not continued as it has to be. -/
  | invalidContinuation
  /-- The bytes end inside a character. -/
  | unexpectedEnd
  deriving DecidableEq, Repr

/-- The failure in words. -/
def Utf8Failure.message : Utf8Failure → String
  | .invalidStart => "invalid start byte"
  | .invalidContinuation => "invalid continuation byte"
  | .unexpectedEnd => "unexpected end of data"

namespace Utf8

/-- A byte that continues a character. -/
def isContinuation (b : UInt8) : Bool :=
  0x80 ≤ b && b ≤ 0xBF

/-- The second bytes allowed after a first byte of three or four: they rule
out overlong forms, surrogates and numbers above `U+10FFFF`. -/
def secondAllowed (first second : UInt8) : Bool :=
  isContinuation second &&
    (if first == 0xE0 then 0xA0 ≤ second
     else if first == 0xED then second < 0xA0
     else if first == 0xF0 then 0x90 ≤ second
     else if first == 0xF4 then second < 0x90
     else true)

/-- How many bytes a character has, by its first byte. -/
def lengthOf (first : UInt8) : Option Nat :=
  if first < 0x80 then some 1
  else if 0xC2 ≤ first && first ≤ 0xDF then some 2
  else if 0xE0 ≤ first && first ≤ 0xEF then some 3
  else if 0xF0 ≤ first && first ≤ 0xF4 then some 4
  else none

/-- The bits of a first byte that belong to its character. -/
def leadBits (length : Nat) (first : UInt8) : Nat :=
  match length with
  | 1 => first.toNat
  | 2 => (first &&& 0x1F).toNat
  | 3 => (first &&& 0x0F).toNat
  | _ => (first &&& 0x07).toNat

/-- What bytes begin with. -/
inductive Head where
  /-- A character and the number of bytes it takes. -/
  | point (c : CodePoint) (length : Nat)
  /-- Bytes that are no character, and their number. -/
  | malformed (failure : Utf8Failure) (length : Nat)

/-- Reads the bytes that continue a character: `value` are the bits read so
far, `seen` the bytes, and `missing` the bytes still to come. -/
def continued (allowed : UInt8 → Bool) (value seen : Nat) : (missing : Nat) → List UInt8 → Head
  | 0, _ => .point (CodePoint.ofNat value) seen
  | _ + 1, [] => .malformed .unexpectedEnd seen
  | missing + 1, b :: rest =>
      if allowed b then
        continued isContinuation (value * 0x40 + (b &&& 0x3F).toNat) (seen + 1) missing rest
      else .malformed .invalidContinuation seen

/-- What the bytes begin with, where `first` is the first one. -/
def head (first : UInt8) (rest : List UInt8) : Head :=
  match lengthOf first with
  | none => .malformed .invalidStart 1
  | some length =>
      continued (secondAllowed first) (leadBits length first) 1 (length - 1) rest

/-- Decodes the bytes behind the next `skip` ones. -/
def decodeFrom : (skip : Nat) → List UInt8 → Except Utf8Failure Text
  | _, [] => .ok []
  | skip + 1, _ :: rest => decodeFrom skip rest
  | 0, first :: rest =>
      match head first rest with
      | .malformed failure _ => .error failure
      | .point c length => do
          let tail ← decodeFrom (length - 1) rest
          return c :: tail

/-- Decodes bytes to text. -/
def decode (bytes : List UInt8) : Except Utf8Failure Text :=
  decodeFrom 0 bytes

/-- The character that stands for bytes that are none. -/
def replacement : CodePoint := '\uFFFD'

/-- Decodes the bytes behind the next `skip` ones, whatever they are. -/
def decodeLossyFrom : (skip : Nat) → List UInt8 → Text
  | _, [] => []
  | skip + 1, _ :: rest => decodeLossyFrom skip rest
  | 0, first :: rest =>
      match head first rest with
      | .malformed _ length => replacement :: decodeLossyFrom (length - 1) rest
      | .point c length => c :: decodeLossyFrom (length - 1) rest

/-- Decodes bytes to text, with a replacement character for every piece that is
not UTF-8. -/
def decodeLossy (bytes : List UInt8) : Text :=
  decodeLossyFrom 0 bytes

/-! ## §2. Encoding. -/

/-- How many bytes a code point takes. -/
def width (c : CodePoint) : Nat :=
  if c.val < 0x80 then 1
  else if c.val < 0x800 then 2
  else if c.val < 0x10000 then 3
  else 4

/-- How many bytes a text takes. -/
def size (t : Text) : Nat :=
  t.foldr (fun c n => width c + n) 0

/-- The bytes of one character, none for a surrogate. -/
def encodePoint? (c : CodePoint) : Option (List UInt8) :=
  match c with
  | .surrogate _ => none
  | .scalar c =>
      let n := c.toNat
      let continued (unit : Nat) : UInt8 := UInt8.ofNat (0x80 + n / unit % 0x40)
      if n < 0x80 then some [UInt8.ofNat n]
      else if n < 0x800 then some [UInt8.ofNat (0xC0 + n / 0x40), continued 1]
      else if n < 0x10000 then
        some [UInt8.ofNat (0xE0 + n / 0x1000), continued 0x40, continued 1]
      else
        some [UInt8.ofNat (0xF0 + n / 0x40000), continued 0x1000, continued 0x40, continued 1]

/-- The bytes of a text, if it has no surrogate that stands alone. -/
def encode? : Text → Option (List UInt8)
  | [] => some []
  | c :: rest => do
      let head ← encodePoint? c
      let tail ← encode? rest
      return head ++ tail

end Utf8

end StackLint

/-
  StackLint.Json.Reader
  ─────────────────────
  **READING JSON.**

  A lenient dialect: `NaN`, `Infinity` and `-Infinity` are numbers, and of two
  members of one name the last one counts, in the place of the first.  Strict
  in all else: no trailing commas, no text behind the value, no control
  characters in strings, no byte order mark.  An integer may have at most 4300
  digits, and arrays and objects may lie in one another only as deep as there is
  room on the stack.

  The recursion has a budget of two steps per code point, which no text spends:
  a value takes a step and a code point, and so does an item behind a value.
-/
import StackLint.Json.Basic

namespace StackLint

/-- Why a text is not read as JSON. -/
inductive JsonFailure where
  | malformed
  /-- An integer with more digits than are allowed. -/
  | integerTooLong (digits : Nat)
  /-- There is no room for an array or an object inside of the others. -/
  | nestedTooDeep
  deriving DecidableEq, Repr

namespace JsonReader

/-! ## §1. Blanks, words and strings. -/

/-- White space between the parts of a value. -/
def isSpace (c : CodePoint) : Bool :=
  c == ' ' || c == '\t' || c == '\n' || c == '\r'

/-- The text from its first character that is no white space. -/
def skipSpace (t : Text) : Text :=
  t.dropWhile isSpace

/-- The character of a one-letter escape. -/
def simpleEscape? (c : CodePoint) : Option Char :=
  if c = '"' then some '"'
  else if c = '\\' then some '\\'
  else if c = '/' then some '/'
  else if c = 'b' then some '\x08'
  else if c = 'f' then some '\x0c'
  else if c = 'n' then some '\n'
  else if c = 'r' then some '\r'
  else if c = 't' then some '\t'
  else none

/-- The number of four hexadecimal digits. -/
def hex4? (a b c d : CodePoint) : Option Nat := do
  return ((← a.hexValue) * 16 + (← b.hexValue)) * 256 + (← c.hexValue) * 16 + (← d.hexValue)

/-- The character that two surrogates denote together. -/
def joinSurrogates (high low : Nat) : CodePoint :=
  CodePoint.ofNat (0x10000 + (high - 0xD800) * 0x400 + (low - 0xDC00))

/-- The number of the escape `u` and four digits at the head of a text, the
backslash included. -/
def followingEscape? : Text → Option Nat
  | s :: u :: a :: b :: c :: d :: _ => if s = '\\' ∧ u = 'u' then hex4? a b c d else none
  | _ => none

/-- The character of a `u` escape whose digits begin the text, and how many
code points it takes.  Two escapes side by side that are the halves of a
surrogate pair denote one character. -/
def unicodeEscape? : Text → Option (CodePoint × Nat)
  | a :: b :: c :: d :: tail => do
      let n ← hex4? a b c d
      match followingEscape? tail with
      | some low =>
          if 0xD800 ≤ n ∧ n < 0xDC00 ∧ 0xDC00 ≤ low ∧ low < 0xE000 then
            return (joinSurrogates n low, 10)
          else return (CodePoint.ofNat n, 4)
      | none => return (CodePoint.ofNat n, 4)
  | _ => none

/-- A string after its opening quote, and the text behind its closing one.
`skip` code points belong to an escape that was already decoded. -/
def stringBody? : (skip : Nat) → Text → Option (Text × Text)
  | _, [] => none
  | skip + 1, _ :: rest => stringBody? skip rest
  | 0, c :: rest =>
      if c = '"' then some ([], rest)
      else if c.val < 0x20 then none
      else if c = '\\' then
        match rest with
        | [] => none
        | e :: after =>
            let decoded : Option (CodePoint × Nat) :=
              if e = 'u' then unicodeEscape? after else (simpleEscape? e).map fun d => (↑d, 0)
            match decoded with
            | none => none
            | some (d, width) =>
                (stringBody? width after).map fun (value, behind) => (d :: value, behind)
      else (stringBody? 0 rest).map fun (value, behind) => (c :: value, behind)

/-! ## §2. Numbers. -/

/-- The decimal digits at the head of a text, and what follows them. -/
def digits (t : Text) : List Nat × Text :=
  (((t.takeWhile CodePoint.isAsciiDigit).map fun c => c.val - 0x30),
    t.dropWhile CodePoint.isAsciiDigit)

/-- The number that decimal digits denote. -/
def ofDigits (ds : List Nat) : Nat :=
  ds.foldl (fun value d => 10 * value + d) 0

/-- The digits of a fraction, none when no fraction follows. -/
def fraction : Text → List Nat × Text
  | c :: rest =>
      if c = '.' then
        match digits rest with
        | ([], _) => ([], c :: rest)
        | found => found
      else ([], c :: rest)
  | [] => ([], [])

/-- The value of an exponent, if one follows. -/
def exponent? : Text → Option (Int × Text)
  | c :: rest =>
      if c = 'e' ∨ c = 'E' then
        let (negative, unsigned) := match rest with
          | s :: after =>
              if s = '-' then (true, after) else if s = '+' then (false, after) else (false, rest)
          | [] => (false, rest)
        match digits unsigned with
        | ([], _) => none
        | (ds, behind) =>
            some (if negative then -(ofDigits ds : Int) else ofDigits ds, behind)
      else none
  | [] => none

/-- The most digits that an integer may have. -/
def maxIntegerDigits : Nat := 4300

/-- A number without its sign.  Only a lone zero begins with a zero. -/
def unsigned (negative : Bool) (t : Text) : Except JsonFailure (Json × Text) :=
  let (whole, afterWhole) :=
    match t with
    | c :: rest => if c = '0' then ([0], rest) else digits t
    | [] => ([], [])
  match whole with
  | [] => .error .malformed
  | whole =>
      let (part, afterPart) := fraction afterWhole
      match exponent? afterPart, part with
      | none, [] =>
          if whole.length > maxIntegerDigits then .error (.integerTooLong whole.length)
          else
            let n : Int := ofDigits whole
            .ok (.number (.integer (if negative then -n else n)), afterWhole)
      | none, part =>
          .ok (.number (.decimal negative (ofDigits (whole ++ part)) (-(part.length : Int))),
            afterPart)
      | some (e, behind), part =>
          .ok (.number (.decimal negative (ofDigits (whole ++ part)) (e - part.length)), behind)

/-- The words that are values. -/
def literals : List (Text × Json) :=
  [("null", .null), ("true", .bool true), ("false", .bool false),
   ("NaN", .number .notANumber), ("Infinity", .number (.infinity false)),
   ("-Infinity", .number (.infinity true))]

/-- A word or a number. -/
def scalar (t : Text) : Except JsonFailure (Json × Text) :=
  match literals.find? fun entry => entry.1.isPrefixOf t with
  | some (word, value) => .ok (value, t.drop word.length)
  | none =>
      match t with
      | [] => .error .malformed
      | c :: rest => if c = '-' then unsigned true rest else unsigned false t

/-- A string at the head of a text. -/
def string : Text → Except JsonFailure (Text × Text)
  | [] => .error .malformed
  | c :: rest =>
      if c = '"' then
        match stringBody? 0 rest with
        | some found => .ok found
        | none => .error .malformed
      else .error .malformed

/-- The text behind the character `expected`, which has to come first. -/
def expect (expected : Char) : Text → Except JsonFailure Text
  | [] => .error .malformed
  | c :: rest => if c = expected then .ok rest else .error .malformed

/-! ## §3. Arrays, objects and whole texts. -/

/-- Reads what is inside of a bracket, if there is room for it. -/
def nested (inside : (room : Nat) → Except JsonFailure α) : (room : Nat) → Except JsonFailure α
  | 0 => .error .nestedTooDeep
  | room + 1 => inside room

mutual

/-- A value at the head of a text. -/
def value : (budget room : Nat) → Text → Except JsonFailure (Json × Text)
  | 0, _, _ => .error .malformed
  | budget + 1, room, t =>
      match t with
      | [] => .error .malformed
      | c :: rest =>
          if c = '"' then do
            let (s, behind) ← string t
            return (.string s, behind)
          else if c = '[' then
            let inside := skipSpace rest
            nested (fun room =>
              if inside.head? = some (.scalar ']') then .ok (.array [], inside.drop 1)
              else do
                let (items, behind) ← elements budget room inside
                return (.array items, behind)) room
          else if c = '{' then
            let inside := skipSpace rest
            nested (fun room =>
              if inside.head? = some (.scalar '}') then .ok (.object [], inside.drop 1)
              else do
                let (members, behind) ← members budget room [] inside
                return (.object members, behind)) room
          else scalar t

/-- The items of an array up to its closing bracket. -/
def elements : (budget room : Nat) → Text → Except JsonFailure (List Json × Text)
  | 0, _, _ => .error .malformed
  | budget + 1, room, t => do
      let (item, behind) ← value budget room t
      match skipSpace behind with
      | [] => .error .malformed
      | c :: rest =>
          if c = ']' then return ([item], rest)
          else if c = ',' then
            let (items, behind) ← elements budget room (skipSpace rest)
            return (item :: items, behind)
          else .error .malformed

/-- The members of an object up to its closing brace, added to those already
read. -/
def members : (budget room : Nat) → List (Text × Json) → Text →
    Except JsonFailure (List (Text × Json) × Text)
  | 0, _, _, _ => .error .malformed
  | budget + 1, room, read, t => do
      let (key, afterKey) ← string t
      let afterColon ← expect ':' (skipSpace afterKey)
      let (item, behind) ← value budget room (skipSpace afterColon)
      let read := setKey key item read
      match skipSpace behind with
      | [] => .error .malformed
      | c :: rest =>
          if c = '}' then return (read, rest)
          else if c = ',' then members budget room read (skipSpace rest)
          else .error .malformed

end

end JsonReader

/-- The value that a text denotes, where `room` arrays and objects may lie in one another. -/
def Json.read (room : Nat) (t : Text) : Except JsonFailure Json := do
  let (value, behind) ← JsonReader.value (2 * t.length + 1) room (JsonReader.skipSpace t)
  if JsonReader.skipSpace behind = [] then return value else .error .malformed

/-- The room that a reader has if nothing else is known: a stack of a thousand calls, less
those that have led to it. -/
def Json.usualRoom : Nat := 990

end StackLint

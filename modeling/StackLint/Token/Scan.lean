/-
  StackLint.Token.Scan
  ────────────────────
  **CUTTING TEXT INTO TOKENS.**

  `tokenize` reads a text from left to right.  Blanks and comments are
  skipped; at any other character the longest lexeme is taken.  A slash
  begins a regular expression where an operand is expected and the expression
  ends on its line.  Open braces are remembered, because the closing brace of
  a substitution continues its template.  The list always ends with the one
  end-of-text token.

  All readers run over the text itself.  A lexeme reports how many code points
  follow its first one, and the main loop steps over them.
-/
import StackLint.Text.Word
import StackLint.Token.Basic
import StackLint.Token.Escape
import StackLint.Token.Number

namespace StackLint

namespace Scan

/-! ## §1. Strings, templates and regular expressions. -/

/-- Reads the rest of a string literal after its opening quote.  It ends
behind its closing quote, before a newline, or with the text.  `skip` code
points belong to an escape that was already decoded. -/
def stringBody (quote : CodePoint) : (skip : Nat) → Text → Except ScanFailure Decoded
  | _, [] => .ok ⟨[], 0⟩
  | skip + 1, _ :: rest => do
      let body ← stringBody quote skip rest
      return ⟨body.value, body.width + 1⟩
  | 0, c :: rest =>
      if c = '\\' then do
        let escape ← Escape.decode rest
        let body ← stringBody quote escape.width rest
        return ⟨escape.value ++ body.value, body.width + 1⟩
      else if c = quote then .ok ⟨[], 1⟩
      else if c = '\n' then .ok ⟨[], 0⟩
      else do
        let body ← stringBody quote 0 rest
        return ⟨c :: body.value, body.width + 1⟩

/-- A run of template text, and whether a substitution follows it. -/
structure TemplateText extends Decoded where
  opensSubstitution : Bool

/-- Reads template text up to a backtick or the opening of a substitution,
and the delimiter itself.  A template that is never closed reaches to the end
of the text. -/
def templateBody : (skip : Nat) → Text → Except ScanFailure TemplateText
  | _, [] => .ok ⟨⟨[], 0⟩, false⟩
  | skip + 1, _ :: rest => do
      let body ← templateBody skip rest
      return ⟨⟨body.value, body.width + 1⟩, body.opensSubstitution⟩
  | 0, c :: rest =>
      if c = '\\' then do
        let escape ← Escape.decode rest
        let body ← templateBody escape.width rest
        return ⟨⟨escape.value ++ body.value, body.width + 1⟩, body.opensSubstitution⟩
      else if c = '\x60' then .ok ⟨⟨[], 1⟩, false⟩
      else if c = '$' ∧ rest.head? = some (.scalar '{') then .ok ⟨⟨[], 2⟩, true⟩
      else do
        let body ← templateBody 0 rest
        return ⟨⟨c :: body.value, body.width + 1⟩, body.opensSubstitution⟩

/-- A flag of a regular expression. -/
def isFlag (c : CodePoint) : Bool :=
  c.isWordCharacter || c == '$'

/-- The width of a regular expression and its flags after the opening slash,
if it ends before the line does.  A slash inside a character class does not
end it. -/
def regexWidth? (inClass : Bool) : Text → Option Nat
  | [] => none
  | c :: rest =>
      if c = '\\' then
        match rest with
        | [] => none
        | _ :: after => (regexWidth? inClass after).map (· + 2)
      else if c = '\n' then none
      else if c = '[' then (regexWidth? true rest).map (· + 1)
      else if c = ']' then (regexWidth? false rest).map (· + 1)
      else if c = '/' ∧ !inClass then some (1 + runLength isFlag rest)
      else (regexWidth? inClass rest).map (· + 1)

/-! ## §2. Blanks and comments. -/

/-- A character between tokens that has no meaning, newlines apart. -/
def isBlank (c : CodePoint) : Bool :=
  c == ' ' || c == '\t' || c == '\r' || c == '\x0c' || c == '\x0b' || c == '\ufeff' || c == '\u00a0'

/-- The width of the rest of a block comment, and whether it has a newline.
A comment that is never closed reaches to the end of the text. -/
def blockComment : Text → Nat × Bool
  | [] => (0, false)
  | c :: rest =>
      if c = '*' ∧ rest.head? = some (.scalar '/') then (2, false)
      else
        let (width, newline) := blockComment rest
        (width + 1, newline || c == '\n')

/-- What stands between tokens at the head of `c :: rest`: how many code
points follow the first one, and whether there is a newline among them. -/
def trivia? (c : CodePoint) (rest : Text) : Option (Nat × Bool) :=
  if c = '\n' then some (0, true)
  else if isBlank c then some (0, false)
  else if c = '/' then
    match rest with
    | d :: after =>
        if d = '/' then some (1 + runLength (· != (.scalar '\n')) after, false)
        else if d = '*' then
          let (width, newline) := blockComment after
          some (1 + width, newline)
        else none
    | [] => none
  else none

/-! ## §3. Lexemes. -/

/-- An open brace: a plain one, or one that opened a substitution. -/
inductive OpenBrace where
  | plain | substitution
  deriving DecidableEq, Repr

/-- A lexeme, the number of code points after its first one, and the braces
that are open behind it. -/
structure Found where
  lexeme : Lexeme
  extra : Nat
  braces : List OpenBrace

/-- Words after which an operand is expected. -/
def operandWords : List Text :=
  ["return", "typeof", "instanceof", "in", "of", "new", "delete", "void", "throw", "case", "do",
   "else", "yield", "await"]

/-- Whether a slash behind this lexeme begins a regular expression. -/
def regexAllowed : Option Lexeme → Bool
  | none => true
  | some (.number _) | some (.string _ _) | some (.template _) | some (.templateTail _)
  | some (.regex _) => false
  | some (.word name) => operandWords.contains name
  | some (.punct p) =>
      !p.closesGroup && p != .increment && p != .decrement
  | some _ => true

/-- The width of a name at the head of a text, zero when there is none. -/
def nameWidth : Text → Nat
  | [] => 0
  | c :: rest =>
      if c = '$' ∨ (c.isWordCharacter ∧ !c.isDecimal) then 1 + runLength isFlag rest else 0

/-- Opens or closes a plain brace. -/
def braceAfter (p : Punct) (braces : List OpenBrace) : List OpenBrace :=
  match p with
  | .openBrace => .plain :: braces
  | .closeBrace => braces.tail
  | _ => braces

/-- The longest punctuator at the head of `c :: rest`.  A question mark and a
point before a digit are two tokens.  A character that begins no punctuator
is a token of its own. -/
def punctuator (braces : List OpenBrace) (c : CodePoint) (rest : Text) : Found :=
  let beforeDigit := match rest.drop 1 with
    | d :: _ => d.isDigit
    | [] => false
  match Punct.longest? (fun p => !(p == .optionalDot && beforeDigit)) (c :: rest) with
  | some (spelling, p) => ⟨.punct p, spelling.length - 1, braceAfter p braces⟩
  | none => ⟨.stray c, 0, braces⟩

/-- A name at the head of a text, else a punctuator. -/
def nameOrPunctuator (braces : List OpenBrace) (c : CodePoint) (rest : Text) : Found :=
  match nameWidth (c :: rest) with
  | 0 => punctuator braces c rest
  | width + 1 => ⟨.word ((c :: rest).take (width + 1)), width, braces⟩

/-- Reads the text of a template, opening or continued. -/
def templatePart (opening : Bool) (braces : List OpenBrace) (rest : Text) :
    Except ScanFailure Found := do
  let body ← templateBody 0 rest
  let lexeme : Lexeme :=
    match opening, body.opensSubstitution with
    | true, true => .templateHead body.value
    | true, false => .template body.value
    | false, true => .templateMiddle body.value
    | false, false => .templateTail body.value
  return ⟨lexeme, body.width, if body.opensSubstitution then .substitution :: braces else braces⟩

/-- Reads the string literal that opens with the given quote. -/
def stringLiteral (quote : Quote) (braces : List OpenBrace) (rest : Text) :
    Except ScanFailure Found := do
  let body ← stringBody quote.mark 0 rest
  return ⟨.string quote body.value, body.width, braces⟩

/-- A number begins at `c :: rest`. -/
def startsNumber (c : CodePoint) (rest : Text) : Bool :=
  c.isDigit || (c == '.' && match rest with
    | d :: _ => d.isDigit
    | [] => false)

/-- The lexeme at the head of `c :: rest`, where no blank and no comment
begins. -/
def lexeme (braces : List OpenBrace) (previous : Option Lexeme) (c : CodePoint) (rest : Text) :
    Except ScanFailure Found :=
  if c = '"' then stringLiteral .double braces rest
  else if c = '\'' then stringLiteral .single braces rest
  else if c = '\x60' then templatePart true braces rest
  else if startsNumber c rest then
    match Number.width? (c :: rest) with
    | some width => .ok ⟨.number ((c :: rest).take width), width - 1, braces⟩
    | none => .error .malformedNumber
  else if c = '#' ∧ rest ≠ [] then
    match nameWidth rest with
    | 0 => .ok ⟨.stray c, 0, braces⟩
    | width + 1 => .ok ⟨.word (c :: rest.take (width + 1)), width + 1, braces⟩
  else if c = '/' ∧ regexAllowed previous then
    match regexWidth? false rest with
    | some width => .ok ⟨.regex (c :: rest.take width), width, braces⟩
    | none => .ok (punctuator braces c rest)
  else if c = '}' ∧ braces.head? = some .substitution then
    templatePart false braces.tail rest
  else .ok (nameOrPunctuator braces c rest)

/-! ## §4. The whole text. -/

/-- What the reader remembers between tokens. -/
structure Memory where
  /-- The braces that are open. -/
  braces : List OpenBrace
  /-- The last lexeme read. -/
  previous : Option Lexeme
  /-- A newline was skipped since then. -/
  newline : Bool

/-- The memory at the start of a text. -/
def Memory.start : Memory :=
  ⟨[], none, false⟩

/-- The tokens of a text that begins at `offset`, after `skip` code points
that were already read. -/
def tokensFrom (memory : Memory) : (skip offset : Nat) → Text → Except ScanFailure (List Token)
  | _, offset, [] => .ok [⟨.endOfText, offset, offset, memory.newline⟩]
  | skip + 1, offset, _ :: rest => tokensFrom memory skip (offset + 1) rest
  | 0, offset, c :: rest =>
      match trivia? c rest with
      | some (extra, newline) =>
          tokensFrom { memory with newline := memory.newline || newline } extra (offset + 1) rest
      | none => do
          let found ← lexeme memory.braces memory.previous c rest
          let tokens ←
            tokensFrom ⟨found.braces, some found.lexeme, false⟩ found.extra (offset + 1) rest
          return ⟨found.lexeme, offset, offset + found.extra + 1, memory.newline⟩ :: tokens

/-- The width of a first line that names an interpreter, without its
newline. -/
def hashbangWidth : Text → Nat
  | c :: d :: rest =>
      if c = '#' ∧ d = '!' then 2 + runLength (· != (.scalar '\n')) rest else 0
  | _ => 0

end Scan

/-- The tokens of a text. -/
def tokenize (t : Text) : Except ScanFailure (List Token) :=
  Scan.tokensFrom .start (Scan.hashbangWidth t) 0 t

end StackLint

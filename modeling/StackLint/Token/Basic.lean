/-
  StackLint.Token.Basic
  ─────────────────────
  **TOKENS.**

  A token is a lexeme with the range of text it was read from.  Names and
  keywords are both words: which words are special depends on the place where
  they stand.  A template literal with substitutions is cut at them, so that
  `a${x}b${y}c` between backticks gives a head, a middle and a tail with the
  tokens of `x` and `y` in between.
-/
import StackLint.Text.CodePoint
import StackLint.Token.Punct

namespace StackLint

/-! ## §1. Lexemes. -/

/-- The quotes that surround a string literal. -/
inductive Quote where
  | single | double
  deriving DecidableEq, Repr

/-- The quote as a character. -/
def Quote.mark : Quote → Char
  | .single => '\''
  | .double => '"'

/-- A text between two quotes. -/
def Quote.surround (quote : Quote) (t : Text) : Text :=
  .scalar quote.mark :: t ++ [.scalar quote.mark]

/-- What a token says.  Strings and templates carry their decoded text. -/
inductive Lexeme where
  /-- A name or a keyword. -/
  | word (name : Text)
  /-- A numeral, as written. -/
  | number (raw : Text)
  | string (quote : Quote) (value : Text)
  /-- A template without substitutions. -/
  | template (value : Text)
  /-- A template up to its first substitution. -/
  | templateHead (value : Text)
  /-- A template between two substitutions. -/
  | templateMiddle (value : Text)
  /-- A template after its last substitution. -/
  | templateTail (value : Text)
  /-- A regular expression with its flags, as written. -/
  | regex (raw : Text)
  | punct (p : Punct)
  /-- A character that begins no token. -/
  | stray (c : CodePoint)
  /-- The end of the text. -/
  | endOfText
  deriving DecidableEq, Repr

namespace Lexeme

/-- The name of the kind of a lexeme. -/
def kindName : Lexeme → String
  | .word _ => "ident"
  | .number _ => "number"
  | .string _ _ => "string"
  | .template _ => "template"
  | .templateHead _ => "template_head"
  | .templateMiddle _ => "template_middle"
  | .templateTail _ => "template_tail"
  | .regex _ => "regex"
  | .punct _ => "punct"
  | .stray _ => "error"
  | .endOfText => "eof"

/-- The value of a lexeme: decoded for strings and templates, as written for
all others. -/
def value : Lexeme → Text
  | .word name => name
  | .number raw => raw
  | .string _ value => value
  | .template value => value
  | .templateHead value => value
  | .templateMiddle value => value
  | .templateTail value => value
  | .regex raw => raw
  | .punct p => p.text
  | .stray c => [c]
  | .endOfText => []

end Lexeme

/-! ## §2. Tokens. -/

/-- A lexeme in its place: it spans the offsets from `start` up to `stop`. -/
structure Token where
  lexeme : Lexeme
  start : Nat
  stop : Nat
  /-- A newline stands between the previous token and this one. -/
  newlineBefore : Bool
  deriving DecidableEq, Repr

namespace Token

/-- The token is the given punctuator. -/
def is (t : Token) (p : Punct) : Bool :=
  t.lexeme == .punct p

/-- The token is one of the given punctuators. -/
def isOneOf (t : Token) (ps : List Punct) : Bool :=
  match t.lexeme with
  | .punct p => ps.contains p
  | _ => false

/-- The token is a word. -/
def isWord (t : Token) : Bool :=
  match t.lexeme with
  | .word _ => true
  | _ => false

/-- The token is one of the given words. -/
def isWordIn (t : Token) (words : List Text) : Bool :=
  match t.lexeme with
  | .word name => words.contains name
  | _ => false

/-- The token is the given word. -/
def isTheWord (t : Token) (word : Text) : Bool :=
  t.lexeme == .word word

/-- The token is a string literal. -/
def isString (t : Token) : Bool :=
  match t.lexeme with
  | .string _ _ => true
  | _ => false

/-- The token is a number. -/
def isNumber (t : Token) : Bool :=
  match t.lexeme with
  | .number _ => true
  | _ => false

/-- The token opens a template, with or without substitutions. -/
def opensTemplate (t : Token) : Bool :=
  match t.lexeme with
  | .template _ | .templateHead _ => true
  | _ => false

/-- The token continues a template after a substitution. -/
def continuesTemplate (t : Token) : Bool :=
  match t.lexeme with
  | .templateMiddle _ | .templateTail _ => true
  | _ => false

/-- The token is the end of the text. -/
def isEnd (t : Token) : Bool :=
  t.lexeme == .endOfText

end Token

end StackLint

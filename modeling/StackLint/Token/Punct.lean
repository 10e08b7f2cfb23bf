/-
  StackLint.Token.Punct
  ─────────────────────
  **PUNCTUATORS.**

  The operators and brackets of the language.  `Punct.all` lists them with the
  longer ones first, so that the first one that a text begins with is the
  longest.
-/
import StackLint.Text.CodePoint

namespace StackLint

/-- A punctuator. -/
inductive Punct where
  | ushrAssign | ellipsis | eqStrict | neStrict | powAssign | shlAssign | shrAssign | ushr
  | andAssign | orAssign | coalesceAssign | arrow | eqLoose | neLoose | le | ge | logicalAnd
  | logicalOr | coalesce | optionalDot | increment | decrement | addAssign | subAssign
  | mulAssign | divAssign | modAssign | bitAndAssign | bitOrAssign | bitXorAssign | pow | shl
  | shr | openBrace | closeBrace | openParen | closeParen | openBracket | closeBracket
  | semicolon | comma | lt | gt | plus | minus | star | slash | percent | ampersand | bar
  | caret | bang | tilde | question | colon | assign | dot | atSign
  deriving DecidableEq, Repr

namespace Punct

/-- How a punctuator is written. -/
def spelling : Punct → String
  | .ushrAssign => ">>>="
  | .ellipsis => "..."
  | .eqStrict => "==="
  | .neStrict => "!=="
  | .powAssign => "**="
  | .shlAssign => "<<="
  | .shrAssign => ">>="
  | .ushr => ">>>"
  | .andAssign => "&&="
  | .orAssign => "||="
  | .coalesceAssign => "??="
  | .arrow => "=>"
  | .eqLoose => "=="
  | .neLoose => "!="
  | .le => "<="
  | .ge => ">="
  | .logicalAnd => "&&"
  | .logicalOr => "||"
  | .coalesce => "??"
  | .optionalDot => "?."
  | .increment => "++"
  | .decrement => "--"
  | .addAssign => "+="
  | .subAssign => "-="
  | .mulAssign => "*="
  | .divAssign => "/="
  | .modAssign => "%="
  | .bitAndAssign => "&="
  | .bitOrAssign => "|="
  | .bitXorAssign => "^="
  | .pow => "**"
  | .shl => "<<"
  | .shr => ">>"
  | .openBrace => "\x7b"
  | .closeBrace => "\x7d"
  | .openParen => "("
  | .closeParen => ")"
  | .openBracket => "["
  | .closeBracket => "]"
  | .semicolon => ";"
  | .comma => ","
  | .lt => "<"
  | .gt => ">"
  | .plus => "+"
  | .minus => "-"
  | .star => "*"
  | .slash => "/"
  | .percent => "%"
  | .ampersand => "&"
  | .bar => "|"
  | .caret => "^"
  | .bang => "!"
  | .tilde => "~"
  | .question => "?"
  | .colon => ":"
  | .assign => "="
  | .dot => "."
  | .atSign => "@"

/-- How a punctuator is written, as a text. -/
def text (p : Punct) : Text :=
  Text.ofString p.spelling

/-- All punctuators, the longer ones first. -/
def all : List Punct :=
  [.ushrAssign, .ellipsis, .eqStrict, .neStrict, .powAssign, .shlAssign, .shrAssign, .ushr,
   .andAssign, .orAssign, .coalesceAssign, .arrow, .eqLoose, .neLoose, .le, .ge, .logicalAnd,
   .logicalOr, .coalesce, .optionalDot, .increment, .decrement, .addAssign, .subAssign,
   .mulAssign, .divAssign, .modAssign, .bitAndAssign, .bitOrAssign, .bitXorAssign, .pow, .shl,
   .shr, .openBrace, .closeBrace, .openParen, .closeParen, .openBracket, .closeBracket,
   .semicolon, .comma, .lt, .gt, .plus, .minus, .star, .slash, .percent, .ampersand, .bar,
   .caret, .bang, .tilde, .question, .colon, .assign, .dot, .atSign]

/-- All punctuators with their texts, the longer ones first. -/
def table : List (Text × Punct) :=
  all.map fun p => (p.text, p)

/-- The longest punctuator that a text begins with and that `allowed` admits,
with its text. -/
def longest? (allowed : Punct → Bool) (t : Text) : Option (Text × Punct) :=
  table.find? fun entry => entry.1.isPrefixOf t && allowed entry.2

/-- One of the brackets that open a group. -/
def opensGroup : Punct → Bool
  | .openParen | .openBracket | .openBrace => true
  | _ => false

/-- One of the brackets that close a group. -/
def closesGroup : Punct → Bool
  | .closeParen | .closeBracket | .closeBrace => true
  | _ => false

end Punct

end StackLint

/-
  StackLint.Tree.Complaint
  ────────────────────────
  **WHAT THE PARSER COMPLAINS ABOUT.**

  The parser accepts every text.  What it cannot make sense of it records as a
  complaint and goes on.
-/
import StackLint.Text.Quoted
import StackLint.Token.Punct

namespace StackLint

/-- One reason why a text is not well formed. -/
inductive Complaint where
  /-- Constructs are nested beyond the limit. -/
  | nestingTooDeep
  /-- A token that fits nowhere. -/
  | unexpectedToken (value : Text)
  /-- A punctuator is missing; `found` stands in its place. -/
  | expected (p : Punct) (found : Text)
  /-- Neither a comma nor the end of a list. -/
  | expectedSeparator (closer : Punct)
  | expectedExpression
  | expectedType
  | expectedBindingName
  | expectedPropertyName
  | expectedColon
  | unterminatedSubstitution
  deriving DecidableEq, Repr

/-- The complaint in words. -/
def Complaint.message : Complaint → Text
  | .nestingTooDeep => "Nesting too deep"
  | .unexpectedToken value => "Unexpected token " ++ value.quoted
  | .expected p found => "Expected '" ++ p.text ++ "', got " ++ found.quoted
  | .expectedSeparator closer => "Expected ',' or '" ++ closer.text ++ "'"
  | .expectedExpression => "Expected expression"
  | .expectedType => "Expected type"
  | .expectedBindingName => "Expected binding name"
  | .expectedPropertyName => "Expected property name"
  | .expectedColon => "Expected ':'"
  | .unterminatedSubstitution => "Unterminated template substitution"

end StackLint

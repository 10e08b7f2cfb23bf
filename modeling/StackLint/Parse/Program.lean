/-
  StackLint.Parse.Program
  ───────────────────────
  **PARSING A WHOLE TEXT.**

  Ties the knot of the grammar: the parsers at one budget use those at the
  next lower one for parts that lie deeper.  `parse` accepts every text that
  can be cut into tokens.
-/
import StackLint.Parse.Statement
import StackLint.Token.Scan

namespace StackLint

/-! ## §1. The knot. -/

/-- The parsers of the recursive constructs, from those for deeper parts. -/
def Grammar.around (g : Grammar) : Grammar where
  statement := Parser.statement g
  assignment := Parser.assignment g
  unary := Parser.unary g
  binary := Parser.binary g
  primary := Parser.primary g
  newExpression := Parser.newExpression g
  bindingTarget := Parser.bindingTarget g

/-- The grammar with a budget of nested calls. -/
def Grammar.ofBudget : Nat → Grammar
  | 0 => .spent
  | budget + 1 => (ofBudget budget).around

/-- The budget of a text that is parsed without saying how large the stack is.  How much room a
stack has differs from one caller to the next, and a call takes more of it in one construct than
in another; `parseWithin` leaves the budget open.  A tree within the nesting limit can need more
than any given budget, since right operands and constructors are no levels of nesting. -/
def parseBudget : Nat := 1000

/-! ## §2. Programs. -/

/-- A parsed text: its tree, and the complaints with their offsets in the
order in which they arose. -/
structure Program where
  tree : Tree
  complaints : List (Nat × Complaint)

/-- Parses the tokens of a text of the given length, with a budget of nested calls. -/
def parseTokensWithin (budget length : Nat) (tokens : List Token) (final : Token) : Program :=
  let parser := Parser.statements (.ofBudget budget) none []
  match parser.run (.start tokens final) with
  | .ok statements s => ⟨.mk ⟨0, length⟩ (.program statements), s.complaints.reverse⟩
  | .error _ s =>
      ⟨.mk ⟨0, length⟩ (.program []),
        s.complaints.reverse ++ [(s.current.start, .nestingTooDeep)]⟩

/-- Parses the tokens of a text of the given length. -/
def parseTokens (length : Nat) (tokens : List Token) (final : Token) : Program :=
  parseTokensWithin parseBudget length tokens final

/-- Parses a text with a budget of nested calls. -/
def parseWithin (budget : Nat) (t : Text) : Except ScanFailure Program := do
  let tokens ← tokenize t
  let final := tokens.getLast?.getD ⟨.endOfText, t.length, t.length, false⟩
  return parseTokensWithin budget t.length tokens.dropLast final

/-- Parses a text. -/
def parse (t : Text) : Except ScanFailure Program :=
  parseWithin parseBudget t

end StackLint

/-
  StackLint.Parse.Grammar
  ───────────────────────
  **THE RECURSIVE CONSTRUCTS.**

  Every way for a construct to contain itself goes through one of seven
  parsers.  A `Grammar` holds these seven, for parts that lie deeper by one
  nested call.  All other parsers take a grammar and use it for such parts, so
  none of them is recursive; `Parse.Program` ties the knot.

  This module also has the parsers that need no more than a grammar: names and
  literals, lists of items, blocks and expressions with commas.
-/
import StackLint.Parse.Lookahead

namespace StackLint

/-- Parsers for the constructs that may contain themselves. -/
structure Grammar where
  statement : Parser Tree
  assignment : Parser Tree
  unary : Parser Tree
  /-- An expression of binary operators that bind at least as strongly as a
  given precedence. -/
  binary : (minimum : Nat) → Parser Tree
  primary : Parser Tree
  newExpression : Parser Tree
  bindingTarget : Parser Tree

/-- The grammar of parts for which no budget is left. -/
def Grammar.spent : Grammar where
  statement := throw .budgetSpent
  assignment := throw .budgetSpent
  unary := throw .budgetSpent
  binary := fun _ => throw .budgetSpent
  primary := throw .budgetSpent
  newExpression := throw .budgetSpent
  bindingTarget := throw .budgetSpent

namespace Parser

/-! ## §1. Names and literals. -/

/-- Reads a word as a name. -/
def identifier : Parser Tree := do
  let t ← advance
  return leaf t (.identifier t.lexeme.value)

/-- Reads a string literal of the given quote and value. -/
def stringLiteral (quote : Quote) (value : Text) : Parser Tree := do
  return leaf (← advance) (.stringLiteral value quote)

/-- Reads a number. -/
def numericLiteral : Parser Tree := do
  let t ← advance
  return leaf t (.numericLiteral t.lexeme.value)

/-- Reads the name behind a point.  A missing one is an empty name. -/
def propertyName : Parser Tree := do
  let t ← current
  if t.isWord then identifier
  else
    complain .expectedPropertyName
    return .mk ⟨t.start, t.start⟩ (.identifier [])

/-- Reads the key of a property, if one comes next. -/
def propertyKey (g : Grammar) : Parser (Option Tree) := do
  let t ← current
  match t.lexeme with
  | .word _ => return some (← identifier)
  | .string quote value => return some (← stringLiteral quote value)
  | .number _ => return some (← numericLiteral)
  | _ =>
      if ← accept .openBracket then
        let expression ← g.assignment
        discard (expect .closeBracket)
        return some (← close t.start (.computedPropertyName expression))
      else return none

/-- Whether a token begins the key of a property that a modifier stands in
front of. -/
def beginsPropertyKey (t : Token) : Bool :=
  t.isWord || t.isString || t.isNumber || t.isOneOf [.openBracket, .star]

/-- Reads the modifiers of a method: whether it is asynchronous, and what it
is for. -/
def memberModifiers : Parser (Bool × Accessor) := do
  let t ← current
  let modifies := beginsPropertyKey (← peek 1)
  let found : Bool × Accessor :=
    if !modifies then (false, .method)
    else if t.isTheWord "get" then (false, .getter)
    else if t.isTheWord "set" then (false, .setter)
    else if t.isTheWord "async" then (true, .method)
    else (false, .method)
  if found ≠ (false, .method) then skip 1
  discard (accept .star)
  return found

/-! ## §2. Lists. -/

/-- Reads items with commas between them, up to the bracket that closes the
list.  An item that takes no token ends the list. -/
def listOf (closer : Punct) (item : Parser Tree) : Parser (List Tree) :=
  iterate (fun items => do
    let t ← current
    if t.isEnd || t.is closer then return .finish items.reverse
    let before ← position
    let node ← item
    if (← position) = before then return .finish items.reverse
    unless ← accept .comma do
      unless (← current).is closer do complain (.expectedSeparator closer)
    return .again (node :: items)) []

/-- Reads an element of an array or an argument of a call. -/
def element (g : Grammar) : Parser Tree := do
  let t ← current
  if ← accept .ellipsis then close t.start (.spreadElement (← g.assignment))
  else g.assignment

/-- Reads the arguments of a call with their parentheses. -/
def arguments (g : Grammar) : Parser (List Tree) := do
  discard (expect .openParen)
  let items ← listOf .closeParen (element g)
  discard (expect .closeParen)
  return items

/-! ## §3. Expressions with commas. -/

/-- Reads expressions with commas between them. -/
def expression (g : Grammar) : Parser Tree := do
  let first ← g.assignment
  iterate (fun left => do
    if ← accept .comma then
      let right ← g.assignment
      return .again (← close left.info.start (.binary .comma left right))
    else return .finish left) first

/-! ## §4. Blocks. -/

/-- Reads statements up to the given closer, one of the stop words, or the end
of the text.  A token that begins no statement is passed over. -/
def statements (g : Grammar) (closer : Option Punct) (stopWords : List Text) :
    Parser (List Tree) :=
  iterate (fun read => do
    let t ← current
    if t.isEnd || closer.any t.is || t.isWordIn stopWords then return .finish read.reverse
    let before ← position
    let statement ← g.statement
    if (← position) = before then
      let t ← advance
      let complaint := Complaint.unexpectedToken t.lexeme.value
      complainAt t.start complaint
      return .again (leaf t (.errorNode complaint) :: read)
    return .again (statement :: read)) []

/-- Reads a block with its braces.  A missing block is empty. -/
def block (g : Grammar) : Parser Tree := do
  let start := (← current).start
  if ← expect .openBrace then
    let statements ← statements g (some .closeBrace) []
    discard (expect .closeBrace)
    close start (.block statements)
  else return .mk ⟨start, start⟩ (.block [])

/-- Reads a block, if one comes next. -/
def optionalBlock (g : Grammar) : Parser (Option Tree) := do
  if (← current).is .openBrace then return some (← block g) else return none

/-- Reads an initial value behind its equals sign, if one comes next. -/
def initializer (g : Grammar) : Parser (Option Tree) := do
  if ← accept .assign then return some (← g.assignment) else return none

end Parser

end StackLint

/-
  StackLint.Parse.Expression
  ──────────────────────────
  **EXPRESSIONS.**

  From the operands up to assignments:

      assignment   arrow function, or conditional with an assigned value
      conditional  binary expression with two branches
      binary       unary expressions with binary operators between them
      unary        operators in front of an operand
      primary      names, literals, brackets, functions, classes
-/
import StackLint.Parse.Literal

namespace StackLint

namespace Parser

/-! ## §1. Operands. -/

/-- Reads what a constructor call is applied to, without its chain. -/
def newOperand (g : Grammar) : Parser Tree := do
  if (← current).isTheWord "new" then g.newExpression else g.primary

/-- Reads the arguments of a constructor call, if there is a list of them. -/
def optionalArguments (g : Grammar) : Parser (Option (List Tree)) := do
  if (← current).is .openParen then return some (← arguments g) else return none

/-- Reads a constructor call behind its keyword. -/
def newExpression (g : Grammar) : Parser Tree := do
  let t ← advance
  if (← current).is .dot then return leaf t (.identifier "new")
  let callee ← chain g false (← newOperand g)
  let arguments ← optionalArguments g
  close t.start (.newExpression callee arguments)

/-- Reads an expression in parentheses. -/
def parenthesized (g : Grammar) : Parser Tree := do
  let start := (← advance).start
  let inner ← allowingIn (expression g)
  discard (expect .closeParen)
  close start (.parenthesized inner)

/-- Reads an operand that begins with a word. -/
def wordOperand (g : Grammar) (t : Token) (name : Text) : Parser Tree := do
  if t.isTheWord "function"
      || (t.isTheWord "async" && (← peek 1).isTheWord "function") then
    function g false
  else if t.isTheWord "class" then classNode g
  else if t.isTheWord "new" then newExpression g
  else
    skip 1
    match ValueKeyword.words.lookup name with
    | some keyword => return leaf t (.keywordLiteral keyword)
    | none => return leaf t (.identifier name)

/-- Passes over a token that begins no operand.  What ends a construct stays
unread. -/
def noOperand (t : Token) : Parser Tree := do
  if t.isEnd || t.continuesTemplate || closerTexts.contains t.lexeme.value then
    return missing t .expectedExpression
  else
    skip 1
    let complaint := Complaint.unexpectedToken t.lexeme.value
    complainAt t.start complaint
    return leaf t (.errorNode complaint)

/-- Reads an operand. -/
def primary (g : Grammar) : Parser Tree := do
  let t ← current
  match t.lexeme with
  | .word name => wordOperand g t name
  | .number _ => numericLiteral
  | .string quote value => stringLiteral quote value
  | .template _ | .templateHead _ => template g
  | .regex raw =>
      skip 1
      return leaf t (.regexLiteral raw)
  | .punct .openParen => parenthesized g
  | .punct .openBracket => arrayLiteral g
  | .punct .openBrace => objectLiteral g
  | .punct .atSign =>
      skipDecorators g
      g.primary
  | _ => noOperand t

/-! ## §2. Unary operators. -/

/-- Whether a word in front of this token can be an operator. -/
def mayBeOperand (t : Token) : Bool :=
  !(t.isEnd || t.isOneOf [.closeParen, .closeBracket, .closeBrace, .comma, .semicolon, .colon,
    .assign, .arrow, .dot, .optionalDot])

/-- The unary operator that a token stands for in front of `next`. -/
def unaryOperator? (t next : Token) : Option UnaryOp :=
  match t.lexeme with
  | .punct p => UnaryOp.ofPunct? p
  | .word name => if mayBeOperand next then UnaryOp.words.lookup name else none
  | _ => none

/-- Reads an operand with its chain and a step operator behind it. -/
def stepped (g : Grammar) : Parser Tree := do
  let expr ← chain g true (← primary g)
  let t ← current
  if t.isOneOf [.increment, .decrement] && !t.newlineBefore then
    skip 1
    let op : UnaryOp := if t.is .increment then .increment else .decrement
    return .mk ⟨expr.info.start, t.stop⟩ (.unary op expr false)
  else return expr

/-- Reads a unary expression. -/
def unaryBody (g : Grammar) : Parser Tree := do
  let t ← current
  match unaryOperator? t (← peek 1) with
  | some op =>
      skip 1
      let operand ← g.unary
      close t.start (.unary op operand true)
  | none =>
      if t.is .lt then
        if ← skipAngles then
          let operand ← g.unary
          close t.start (.typeAssertion operand .angle)
        else stepped g
      else stepped g

/-- Reads a unary expression, one level deeper. -/
def unary (g : Grammar) : Parser Tree :=
  nested (unaryBody g)

/-! ## §3. Binary operators. -/

/-- What can stand behind an operand: a binary operator, or the keyword of a
type assertion. -/
inductive Connective where
  | binary (op : BinaryOp)
  | assertion (a : Assertion)

/-- How strongly a connective binds. -/
def Connective.precedence : Connective → Nat
  | .binary op => op.precedence
  | .assertion _ => 8

/-- The connective that a token stands for. -/
def connective? (noIn : Bool) (t : Token) : Option Connective :=
  match t.lexeme with
  | .punct p => (BinaryOp.ofPunct? p).map .binary
  | .word _ =>
      if t.isTheWord "instanceof" then some (.binary .instanceOf)
      else if t.isTheWord "in" then if noIn then none else some (.binary .membership)
      else if t.isTheWord "as" then
        if t.newlineBefore then none else some (.assertion .asType)
      else if t.isTheWord "satisfies" then
        if t.newlineBefore then none else some (.assertion .satisfiesType)
      else none
  | _ => none

/-- Reads the connectives behind `left` that bind at least as strongly as
`minimum`, with their right operands.  The power operator associates to the
right, all others to the left. -/
def binaryRest (g : Grammar) (minimum : Nat) (left : Tree) : Parser Tree :=
  iterate (fun left => do
    let s ← get
    match connective? s.noIn s.current with
    | none => return .finish left
    | some connective =>
        if connective.precedence < minimum then return .finish left
        skip 1
        match connective with
        | .assertion assertion =>
            skipType
            return .again (← close left.info.start (.typeAssertion left assertion))
        | .binary op =>
            let right ← g.binary (if op = .pow then op.precedence else op.precedence + 1)
            return .again (← close left.info.start (.binary op left right))) left

/-- Reads an expression of binary operators that bind at least as strongly as
`minimum`. -/
def binary (g : Grammar) (minimum : Nat) : Parser Tree := do
  binaryRest g minimum (← unary g)

/-! ## §4. Conditionals and assignments. -/

/-- Reads a conditional expression. -/
def conditional (g : Grammar) : Parser Tree := do
  let test ← binary g 0
  if ← accept .question then
    let consequent ← allowingIn g.assignment
    discard (expect .colon)
    let alternate ← g.assignment
    close test.info.start (.conditional test consequent alternate)
  else return test

/-- The assignment operator that a token stands for. -/
def assignOperator? (t : Token) : Option AssignOp :=
  match t.lexeme with
  | .punct p => AssignOp.ofPunct? p
  | _ => none

/-- Reads an expression without commas. -/
def assignmentBody (g : Grammar) : Parser Tree := do
  if Lookahead.arrowAhead (← get).ahead then arrowFunction g
  else
    let target ← conditional g
    match assignOperator? (← current) with
    | some op =>
        skip 1
        let value ← g.assignment
        close target.info.start (.assignment op target value)
    | none => return target

/-- Reads an expression without commas, one level deeper. -/
def assignment (g : Grammar) : Parser Tree :=
  nested (assignmentBody g)

end Parser

end StackLint

/-
  StackLint.Parse.Statement
  ─────────────────────────
  **STATEMENTS.**

  Declarations, control flow, imports and exports.  Declarations of types are
  passed over as a whole.
-/
import StackLint.Parse.Expression

namespace StackLint

namespace Parser

/-! ## §1. Variables and expressions. -/

/-- Reads one declarator of a variable statement. -/
def variableDeclarator (g : Grammar) : Parser Tree := do
  let target ← bindingTarget g
  discard (accept .bang)
  skipAnnotation
  let init ← initializer g
  close target.info.start (.variableDeclarator target init)

/-- Reads a variable statement, with its semicolon unless it heads a loop. -/
def variableStatement (g : Grammar) (keyword : BindingKeyword) (inLoopHead : Bool) :
    Parser Tree := do
  let start := (← advance).start
  let declarations ← iterate (fun read => do
    let read := (← variableDeclarator g) :: read
    if ← accept .comma then return .again read else return .finish read.reverse) []
  unless inLoopHead do discard (accept .semicolon)
  close start (.variableStatement keyword declarations)

/-- Reads an expression as a statement.  Where no expression is, no statement
is either. -/
def expressionStatement (g : Grammar) : Parser Tree := do
  let before ← position
  let expr ← expression g
  if (← position) = before then return expr
  discard (accept .semicolon)
  close expr.info.start (.expressionStatement expr)

/-! ## §2. Types. -/

/-- Reads a group in braces, if one comes next. -/
def skipBraces : Parser Unit := do
  if (← current).is .openBrace then skipGroup

/-- Reads a declaration that has no run-time meaning behind its keyword. -/
def typeBody (g : Grammar) : TypeKeyword → Parser Unit
  | .declare => do
      if ← acceptWord "global" then skipBraces else discard g.statement
  | .type => do
      skip 1
      skipTypeParameters
      discard (expect .assign)
      skipType
  | _ => do
      skipHeading [.openBrace, .semicolon]
      skipBraces

/-- Reads a declaration that has no run-time meaning, from its keyword on. -/
def typeDeclaration (g : Grammar) (keyword : TypeKeyword) (start : Nat) : Parser Tree := do
  skip 1
  typeBody g keyword
  discard (accept .semicolon)
  close start (.typeDeclaration keyword)

/-- The declaration without run-time meaning that begins at the next token. -/
def typeKeyword? (s : ParserState) : Option TypeKeyword :=
  let t := s.current
  let next := s.peek 1
  if next.newlineBefore then none
  else if t.isTheWord "type" then
    if next.isWord && (s.peek 2).isOneOf [.assign, .lt] then some .type else none
  else if t.isTheWord "namespace" then
    if next.isWord || next.isString then some .namespaceWord else none
  else if t.isTheWord "module" then
    if next.isWord || next.isString then some .moduleWord else none
  else if !next.isWord then none
  else if t.isTheWord "interface" then some .interface
  else if t.isTheWord "enum" then some .enum
  else if t.isTheWord "declare" then some .declare
  else none

/-! ## §3. Control flow. -/

/-- Reads an expression in the parentheses that a keyword demands. -/
def controlExpression (g : Grammar) : Parser Tree := do
  discard (expect .openParen)
  let expr ← expression g
  discard (expect .closeParen)
  return expr

/-- Reads the other branch of an `if` statement, if there is one. -/
def elseBranch (g : Grammar) : Parser (Option Tree) := do
  if ← acceptWord "else" then return some (← g.statement) else return none

/-- Reads an `if` statement. -/
def ifStatement (g : Grammar) : Parser Tree := do
  let start := (← advance).start
  let test ← controlExpression g
  let consequent ← g.statement
  let alternate ← elseBranch g
  close start (.ifStatement test consequent alternate)

/-- The keyword of a variable statement at the head of a loop. -/
def loopBinding? (t next : Token) : Option BindingKeyword :=
  if t.isTheWord "var" then some .var
  else if t.isTheWord "const" then some .const
  else if t.isTheWord "let" && next.isWord then some .letWord
  else none

/-- Reads the first part of the head of a `for` loop, if there is one. -/
def forStart (g : Grammar) : Parser (List Tree) := do
  let t ← current
  match loopBinding? t (← peek 1) with
  | some keyword => return [← variableStatement g keyword true]
  | none =>
      if t.is .semicolon then return []
      modify fun s => { s with noIn := true }
      let expr ← expression g
      modify fun s => { s with noIn := false }
      return [expr]

/-- Reads an expression, unless the given punctuator comes next. -/
def expressionBefore (g : Grammar) (stop : Punct) : Parser (List Tree) := do
  if (← current).is stop then return [] else return [← expression g]

/-- Reads the rest of the head of a `for` loop: the range of the loop, or its
test and its step. -/
def forRest (g : Grammar) : Parser (List Tree) := do
  if (← current).isWordIn ["of", "in"] then
    skip 1
    return [← expression g]
  discard (expect .semicolon)
  let test ← expressionBefore g .semicolon
  discard (expect .semicolon)
  let step ← expressionBefore g .closeParen
  return test ++ step

/-- Reads a `for` loop. -/
def forStatement (g : Grammar) : Parser Tree := do
  let start := (← advance).start
  discard (acceptWord "await")
  discard (expect .openParen)
  let first ← forStart g
  let rest ← forRest g
  discard (expect .closeParen)
  let body ← g.statement
  close start (.loopStatement .forWord (first ++ rest) body)

/-- Reads a `while` loop. -/
def whileStatement (g : Grammar) : Parser Tree := do
  let start := (← advance).start
  let test ← controlExpression g
  let body ← g.statement
  close start (.loopStatement .whileWord [test] body)

/-- Reads the test of a `do` loop, if there is one. -/
def doTest (g : Grammar) : Parser (List Tree) := do
  if ← acceptWord "while" then return [← controlExpression g] else return []

/-- Reads a `do` loop. -/
def doStatement (g : Grammar) : Parser Tree := do
  let start := (← advance).start
  let body ← g.statement
  let head ← doTest g
  discard (accept .semicolon)
  close start (.loopStatement .doWord head body)

/-- Reads the expression behind a keyword, if one follows on its line. -/
def optionalArgument (g : Grammar) : Parser (Option Tree) := do
  let t ← current
  if t.newlineBefore || t.isEnd || t.isOneOf [.semicolon, .closeBrace] then return none
  else return some (← expression g)

/-- Reads a `return` statement. -/
def returnStatement (g : Grammar) : Parser Tree := do
  let start := (← advance).start
  let argument ← optionalArgument g
  discard (accept .semicolon)
  close start (.returnStatement argument)

/-- Reads a `throw` statement. -/
def throwStatement (g : Grammar) : Parser Tree := do
  let start := (← advance).start
  let argument ← optionalArgument g
  discard (accept .semicolon)
  close start (.throwStatement argument)

/-- Reads the binding of a `catch` clause with its parentheses, if there is
one. -/
def catchBinding (g : Grammar) : Parser (Option Tree) := do
  if ← accept .openParen then
    let param ← bindingTarget g
    skipAnnotation
    discard (expect .closeParen)
    return some param
  else return none

/-- Reads a `catch` clause, if there is one: its binding and its block. -/
def catchClause (g : Grammar) : Parser (Option Tree × Option Tree) := do
  if ← acceptWord "catch" then
    let param ← catchBinding g
    return (param, some (← block g))
  else return (none, none)

/-- Reads a `finally` clause, if there is one. -/
def finallyClause (g : Grammar) : Parser (Option Tree) := do
  if ← acceptWord "finally" then return some (← block g) else return none

/-- Reads a `try` statement. -/
def tryStatement (g : Grammar) : Parser Tree := do
  let start := (← advance).start
  let guarded ← block g
  let (param, handler) ← catchClause g
  let finalizer ← finallyClause g
  close start (.tryStatement guarded param handler finalizer)

/-- Reads a case of a switch behind its keyword. -/
def switchCase (g : Grammar) (start : Nat) (test : Option Tree) : Parser Tree := do
  discard (expect .colon)
  let body ← statements g (some .closeBrace) ["case", "default"]
  close start (.switchCase test body)

/-- Reads the cases of a switch up to its closing brace.  A token that begins
no case is passed over. -/
def switchCases (g : Grammar) : Parser (List Tree) :=
  iterate (fun cases => do
    let t ← current
    if t.isEnd || t.is .closeBrace then return .finish cases.reverse
    if ← acceptWord "case" then
      let test ← expression g
      return .again ((← switchCase g t.start (some test)) :: cases)
    else if ← acceptWord "default" then
      return .again ((← switchCase g t.start none) :: cases)
    else
      skip 1
      complainAt t.start (.unexpectedToken t.lexeme.value)
      return .again cases) []

/-- Reads a `switch` statement. -/
def switchStatement (g : Grammar) : Parser Tree := do
  let start := (← advance).start
  let discriminant ← controlExpression g
  if ← expect .openBrace then
    let cases ← switchCases g
    discard (expect .closeBrace)
    close start (.switchStatement discriminant cases)
  else close start (.switchStatement discriminant [])

/-- Reads the label behind a keyword, if one follows on its line. -/
def optionalLabel : Parser (Option Text) := do
  let t ← current
  if t.isWord && !t.newlineBefore then
    skip 1
    return some t.lexeme.value
  else return none

/-- Reads a `break` or `continue` statement. -/
def jumpStatement (keyword : JumpKeyword) : Parser Tree := do
  let start := (← advance).start
  let label ← optionalLabel
  discard (accept .semicolon)
  close start (.jumpStatement keyword label)

/-! ## §4. Imports and exports. -/

/-- Reads the clause of an import up to the module it names. -/
def importClause : Parser (Option Tree) :=
  iterate (fun _ => do
    let t ← current
    match t.lexeme with
    | .endOfText => return .finish none
    | .string quote value => return .finish (some (← stringLiteral quote value))
    | _ =>
        if t.is .openBrace then
          skipGroup
          return .again ()
        else if t.isOneOf [.semicolon, .closeParen, .closeBrace] then return .finish none
        else
          skip 1
          return .again ()) ()

/-- Reads the attributes of an import, if there are any. -/
def importAttributes : Parser Unit := do
  if (← current).isWordIn ["with", "assert"] && (← peek 1).is .openBrace then
    skip 1
    skipGroup

/-- Reads an import declaration. -/
def importDeclaration : Parser Tree := do
  let start := (← advance).start
  let source ← importClause
  importAttributes
  discard (accept .semicolon)
  close start (.importDeclaration source)

/-- Whether a declaration follows the words `export default`. -/
def defaultDeclarationAhead (t next : Token) : Bool :=
  t.isWordIn ["function", "class", "abstract"]
    || (t.isTheWord "async" && next.isTheWord "function")

/-- Reads a list of exported names, or a star with its name. -/
def exportedNames : Parser Unit := do
  if (← current).is .openBrace then skipGroup
  else
    skip 1
    if ← acceptWord "as" then skip 1

/-- Reads the module that exported names come from, if there is one. -/
def exportSource : Parser Unit := do
  if ← acceptWord "from" then
    if (← current).isString then skip 1

/-- Reads a list of exported names, or a star, and the module they come
from. -/
def exportClause : Parser Unit := do
  discard (acceptWord "type")
  exportedNames
  exportSource
  discard (accept .semicolon)

/-- Reads what is exported behind the words `export default`. -/
def defaultExport (g : Grammar) : Parser Tree := do
  if defaultDeclarationAhead (← current) (← peek 1) then g.statement
  else
    let expr ← g.assignment
    discard (accept .semicolon)
    return expr

/-- Reads an export declaration. -/
def exportDeclaration (g : Grammar) : Parser Tree := do
  let start := (← advance).start
  if ← acceptWord "default" then
    let declaration ← defaultExport g
    close start (.exportDeclaration (some declaration) true)
  else if (← current).isOneOf [.openBrace, .star]
      || ((← current).isTheWord "type" && (← peek 1).is .openBrace) then
    exportClause
    close start (.exportDeclaration none false)
  else if ← accept .assign then
    let expr ← expression g
    discard (accept .semicolon)
    close start (.exportDeclaration (some expr) true)
  else
    let declaration ← g.statement
    close start (.exportDeclaration (some declaration) false)

/-! ## §5. Statements of all kinds. -/

/-- The parsers of statements that a keyword alone announces. -/
def keywordStatements (g : Grammar) : List (Text × Parser Tree) :=
  [("if", ifStatement g), ("for", forStatement g), ("while", whileStatement g),
   ("do", doStatement g), ("return", returnStatement g), ("throw", throwStatement g),
   ("try", tryStatement g), ("switch", switchStatement g),
   ("break", jumpStatement .breakWord), ("continue", jumpStatement .continueWord),
   ("import", importDeclaration), ("export", exportDeclaration g)]

/-- The keyword of a variable statement that begins at `t`. -/
def bindingKeyword? (t next : Token) : Option BindingKeyword :=
  if t.isTheWord "var" then some .var
  else if t.isTheWord "const" then some .const
  else if t.isTheWord "let" && (next.isWord || next.isOneOf [.openBracket, .openBrace]) then
    some .letWord
  else none

/-- Reads a statement that a keyword announces, a labeled statement, or an
expression. -/
def otherStatement (g : Grammar) (t next : Token) (name : Text) : Parser Tree := do
  if t.isTheWord "import" && next.isOneOf [.openParen, .dot] then expressionStatement g
  else
    match (keywordStatements g).lookup name with
    | some parse => parse
    | none =>
        if next.is .colon then
          skip 2
          g.statement
        else expressionStatement g

/-- Reads a statement that begins with a word. -/
def wordStatement (g : Grammar) (t : Token) (name : Text) : Parser Tree := do
  let next ← peek 1
  match bindingKeyword? t next with
  | some keyword =>
      if keyword = .const && next.isTheWord "enum" then
        skip 1
        typeDeclaration g .enum t.start
      else variableStatement g keyword false
  | none =>
      if t.isTheWord "function"
          || (t.isTheWord "async" && next.isTheWord "function" && !next.newlineBefore) then
        function g true
      else if t.isTheWord "class" || (t.isTheWord "abstract" && next.isTheWord "class") then
        classNode g
      else
        match typeKeyword? (← get) with
        | some keyword => typeDeclaration g keyword t.start
        | none => otherStatement g t next name

/-- Reads a statement. -/
def statementBody (g : Grammar) : Parser Tree := do
  let t ← current
  match t.lexeme with
  | .punct .openBrace => block g
  | .punct .semicolon =>
      skip 1
      return leaf t .emptyStatement
  | .punct .atSign =>
      skipDecorators g
      g.statement
  | .word name => wordStatement g t name
  | _ => expressionStatement g

/-- Reads a statement, one level deeper. -/
def statement (g : Grammar) : Parser Tree :=
  nested (statementBody g)

end Parser

end StackLint

/-
  StackLint.Parse.Function
  ────────────────────────
  **FUNCTIONS.**

  Parameter lists, functions, arrow functions and methods.  Types of
  parameters and results are passed over.
-/
import StackLint.Parse.Access

namespace StackLint

namespace Parser

/-! ## §1. Parameters. -/

/-- Words that stand in front of a parameter of a constructor. -/
def parameterModifiers : List Text :=
  ["public", "private", "protected", "readonly", "override"]

/-- Whether a parameter begins with this token. -/
def beginsBinding (t : Token) : Bool :=
  t.isWord || t.isOneOf [.openBrace, .openBracket]

/-- Reads one parameter. -/
def parameter (g : Grammar) : Parser Tree := do
  skipDecorators g
  skipWhile fun t next => t.isWordIn parameterModifiers && beginsBinding next
  let start := (← current).start
  let rest ← accept .ellipsis
  let target ← g.bindingTarget
  discard (accept .question)
  skipAnnotation
  let default ← initializer g
  close start (.parameter target default rest)

/-- Reads a parameter list with its parentheses, and says what it spans. -/
def parameters (g : Grammar) : Parser (List Tree × Span) := do
  let start := (← current).start
  if ← expect .openParen then
    let params ← iterate (fun params => do
      let t ← current
      if t.isEnd || t.is .closeParen then return .finish params.reverse
      let params := (← parameter g) :: params
      if ← accept .comma then return .again params
      else return .finish params.reverse) []
    discard (expect .closeParen)
    return (params, ⟨start, ← lastStop⟩)
  else return ([], ⟨start, start⟩)

/-! ## §2. Functions. -/

/-- Reads the name of a function, if one comes next. -/
def optionalName : Parser (Option Tree) := do
  if (← current).isWord then return some (← identifier) else return none

/-- Reads a function with its keyword, as a declaration or as an
expression. -/
def function (g : Grammar) (declaration : Bool) : Parser Tree := do
  let start := (← current).start
  let isAsync ← acceptWord "async"
  skip 1
  discard (accept .star)
  let name ← optionalName
  skipTypeParameters
  let (params, span) ← parameters g
  skipAnnotation
  let body ← optionalBlock g
  if body.isNone then discard (accept .semicolon)
  let info : FunctionInfo := ⟨some span, isAsync⟩
  close start
    (if declaration then .functionDeclaration name params body info
      else .functionExpression name params body info)

/-- Reads the parameters of an arrow function: a list, or a lone name. -/
def arrowParameters (g : Grammar) : Parser (List Tree × Option Span) := do
  if (← current).isWord then
    let name ← identifier
    return ([.mk name.info (.parameter name none false)], none)
  else
    skipTypeParameters
    let (params, span) ← parameters g
    skipAnnotation
    return (params, some span)

/-- Reads the body of an arrow function. -/
def arrowBody (g : Grammar) : Parser Tree := do
  if (← current).is .openBrace then block g else g.assignment

/-- Reads an arrow function. -/
def arrowFunction (g : Grammar) : Parser Tree := do
  let start := (← current).start
  let isAsync := (← current).isTheWord "async" && !(← peek 1).is .arrow
  if isAsync then skip 1
  let (params, span) ← arrowParameters g
  discard (expect .arrow)
  let body ← arrowBody g
  close start (.arrowFunction params body ⟨span, isAsync⟩)

/-- Reads a method behind its key. -/
def methodRest (g : Grammar) (start : Nat) (key : Tree) (accessor : Accessor) (isAsync : Bool) :
    Parser Tree := do
  skipTypeParameters
  let (params, span) ← parameters g
  skipAnnotation
  let body ← optionalBlock g
  close start (.methodDeclaration key params body accessor ⟨some span, isAsync⟩)

end Parser

end StackLint

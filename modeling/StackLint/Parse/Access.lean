/-
  StackLint.Parse.Access
  ──────────────────────
  **WHAT FOLLOWS AN OPERAND.**

  Template literals, and the chain behind an operand: property and element
  access, calls, tagged templates, non-null assertions.  Decorators are such
  chains, too, but they leave no trace in the tree.
-/
import StackLint.Parse.Grammar

namespace StackLint

namespace Parser

/-! ## §1. Templates. -/

/-- Reads up to the template text behind a substitution, where it should come
next. -/
def endSubstitution : Parser Unit := do
  unless (← current).continuesTemplate do
    complain .unterminatedSubstitution
    skipWhile fun t _ => !t.continuesTemplate

/-- Reads the substitutions of a template behind its head. -/
def templateSpans (g : Grammar) : Parser (List Tree) :=
  iterate (fun spans => do
    let expr ← expression g
    endSubstitution
    if (← current).isEnd then
      return .finish (.mk ⟨expr.info.start, ← lastStop⟩ (.templateSpan expr []) :: spans).reverse
    let part ← advance
    let spans :=
      .mk ⟨expr.info.start, part.stop⟩ (.templateSpan expr part.lexeme.value) :: spans
    match part.lexeme with
    | .templateTail _ => return .finish spans.reverse
    | _ => return .again spans) []

/-- Reads a template literal. -/
def template (g : Grammar) : Parser Tree := do
  let first ← advance
  match first.lexeme with
  | .templateHead head => close first.start (.templateLiteral head (← templateSpans g))
  | lexeme => return leaf first (.templateLiteral lexeme.value [])

/-! ## §2. Chains. -/

/-- Reads one link behind `expr` that begins with a question mark and a
point. -/
def optionalLink (g : Grammar) (expr : Tree) : Parser Tree := do
  let start := expr.info.start
  skip 1
  if (← current).is .openParen then
    let arguments ← arguments g
    close start (.call expr arguments true)
  else if ← accept .openBracket then
    let index ← expression g
    discard (expect .closeBracket)
    close start (.elementAccess expr index true)
  else
    let name ← propertyName
    close start (.propertyAccess expr name true)

/-- Reads the chain behind an operand, with or without calls and templates
among its links. -/
def chain (g : Grammar) (allowCalls : Bool) (operand : Tree) : Parser Tree :=
  iterate (fun expr => do
    let t ← current
    let start := expr.info.start
    if t.is .dot then
      skip 1
      let name ← propertyName
      return .again (← close start (.propertyAccess expr name false))
    else if t.is .optionalDot && allowCalls then
      return .again (← optionalLink g expr)
    else if t.is .openBracket then
      skip 1
      let index ← expression g
      discard (expect .closeBracket)
      return .again (← close start (.elementAccess expr index false))
    else if t.is .openParen && allowCalls then
      let arguments ← arguments g
      return .again (← close start (.call expr arguments false))
    else if t.opensTemplate && allowCalls then
      let template ← template g
      return .again (.mk ⟨start, template.info.stop⟩ (.taggedTemplate expr template))
    else if t.is .bang && !t.newlineBefore then
      skip 1
      return .again (.mk ⟨start, t.stop⟩ (.typeAssertion expr .nonNull))
    else if t.is .lt then
      -- Type arguments count only in front of arguments or a template.
      match Lookahead.angleWidth? 0 0 (← get).ahead with
      | none => return .finish expr
      | some width =>
          let behind ← peek width
          if behind.is .openParen || behind.opensTemplate then
            skip width
            return .again expr
          else return .finish expr
    else return .finish expr) operand

/-! ## §3. Decorators. -/

/-- Reads the decorators that come next. -/
def skipDecorators (g : Grammar) : Parser Unit :=
  iterate (fun _ => do
    if ← accept .atSign then
      discard (chain g true (← g.primary))
      return .again ()
    else return .finish ()) ()

end Parser

end StackLint

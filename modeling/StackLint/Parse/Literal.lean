/-
  StackLint.Parse.Literal
  ───────────────────────
  **ARRAYS, OBJECTS AND CLASSES.**

  The constructs in brackets and braces.  Arrays and objects are read the same
  way whether they are values or patterns that bind names.
-/
import StackLint.Parse.Function

namespace StackLint

namespace Parser

/-! ## §1. Arrays. -/

/-- Reads an array with its brackets. -/
def arrayLiteral (g : Grammar) : Parser Tree := do
  let start := (← advance).start
  let elements ← iterate (fun elements => do
    let t ← current
    if t.isEnd || t.is .closeBracket then return .finish elements.reverse
    if ← accept .comma then return .again (none :: elements)
    let before ← position
    let item ← element g
    if (← position) = before then return .finish elements.reverse
    unless ← accept .comma do
      unless (← current).is .closeBracket do complain (.expectedSeparator .closeBracket)
    return .again (some item :: elements)) []
  discard (expect .closeBracket)
  close start (.arrayLiteral elements)

/-! ## §2. Objects. -/

/-- Reads the rest of an object member whose key is known. -/
def objectMemberRest (g : Grammar) (start : Nat) (key : Tree) (isAsync : Bool)
    (accessor : Accessor) : Parser Tree := do
  discard (accept .question)
  if (← current).isOneOf [.openParen, .lt] then methodRest g start key accessor isAsync
  else if ← accept .colon then
    let value ← g.assignment
    close start (.propertyAssignment key value)
  else
    match key.form with
    | .identifier _ =>
        let default ← initializer g
        close start (.shorthandProperty key default)
    | _ =>
        complain .expectedColon
        close start (.errorNode .expectedColon)

/-- Reads a member of an object. -/
def objectMember (g : Grammar) : Parser Tree := do
  let start := (← current).start
  if ← accept .ellipsis then close start (.spreadAssignment (← g.assignment))
  else
    let (isAsync, accessor) ← memberModifiers
    match ← propertyKey g with
    | some key => objectMemberRest g start key isAsync accessor
    | none =>
        complain .expectedPropertyName
        close start (.errorNode .expectedPropertyName)

/-- Reads an object with its braces. -/
def objectLiteral (g : Grammar) : Parser Tree := do
  let start := (← advance).start
  let properties ← listOf .closeBrace (objectMember g)
  discard (expect .closeBrace)
  close start (.objectLiteral properties)

/-- Reads what a declaration or a parameter binds: a name or a pattern. -/
def bindingTarget (g : Grammar) : Parser Tree := do
  let t ← current
  if t.is .openBrace then objectLiteral g
  else if t.is .openBracket then arrayLiteral g
  else if t.isWord then identifier
  else
    complain .expectedBindingName
    return missing t .expectedBindingName

/-! ## §3. Classes. -/

/-- Words that stand in front of a member of a class. -/
def memberModifierWords : List Text :=
  ["public", "private", "protected", "static", "readonly", "abstract", "override", "declare",
   "accessor"]

/-- Reads the rest of a class member behind its key. -/
def classMemberRest (g : Grammar) (start : Nat) (key : Tree) (isAsync : Bool)
    (accessor : Accessor) : Parser Tree := do
  discard (acceptOneOf [.question, .bang])
  if (← current).isOneOf [.openParen, .lt] then methodRest g start key accessor isAsync
  else
    skipAnnotation
    let value ← initializer g
    discard (accept .semicolon)
    close start (.propertyDeclaration key value)

/-- Reads a member of a class.  Index signatures and lone semicolons leave no
member behind. -/
def classMember (g : Grammar) : Parser (Option Tree) := do
  if ← accept .semicolon then return none
  skipDecorators g
  let start := (← current).start
  if (← current).isTheWord "static" && (← peek 1).is .openBrace then
    skip 1
    return some (← block g)
  skipWhile fun t next => t.isWordIn memberModifierWords && beginsPropertyKey next
  if (← current).is .openBracket && (← peek 1).isWord && (← peek 2).is .colon then
    skipGroup
    skipAnnotation
    discard (accept .semicolon)
    return none
  let (isAsync, accessor) ← memberModifiers
  match ← propertyKey g with
  | some key => return some (← classMemberRest g start key isAsync accessor)
  | none => return none

/-- Reads the members of a class up to its closing brace.  A token that begins
no member is passed over. -/
def classMembers (g : Grammar) : Parser (List Tree) :=
  iterate (fun members => do
    let t ← current
    if t.isEnd || t.is .closeBrace then return .finish members.reverse
    let before ← position
    let member ← classMember g
    if (← position) = before then
      let t ← advance
      complainAt t.start (.unexpectedToken t.lexeme.value)
      return .again members
    return .again (member.toList ++ members)) []

/-- Reads the name of a class, if it has one. -/
def className : Parser (Option Tree) := do
  let t ← current
  if t.isWord && !t.isWordIn ["extends", "implements"] then return some (← identifier)
  else return none

/-- Reads the class that a class extends, if there is one. -/
def heritage (g : Grammar) : Parser (Option Tree) := do
  if ← acceptWord "extends" then
    let base ← chain g true (← g.primary)
    skipTypeParameters
    return some base
  else return none

/-- Reads a class, declared or as an expression. -/
def classNode (g : Grammar) : Parser Tree := do
  let start := (← current).start
  discard (acceptWord "abstract")
  skip 1
  let name ← className
  skipTypeParameters
  let heritage ← heritage g
  if ← acceptWord "implements" then skipHeading [.openBrace]
  if ← expect .openBrace then
    let members ← classMembers g
    discard (expect .closeBrace)
    close start (.classNode name heritage members)
  else close start (.classNode name heritage [])

end Parser

end StackLint

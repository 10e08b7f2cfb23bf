/-
  StackLint.Match.Expression
  ──────────────────────────
  **READING EXPRESSIONS.**

  What can be told from the shape of an expression alone: the text of a
  literal, the names along a chain of accesses, the name of a property key.
  Parentheses and type assertions around an expression do not matter, except
  where a chain of plain names is asked for.
-/
import StackLint.Tree.Node

namespace StackLint

namespace Node

/-! ## §1. Wrappers. -/

/-- The expression without the parentheses and type assertions around it. -/
def unwrap : Node σ → Node σ
  | .mk _ (.parenthesized inner) => inner.unwrap
  | .mk _ (.typeAssertion inner _) => inner.unwrap
  | n => n

/-- The node is a pair of parentheses or a type assertion. -/
def isWrapper (n : Node σ) : Bool :=
  match n.form with
  | .parenthesized _ | .typeAssertion _ _ => true
  | _ => false

/-! ## §2. Literals and names. -/

/-- The name of an identifier. -/
def identifierName? (n : Node σ) : Option Text :=
  match n.form with
  | .identifier name => some name
  | _ => none

/-- The text of a string literal or of a template without substitutions. -/
def staticString? (n : Node σ) : Option Text :=
  match n.unwrap.form with
  | .stringLiteral value _ => some value
  | .templateLiteral head [] => some head
  | _ => none

/-- The names along a chain `a.b.c` of plain names, the last one first. -/
def memberPathReversed? : Node σ → Option (List Text)
  | .mk _ (.identifier name) => some [name]
  | .mk _ (.propertyAccess object name _) => do
      let last ← name.identifierName?
      let others ← object.memberPathReversed?
      return last :: others
  | _ => none

/-- The names along a chain `a.b.c` of plain names. -/
def memberPath? (n : Node σ) : Option (List Text) :=
  n.memberPathReversed?.map List.reverse

/-- The identifier at the base of a chain of property accesses. -/
def rootIdentifier? : Node σ → Option (Node σ)
  | .mk _ (.parenthesized inner) => inner.rootIdentifier?
  | .mk _ (.typeAssertion inner _) => inner.rootIdentifier?
  | .mk _ (.propertyAccess object _ _) => object.rootIdentifier?
  | .mk info (.identifier name) => some (.mk info (.identifier name))
  | _ => none

/-! ## §3. Properties. -/

/-- The name of a property key, unless it is computed. -/
def keyName? (n : Node σ) : Option Text :=
  match n.form with
  | .identifier name => some name
  | .stringLiteral value _ => some value
  | .numericLiteral raw => some raw
  | _ => none

/-- The members of an object literal. -/
def objectMembers? (n : Node σ) : Option (List (Node σ)) :=
  match n.form with
  | .objectLiteral members => some members
  | _ => none

/-- The node is an object literal. -/
def isObject (n : Node σ) : Bool :=
  n.objectMembers?.isSome

/-- A property with a key and a value: the node and both parts of it. -/
structure Property (σ : Type) where
  node : Node σ
  key : Node σ
  value : Node σ

/-- The property that a member of an object is, if it has a key and a
value. -/
def property? (n : Node σ) : Option (Property σ) :=
  match n.form with
  | .propertyAssignment key value => some ⟨n, key, value⟩
  | _ => none

/-- The properties with a key and a value among the members of an object. -/
def properties (members : List (Node σ)) : List (Property σ) :=
  members.filterMap property?

/-- The first property of an object literal with the given name. -/
def findProperty? (n : Node σ) (name : Text) : Option (Property σ) := do
  let members ← n.unwrap.objectMembers?
  (properties members).find? fun property => property.key.keyName? = some name

end Node

end StackLint

/-
  StackLint.Match.Function
  ────────────────────────
  **FUNCTIONS AND THEIR NAMES.**

  A function goes by its own name, or by the name of the variable or property
  that it is bound to.  Code belongs to the nearest function around it that has
  a name; callbacks without one are looked through.
-/
import StackLint.Match.Expression

namespace StackLint

namespace Node

/-- A function of any kind: its parameters and what it has besides them. -/
def function? (n : Node σ) : Option (List (Node σ) × FunctionInfo) :=
  match n.form with
  | .functionDeclaration _ params _ info => some (params, info)
  | .functionExpression _ params _ info => some (params, info)
  | .arrowFunction params _ info => some (params, info)
  | .methodDeclaration _ params _ _ info => some (params, info)
  | _ => none

/-- The node is a function of any kind. -/
def isFunction (n : Node σ) : Bool :=
  n.function?.isSome

/-- The name that a function expression is bound to, given the nodes around
it, the nearest one first. -/
def boundName? (around : List (Node σ)) : Option Text :=
  match (around.dropWhile isWrapper).head?.map form with
  | some (.variableDeclarator target _) => target.identifierName?
  | some (.propertyAssignment key _) => key.keyName?
  | _ => none

/-- The name that a function goes by, given the nodes around it. -/
def functionName? (n : Node σ) (around : List (Node σ)) : Option Text :=
  match n.form with
  | .methodDeclaration key _ _ _ _ => key.keyName?
  | .functionDeclaration name _ _ _ => name.bind identifierName?
  | .functionExpression (some name) _ _ _ => name.identifierName?
  | .functionExpression none _ _ _ => boundName? around
  | .arrowFunction _ _ _ => boundName? around
  | _ => none

/-- The nearest function with a name among the given nodes, with its name.
The nodes lie around one place, the nearest one first. -/
def enclosingFunction? : List (Node σ) → Option (Text × Node σ)
  | [] => none
  | n :: around =>
      match n.functionName? around with
      | some name => some (name, n)
      | none => enclosingFunction? around

end Node

end StackLint

/-
  StackLint.Tree.Outline
  ──────────────────────
  **TREES AS TABLES.**

  Gives every node of a tree its place in preorder, the root being zero.

  A reflective view of forms: every field with its name.  With numbered nodes
  a tree becomes a table whose rows refer to each other.
-/
import StackLint.Tree.Node

namespace StackLint

/-! ## §1. Actions in the parts of a form. -/

namespace Form

/-- Runs the action in an optional part. -/
def inOption [Monad m] : Option (m α) → m (Option α)
  | none => pure none
  | some action => some <$> action

/-- Runs the actions in a row of parts, from left to right. -/
def inList [Monad m] : List (m α) → m (List α)
  | [] => pure []
  | action :: rest => do
      let a ← action
      let others ← inList rest
      return a :: others

/-- Runs the actions in a row of parts with holes, from left to right. -/
def inHoles [Monad m] : List (Option (m α)) → m (List (Option α))
  | [] => pure []
  | part :: rest => do
      let a ← inOption part
      let others ← inHoles rest
      return a :: others

/-- Runs the actions in an optional argument list, from left to right. -/
def inArguments [Monad m] : Option (List (m α)) → m (Option (List α))
  | none => pure none
  | some actions => some <$> inList actions

/-- Runs the actions in the parts of a form, in the order of `children`. -/
def sequence [Monad m] : Form (m α) → m (Form α)
  | .program ss => do return .program (← inList ss)
  | .block ss => do return .block (← inList ss)
  | .emptyStatement => pure .emptyStatement
  | .expressionStatement e => do return .expressionStatement (← e)
  | .variableStatement k ds => do return .variableStatement k (← inList ds)
  | .variableDeclarator t i => do return .variableDeclarator (← t) (← inOption i)
  | .parameter t d r => do return .parameter (← t) (← inOption d) r
  | .functionDeclaration n ps b i => do return .functionDeclaration (← inOption n) (← inList ps) (← inOption b) i
  | .functionExpression n ps b i => do return .functionExpression (← inOption n) (← inList ps) (← inOption b) i
  | .arrowFunction ps b i => do return .arrowFunction (← inList ps) (← b) i
  | .methodDeclaration k ps b a i => do return .methodDeclaration (← k) (← inList ps) (← inOption b) a i
  | .propertyDeclaration k v => do return .propertyDeclaration (← k) (← inOption v)
  | .classNode n h ms => do return .classNode (← inOption n) (← inOption h) (← inList ms)
  | .typeDeclaration k => pure (.typeDeclaration k)
  | .importDeclaration s => do return .importDeclaration (← inOption s)
  | .exportDeclaration d q => do return .exportDeclaration (← inOption d) q
  | .returnStatement a => do return .returnStatement (← inOption a)
  | .throwStatement a => do return .throwStatement (← inOption a)
  | .ifStatement t c a => do return .ifStatement (← t) (← c) (← inOption a)
  | .loopStatement k h b => do return .loopStatement k (← inList h) (← b)
  | .tryStatement b p h z => do return .tryStatement (← b) (← inOption p) (← inOption h) (← inOption z)
  | .switchCase t ss => do return .switchCase (← inOption t) (← inList ss)
  | .switchStatement d cs => do return .switchStatement (← d) (← inList cs)
  | .jumpStatement k l => pure (.jumpStatement k l)
  | .identifier n => pure (.identifier n)
  | .stringLiteral v q => pure (.stringLiteral v q)
  | .numericLiteral r => pure (.numericLiteral r)
  | .keywordLiteral v => pure (.keywordLiteral v)
  | .regexLiteral r => pure (.regexLiteral r)
  | .templateSpan e l => do return .templateSpan (← e) l
  | .templateLiteral h ss => do return .templateLiteral h (← inList ss)
  | .taggedTemplate g t => do return .taggedTemplate (← g) (← t)
  | .spreadElement a => do return .spreadElement (← a)
  | .arrayLiteral es => do return .arrayLiteral (← inHoles es)
  | .computedPropertyName e => do return .computedPropertyName (← e)
  | .propertyAssignment k v => do return .propertyAssignment (← k) (← v)
  | .shorthandProperty n d => do return .shorthandProperty (← n) (← inOption d)
  | .spreadAssignment a => do return .spreadAssignment (← a)
  | .objectLiteral ps => do return .objectLiteral (← inList ps)
  | .propertyAccess o n q => do return .propertyAccess (← o) (← n) q
  | .elementAccess o i q => do return .elementAccess (← o) (← i) q
  | .call c as q => do return .call (← c) (← inList as) q
  | .newExpression c as => do return .newExpression (← c) (← inArguments as)
  | .unary op e l => do return .unary op (← e) l
  | .binary op l r => do return .binary op (← l) (← r)
  | .assignment op t v => do return .assignment op (← t) (← v)
  | .conditional t c a => do return .conditional (← t) (← c) (← a)
  | .parenthesized e => do return .parenthesized (← e)
  | .typeAssertion e a => do return .typeAssertion (← e) a
  | .errorNode c => pure (.errorNode c)

end Form

/-! ## §2. Numbering. -/

/-- The tree with every node numbered in preorder. -/
def Node.numbered (n : Node σ) : Node (Nat × σ) :=
  let action : StateM Nat (Node (Nat × σ)) := n.fold fun info form => do
    let number ← get
    set (number + 1)
    let form ← form.sequence
    return .mk (number, info) form
  (action.run 0).1

/-! ## §3. Fields. -/

/-- The value of a field. -/
inductive Field (α : Type) where
  | node (part : α)
  | optional (part : Option α)
  | nodes (parts : List α)
  | holes (parts : List (Option α))
  | arguments (parts : Option (List α))
  | text (value : Text)
  | label (value : Option Text)
  | flag (value : Bool)
  | offset (value : Option Nat)

namespace Form

/-- The fields that functions of all kinds share. -/
def functionFields (info : FunctionInfo) : List (String × Field α) :=
  [("params_start", .offset (info.paramsSpan.map Span.start)),
   ("params_end", .offset (info.paramsSpan.map Span.stop)),
   ("is_async", .flag info.isAsync)]

/-- The named fields of a form. -/
def fields : Form α → List (String × Field α)
  | .program ss => [("statements", .nodes ss)]
  | .block ss => [("statements", .nodes ss)]
  | .emptyStatement => []
  | .expressionStatement e => [("expression", .node e)]
  | .variableStatement k ds =>
      [("declaration_kind", .text k.spelling), ("declarations", .nodes ds)]
  | .variableDeclarator t i => [("target", .node t), ("init", .optional i)]
  | .parameter t d r => [("target", .node t), ("default", .optional d), ("rest", .flag r)]
  | .functionDeclaration n ps b i =>
      [("name", .optional n), ("params", .nodes ps), ("body", .optional b)] ++ functionFields i
  | .functionExpression n ps b i =>
      [("name", .optional n), ("params", .nodes ps), ("body", .optional b)] ++ functionFields i
  | .arrowFunction ps b i => [("params", .nodes ps), ("body", .node b)] ++ functionFields i
  | .methodDeclaration k ps b a i =>
      [("key", .node k), ("params", .nodes ps), ("body", .optional b), ("accessor", .text a.spelling)] ++ functionFields i
  | .propertyDeclaration k v => [("key", .node k), ("value", .optional v)]
  | .classNode n h ms =>
      [("name", .optional n), ("heritage", .optional h), ("members", .nodes ms)]
  | .typeDeclaration k => [("keyword", .text k.spelling)]
  | .importDeclaration s => [("module", .optional s)]
  | .exportDeclaration d q => [("declaration", .optional d), ("is_default", .flag q)]
  | .returnStatement a => [("argument", .optional a)]
  | .throwStatement a => [("argument", .optional a)]
  | .ifStatement t c a => [("test", .node t), ("consequent", .node c), ("alternate", .optional a)]
  | .loopStatement k h b => [("keyword", .text k.spelling), ("head", .nodes h), ("body", .node b)]
  | .tryStatement b p h z =>
      [("block", .node b), ("param", .optional p), ("handler", .optional h), ("finalizer", .optional z)]
  | .switchCase t ss => [("test", .optional t), ("statements", .nodes ss)]
  | .switchStatement d cs => [("discriminant", .node d), ("cases", .nodes cs)]
  | .jumpStatement k l => [("keyword", .text k.spelling), ("label", .label l)]
  | .identifier n => [("name", .text n)]
  | .stringLiteral v q => [("value", .text v), ("quote", .text [q.mark])]
  | .numericLiteral r => [("raw", .text r)]
  | .keywordLiteral v => [("value", .text v.spelling)]
  | .regexLiteral r => [("raw", .text r)]
  | .templateSpan e l => [("expression", .node e), ("literal", .text l)]
  | .templateLiteral h ss => [("head", .text h), ("spans", .nodes ss)]
  | .taggedTemplate g t => [("tag", .node g), ("template", .node t)]
  | .spreadElement a => [("argument", .node a)]
  | .arrayLiteral es => [("elements", .holes es)]
  | .computedPropertyName e => [("expression", .node e)]
  | .propertyAssignment k v => [("key", .node k), ("value", .node v)]
  | .shorthandProperty n d => [("name", .node n), ("default", .optional d)]
  | .spreadAssignment a => [("argument", .node a)]
  | .objectLiteral ps => [("properties", .nodes ps)]
  | .propertyAccess o n q => [("object", .node o), ("name", .node n), ("optional", .flag q)]
  | .elementAccess o i q => [("object", .node o), ("index", .node i), ("optional", .flag q)]
  | .call c as q => [("callee", .node c), ("arguments", .nodes as), ("optional", .flag q)]
  | .newExpression c as => [("callee", .node c), ("arguments", .arguments as)]
  | .unary op e l => [("op", .text op.spelling), ("operand", .node e), ("prefix", .flag l)]
  | .binary op l r => [("op", .text op.spelling), ("left", .node l), ("right", .node r)]
  | .assignment op t v => [("op", .text op.spelling), ("target", .node t), ("value", .node v)]
  | .conditional t c a => [("test", .node t), ("consequent", .node c), ("alternate", .node a)]
  | .parenthesized e => [("expression", .node e)]
  | .typeAssertion e a => [("expression", .node e), ("assertion", .text a.spelling)]
  | .errorNode c => [("message", .text c.message)]

end Form

/-- One row of the table of a tree. -/
structure Row where
  node : Node (Nat × Span)
  parent : Option Nat

/-- The rows of a tree in preorder. -/
def Node.rows (tree : Node Span) : List Row :=
  tree.numbered.visits.map fun visit =>
    ⟨visit.node, visit.ancestors.head?.map fun parent => parent.info.1⟩

end StackLint

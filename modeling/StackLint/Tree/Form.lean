/-
  StackLint.Tree.Form
  ───────────────────
  **ONE LAYER OF SYNTAX.**

  A `Form α` is a syntactic construct whose parts are of type `α`: the parts of
  a form of nodes are its child nodes.  The fields that hold parts stand in the
  order of the text, keyword loops and the `while` of a `do` loop apart, and
  `children` lists the parts in the order of the fields.

  Laws: `map` keeps identities and compositions, and commutes with `children`.
-/
import StackLint.Token.Basic
import StackLint.Tree.Complaint
import StackLint.Tree.Operator

namespace StackLint

/-! ## §1. Forms. -/

/-- The half-open range of offsets from `start` to `stop`. -/
structure Span where
  start : Nat
  stop : Nat
  deriving DecidableEq, Repr, Inhabited

/-- What functions of all kinds have besides their parts. -/
structure FunctionInfo where
  /-- The span of the parameter list with its parentheses.  A lone parameter
  of an arrow function needs none. -/
  paramsSpan : Option Span
  isAsync : Bool
  deriving DecidableEq, Repr

/-- A syntactic construct with parts of type `α`. -/
inductive Form (α : Type) where
  | program (statements : List α)
  | block (statements : List α)
  | emptyStatement
  | expressionStatement (expression : α)
  | variableStatement (keyword : BindingKeyword) (declarations : List α)
  | variableDeclarator (target : α) (init : Option α)
  | parameter (target : α) (default : Option α) (rest : Bool)
  | functionDeclaration (name : Option α) (params : List α) (body : Option α) (info : FunctionInfo)
  | functionExpression (name : Option α) (params : List α) (body : Option α) (info : FunctionInfo)
  | arrowFunction (params : List α) (body : α) (info : FunctionInfo)
  | methodDeclaration (key : α) (params : List α) (body : Option α) (accessor : Accessor) (info : FunctionInfo)
  | propertyDeclaration (key : α) (value : Option α)
  /-- A class, declared or as an expression. -/
  | classNode (name : Option α) (heritage : Option α) (members : List α)
  /-- A declaration without run-time meaning, skipped as a whole. -/
  | typeDeclaration (keyword : TypeKeyword)
  | importDeclaration (source : Option α)
  | exportDeclaration (declaration : Option α) (isDefault : Bool)
  | returnStatement (argument : Option α)
  | throwStatement (argument : Option α)
  | ifStatement (test : α) (consequent : α) (alternate : Option α)
  | loopStatement (keyword : LoopKeyword) (head : List α) (body : α)
  | tryStatement (block : α) (param : Option α) (handler : Option α) (finalizer : Option α)
  /-- A case of a switch; the default one has no test. -/
  | switchCase (test : Option α) (statements : List α)
  | switchStatement (discriminant : α) (cases : List α)
  | jumpStatement (keyword : JumpKeyword) (label : Option Text)
  | identifier (name : Text)
  | stringLiteral (value : Text) (quote : Quote)
  | numericLiteral (raw : Text)
  | keywordLiteral (value : ValueKeyword)
  | regexLiteral (raw : Text)
  /-- A substitution and the template text behind it. -/
  | templateSpan (expression : α) (literal : Text)
  | templateLiteral (head : Text) (spans : List α)
  | taggedTemplate (tag : α) (template : α)
  | spreadElement (argument : α)
  /-- An array; nothing stands for a hole. -/
  | arrayLiteral (elements : List (Option α))
  | computedPropertyName (expression : α)
  | propertyAssignment (key : α) (value : α)
  | shorthandProperty (name : α) (default : Option α)
  | spreadAssignment (argument : α)
  | objectLiteral (properties : List α)
  | propertyAccess (object : α) (name : α) (optional : Bool)
  | elementAccess (object : α) (index : α) (optional : Bool)
  | call (callee : α) (arguments : List α) (optional : Bool)
  /-- A constructor call; without parentheses it has no arguments at all. -/
  | newExpression (callee : α) (arguments : Option (List α))
  /-- A unary operator, in front of its operand or behind it. -/
  | unary (op : UnaryOp) (operand : α) (leading : Bool)
  | binary (op : BinaryOp) (left : α) (right : α)
  | assignment (op : AssignOp) (target : α) (value : α)
  | conditional (test : α) (consequent : α) (alternate : α)
  | parenthesized (expression : α)
  | typeAssertion (expression : α) (assertion : Assertion)
  /-- A placeholder for input that makes no sense. -/
  | errorNode (complaint : Complaint)

namespace Form

/-! ## §2. Parts. -/

/-- Replaces every part by its image. -/
def map (f : α → β) : Form α → Form β
  | .program ss => .program (ss.map f)
  | .block ss => .block (ss.map f)
  | .emptyStatement => .emptyStatement
  | .expressionStatement e => .expressionStatement (f e)
  | .variableStatement k ds => .variableStatement k (ds.map f)
  | .variableDeclarator t i => .variableDeclarator (f t) (i.map f)
  | .parameter t d r => .parameter (f t) (d.map f) r
  | .functionDeclaration n ps b i => .functionDeclaration (n.map f) (ps.map f) (b.map f) i
  | .functionExpression n ps b i => .functionExpression (n.map f) (ps.map f) (b.map f) i
  | .arrowFunction ps b i => .arrowFunction (ps.map f) (f b) i
  | .methodDeclaration k ps b a i => .methodDeclaration (f k) (ps.map f) (b.map f) a i
  | .propertyDeclaration k v => .propertyDeclaration (f k) (v.map f)
  | .classNode n h ms => .classNode (n.map f) (h.map f) (ms.map f)
  | .typeDeclaration k => .typeDeclaration k
  | .importDeclaration s => .importDeclaration (s.map f)
  | .exportDeclaration d q => .exportDeclaration (d.map f) q
  | .returnStatement a => .returnStatement (a.map f)
  | .throwStatement a => .throwStatement (a.map f)
  | .ifStatement t c a => .ifStatement (f t) (f c) (a.map f)
  | .loopStatement k h b => .loopStatement k (h.map f) (f b)
  | .tryStatement b p h z => .tryStatement (f b) (p.map f) (h.map f) (z.map f)
  | .switchCase t ss => .switchCase (t.map f) (ss.map f)
  | .switchStatement d cs => .switchStatement (f d) (cs.map f)
  | .jumpStatement k l => .jumpStatement k l
  | .identifier n => .identifier n
  | .stringLiteral v q => .stringLiteral v q
  | .numericLiteral r => .numericLiteral r
  | .keywordLiteral v => .keywordLiteral v
  | .regexLiteral r => .regexLiteral r
  | .templateSpan e l => .templateSpan (f e) l
  | .templateLiteral h ss => .templateLiteral h (ss.map f)
  | .taggedTemplate g t => .taggedTemplate (f g) (f t)
  | .spreadElement a => .spreadElement (f a)
  | .arrayLiteral es => .arrayLiteral (es.map (·.map f))
  | .computedPropertyName e => .computedPropertyName (f e)
  | .propertyAssignment k v => .propertyAssignment (f k) (f v)
  | .shorthandProperty n d => .shorthandProperty (f n) (d.map f)
  | .spreadAssignment a => .spreadAssignment (f a)
  | .objectLiteral ps => .objectLiteral (ps.map f)
  | .propertyAccess o n q => .propertyAccess (f o) (f n) q
  | .elementAccess o i q => .elementAccess (f o) (f i) q
  | .call c as q => .call (f c) (as.map f) q
  | .newExpression c as => .newExpression (f c) (as.map (·.map f))
  | .unary op e l => .unary op (f e) l
  | .binary op l r => .binary op (f l) (f r)
  | .assignment op t v => .assignment op (f t) (f v)
  | .conditional t c a => .conditional (f t) (f c) (f a)
  | .parenthesized e => .parenthesized (f e)
  | .typeAssertion e a => .typeAssertion (f e) a
  | .errorNode c => .errorNode c

/-- The parts in order. -/
def children : Form α → List α
  | .program ss => ss
  | .block ss => ss
  | .emptyStatement => []
  | .expressionStatement e => [e]
  | .variableStatement _ ds => ds
  | .variableDeclarator t i => [t] ++ i.toList
  | .parameter t d _ => [t] ++ d.toList
  | .functionDeclaration n ps b _ => n.toList ++ ps ++ b.toList
  | .functionExpression n ps b _ => n.toList ++ ps ++ b.toList
  | .arrowFunction ps b _ => ps ++ [b]
  | .methodDeclaration k ps b _ _ => [k] ++ ps ++ b.toList
  | .propertyDeclaration k v => [k] ++ v.toList
  | .classNode n h ms => n.toList ++ h.toList ++ ms
  | .typeDeclaration _ => []
  | .importDeclaration s => s.toList
  | .exportDeclaration d _ => d.toList
  | .returnStatement a => a.toList
  | .throwStatement a => a.toList
  | .ifStatement t c a => [t, c] ++ a.toList
  | .loopStatement _ h b => h ++ [b]
  | .tryStatement b p h z => [b] ++ p.toList ++ h.toList ++ z.toList
  | .switchCase t ss => t.toList ++ ss
  | .switchStatement d cs => [d] ++ cs
  | .jumpStatement _ _ => []
  | .identifier _ => []
  | .stringLiteral _ _ => []
  | .numericLiteral _ => []
  | .keywordLiteral _ => []
  | .regexLiteral _ => []
  | .templateSpan e _ => [e]
  | .templateLiteral _ ss => ss
  | .taggedTemplate g t => [g, t]
  | .spreadElement a => [a]
  | .arrayLiteral es => es.filterMap id
  | .computedPropertyName e => [e]
  | .propertyAssignment k v => [k, v]
  | .shorthandProperty n d => [n] ++ d.toList
  | .spreadAssignment a => [a]
  | .objectLiteral ps => ps
  | .propertyAccess o n _ => [o, n]
  | .elementAccess o i _ => [o, i]
  | .call c as _ => [c] ++ as
  | .newExpression c as => [c] ++ as.getD []
  | .unary _ e _ => [e]
  | .binary _ l r => [l, r]
  | .assignment _ t v => [t, v]
  | .conditional t c a => [t, c, a]
  | .parenthesized e => [e]
  | .typeAssertion e _ => [e]
  | .errorNode _ => []

/-- The name of the construct. -/
def kind : Form α → String
  | .program _ => "Program"
  | .block _ => "Block"
  | .emptyStatement => "EmptyStatement"
  | .expressionStatement _ => "ExpressionStatement"
  | .variableStatement _ _ => "VariableStatement"
  | .variableDeclarator _ _ => "VariableDeclarator"
  | .parameter _ _ _ => "Parameter"
  | .functionDeclaration _ _ _ _ => "FunctionDeclaration"
  | .functionExpression _ _ _ _ => "FunctionExpression"
  | .arrowFunction _ _ _ => "ArrowFunction"
  | .methodDeclaration _ _ _ _ _ => "MethodDeclaration"
  | .propertyDeclaration _ _ => "PropertyDeclaration"
  | .classNode _ _ _ => "ClassNode"
  | .typeDeclaration _ => "TypeDeclaration"
  | .importDeclaration _ => "ImportDeclaration"
  | .exportDeclaration _ _ => "ExportDeclaration"
  | .returnStatement _ => "ReturnStatement"
  | .throwStatement _ => "ThrowStatement"
  | .ifStatement _ _ _ => "IfStatement"
  | .loopStatement _ _ _ => "LoopStatement"
  | .tryStatement _ _ _ _ => "TryStatement"
  | .switchCase _ _ => "SwitchCase"
  | .switchStatement _ _ => "SwitchStatement"
  | .jumpStatement _ _ => "JumpStatement"
  | .identifier _ => "Identifier"
  | .stringLiteral _ _ => "StringLiteral"
  | .numericLiteral _ => "NumericLiteral"
  | .keywordLiteral _ => "KeywordLiteral"
  | .regexLiteral _ => "RegexLiteral"
  | .templateSpan _ _ => "TemplateSpan"
  | .templateLiteral _ _ => "TemplateLiteral"
  | .taggedTemplate _ _ => "TaggedTemplate"
  | .spreadElement _ => "SpreadElement"
  | .arrayLiteral _ => "ArrayLiteral"
  | .computedPropertyName _ => "ComputedPropertyName"
  | .propertyAssignment _ _ => "PropertyAssignment"
  | .shorthandProperty _ _ => "ShorthandProperty"
  | .spreadAssignment _ => "SpreadAssignment"
  | .objectLiteral _ => "ObjectLiteral"
  | .propertyAccess _ _ _ => "PropertyAccess"
  | .elementAccess _ _ _ => "ElementAccess"
  | .call _ _ _ => "Call"
  | .newExpression _ _ => "New"
  | .unary _ _ _ => "Unary"
  | .binary _ _ _ => "Binary"
  | .assignment _ _ _ => "Assignment"
  | .conditional _ _ _ => "Conditional"
  | .parenthesized _ => "Parenthesized"
  | .typeAssertion _ _ => "TypeAssertion"
  | .errorNode _ => "ErrorNode"

/-! ## §3. Laws. -/

theorem map_id (form : Form α) : form.map id = form := by
  cases form <;> simp [map]

theorem map_map (f : α → β) (g : β → γ) (form : Form α) :
    (form.map f).map g = form.map (g ∘ f) := by
  cases form with
  | newExpression callee arguments => cases arguments <;> simp [map]
  | _ => simp [map]

theorem children_map (f : α → β) (form : Form α) :
    (form.map f).children = form.children.map f := by
  cases form with
  | newExpression callee arguments => cases arguments <;> simp [map, children]
  | arrayLiteral elements =>
      simp only [map, children, List.filterMap_map, List.map_filterMap]
      rfl
  | _ => simp [map, children, Option.toList_map]

theorem map_congr {f g : α → β} {form : Form α} (h : ∀ a ∈ form.children, f a = g a) :
    form.map f = form.map g := by
  cases form with
  | arrayLiteral elements =>
      simp only [map, arrayLiteral.injEq, List.map_inj_left]
      exact fun o ho => Option.map_congr fun a ha => h a (by simp [children, ← ha, ho])
  | newExpression callee arguments => cases arguments <;> simp_all [map, children]
  | _ => grind [map, children, Option.map_congr, List.map_inj_left]

end Form

end StackLint

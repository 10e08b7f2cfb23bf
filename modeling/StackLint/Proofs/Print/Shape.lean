/-
  StackLint.Proofs.Print.Shape
  ────────────────────────────
  **EXPRESSIONS AS THEY ARE PRINTED.**

  The `shape` of a tree is the tree without the places of its nodes.  A shape is
  printed as the lexemes of its parts in their order, and `Printable` says which
  shapes are printed in such a way that nothing is lost: every part binds as
  strongly as its position demands.

  Two measures say what it takes to read a shape: `levels` counts the levels of
  nesting, `calls` the nested calls.
-/
import StackLint.Parse.Program
import StackLint.Proofs.Token.Written
import StackLint.Proofs.View.Basic

namespace StackLint

/-! ## §1. Shapes. -/

/-- A tree without the places of its nodes. -/
abbrev Shape := Node Unit

/-- What remains of a tree when the places of its nodes are left out. -/
def Node.shape (n : Node σ) : Shape :=
  n.mapInfo fun _ => ()

@[simp] theorem Node.shape_mk (info : σ) (form : Form (Node σ)) :
    (mk info form).shape = mk () (form.map shape) :=
  fold_mk _ info form

/-! ## §2. Printing. -/

/-- The lexeme of an operator between two operands. -/
def BinaryOp.lexeme (op : BinaryOp) : Lexeme :=
  match Punct.all.find? fun p => BinaryOp.ofPunct? p == some op with
  | some p => .punct p
  | none => .word op.spelling

/-- The lexeme of an operator in front of its operand. -/
def UnaryOp.lexeme (op : UnaryOp) : Lexeme :=
  match Punct.all.find? fun p => UnaryOp.ofPunct? p == some op with
  | some p => .punct p
  | none => .word op.spelling

/-- The parts of a list with commas between them. -/
def commas (parts : List (List Lexeme)) : List Lexeme :=
  List.intercalate [.punct .comma] parts

/-- The parts of a list in brackets. -/
def bracketed (opening closing : Punct) (parts : List (List Lexeme)) : List Lexeme :=
  .punct opening :: (commas parts ++ [.punct closing])

/-- How a form is printed whose parts are printed already.  Only the constructs of
expressions without functions, templates, regular expressions and types are printed. -/
def Form.lexemes : Form (List Lexeme) → List Lexeme
  | .identifier name => [.word name]
  | .stringLiteral value quote => [.string quote value]
  | .numericLiteral raw => [.number raw]
  | .propertyAccess object name _ => object ++ .punct .dot :: name
  | .elementAccess object index _ => object ++ bracketed .openBracket .closeBracket [index]
  | .call callee arguments _ => callee ++ bracketed .openParen .closeParen arguments
  | .newExpression callee arguments =>
      .word "new" :: (callee ++ bracketed .openParen .closeParen (arguments.getD []))
  | .arrayLiteral elements => bracketed .openBracket .closeBracket elements.reduceOption
  | .propertyAssignment key value => key ++ .punct .colon :: value
  | .objectLiteral properties => bracketed .openBrace .closeBrace properties
  | .parenthesized inner => bracketed .openParen .closeParen [inner]
  | .unary op operand _ => op.lexeme :: operand
  | .binary op left right => left ++ op.lexeme :: right
  | .conditional test consequent alternate =>
      test ++ .punct .question :: (consequent ++ .punct .colon :: alternate)
  | .assignment op target value => target ++ .punct op.punct :: value
  | _ => []

/-- How an expression is printed. -/
def Node.lexemes (n : Node σ) : List Lexeme :=
  n.fold fun _ form => form.lexemes

@[simp] theorem Node.lexemes_mk (info : σ) (form : Form (Node σ)) :
    (mk info form).lexemes = (form.map lexemes).lexemes :=
  fold_mk _ info form

/-! ## §3. Measures. -/

/-- The greatest number of a list, zero if there is none. -/
def most (ns : List Nat) : Nat :=
  ns.foldr max 0

theorem le_most {ns : List Nat} {n : Nat} (inside : n ∈ ns) : n ≤ most ns := by
  induction ns with
  | nil => cases inside
  | cons m ns ih =>
      rcases List.mem_cons.mp inside with rfl | inside
      · exact Nat.le_max_left _ _
      · exact Nat.le_trans (ih inside) (Nat.le_max_right _ _)

/-- The levels of a form, from those of its parts. -/
def Form.levels : Form Nat → Nat
  | .propertyAccess object _ _ => object
  | .elementAccess object index _ => max object (index + 2)
  | .call callee arguments _ => max callee (most (arguments.map (· + 2)))
  | .newExpression callee arguments =>
      max callee (most ((arguments.getD []).map (· + 2)))
  | .arrayLiteral elements => max 1 (most (elements.reduceOption.map (· + 2)))
  | .propertyAssignment _ value => value
  | .objectLiteral properties => max 1 (most (properties.map (· + 2)))
  | .parenthesized inner => inner + 2
  | .unary _ operand _ => operand + 1
  | .binary _ left right => max left right
  | .conditional test consequent alternate => max test (max consequent alternate + 1)
  | .assignment _ target value => max target (value + 1)
  | _ => 1

/-- **How many levels of nesting an operand opens.**  Every operand opens one, every
operator in front of an operand one more, and what stands in brackets two. -/
def Node.levels (n : Node σ) : Nat :=
  n.fold fun _ form => form.levels

@[simp] theorem Node.levels_mk (info : σ) (form : Form (Node σ)) :
    (mk info form).levels = (form.map levels).levels :=
  fold_mk _ info form

/-- The calls of a form, from those of its parts. -/
def Form.calls : Form (Nat → Nat) → Nat → Nat
  | .propertyAccess object _ _, head => object head
  | .elementAccess object index _, head => max (object head) (index 0 + 1)
  | .call callee arguments _, head => max (callee head) (most (arguments.map (· 0 + 1)))
  | .newExpression callee arguments, head =>
      head + max (callee 1) (most ((arguments.getD []).map (· 0 + 1)))
  | .arrayLiteral elements, head => head + most (elements.reduceOption.map (· 0 + 1))
  | .propertyAssignment _ value, _ => value 0
  | .objectLiteral properties, head => head + most (properties.map (· 0 + 1))
  | .parenthesized inner, head => head + (inner 0 + 1)
  | .unary _ operand _, _ => operand 0 + 1
  | .binary _ left right, _ => max (left 0) (right 0 + 1)
  | .conditional test consequent alternate, _ =>
      max (test 0) (max (consequent 0) (alternate 0) + 1)
  | .assignment _ target value, _ => max (target 0) (value 0 + 1)
  | _, head => head

/-- How many nested calls it takes to read an expression, if `head` of them are made
in front of the operand that its chain begins with. -/
def Node.callsFrom (n : Node σ) : (head : Nat) → Nat :=
  n.fold fun _ form => form.calls

/-- **How many nested calls it takes to read an expression.** -/
def Node.calls (n : Node σ) : Nat :=
  n.callsFrom 0

@[simp] theorem Node.callsFrom_mk (info : σ) (form : Form (Node σ)) :
    (mk info form).callsFrom = (form.map callsFrom).calls :=
  fold_mk _ info form

/-! ## §4. Strength. -/

namespace BinaryOp

/-- How strongly the left operand has to bind. -/
def leftMinimum (op : BinaryOp) : Nat :=
  if op = .pow then op.precedence + 1 else op.precedence

/-- How strongly the right operand has to bind. -/
def rightMinimum (op : BinaryOp) : Nat :=
  if op = .pow then op.precedence else op.precedence + 1

end BinaryOp

/-- How strongly the parts of a form hold together. -/
def Form.strength : Form α → Nat
  | .assignment _ _ _ | .conditional _ _ _ => 0
  | .binary op _ _ => op.precedence
  | .unary _ _ _ => 13
  | _ => 14

/-- How strongly the parts of an expression hold together: what can be the object of
an access has strength 14, an operand of an operator in front of it at least 13, and
the test of a conditional expression at least 1. -/
def Node.strength (n : Node σ) : Nat :=
  n.form.strength

/-- The form of a constructor: a chain without calls. -/
def Form.isConstructor : Form Bool → Bool
  | .propertyAccess object _ _ | .elementAccess object _ _ => object
  | .call _ _ _ => false
  | form => form.strength = 14

/-- Whether an expression can stand behind the word `new`. -/
def Node.isConstructor (n : Node σ) : Bool :=
  n.fold fun _ form => form.isConstructor

@[simp] theorem Node.isConstructor_mk (info : σ) (form : Form (Node σ)) :
    (mk info form).isConstructor = (form.map isConstructor).isConstructor :=
  fold_mk _ info form

/-- Whether a value can be assigned to an expression. -/
def Node.isTarget (n : Node σ) : Bool :=
  match n.form with
  | .identifier _ | .propertyAccess _ _ _ | .elementAccess _ _ _ => true
  | _ => false

/-! ## §5. Printable expressions. -/

/-- The text is a name. -/
def IsName (t : Text) : Prop :=
  ∃ c rest, t = c :: rest ∧ (c = .scalar '$' ∨ (c.isWordCharacter = true ∧ c.isDigit = false))
    ∧ rest.all Scan.isFlag = true

/-- The text is a name that means nothing special to the scanner and the parser. -/
structure IsPlainName (t : Text) : Prop where
  name : IsName t
  plain : ∀ w ∈ reservedWords, t ≠ Text.ofString w

/-- The text is a decimal integer. -/
def IsInteger (t : Text) : Prop :=
  t ≠ [] ∧ ∀ c ∈ t, c ∈ Text.ofString "0123456789"

/-- The operators that are printed in front of their operands. -/
def prefixOperators : List UnaryOp :=
  [.not, .bitNot, .plus, .minus, .typeOf, .void, .delete]

/-- The property of an object literal. -/
def Shape.member (name : Text) (value : Shape) : Shape :=
  .mk () (.propertyAssignment (.mk () (.identifier name)) value)

/-- **The expressions that can be printed**, with the parts that each position
demands. -/
inductive Printable : Shape → Prop where
  | identifier {name : Text} (plain : IsPlainName name) : Printable (.mk () (.identifier name))
  | string {value : Text} (plain : Scan.Plain .double value) :
      Printable (.mk () (.stringLiteral value .double))
  | number {raw : Text} (digits : IsInteger raw) : Printable (.mk () (.numericLiteral raw))
  | property {object : Shape} {name : Text} (ofObject : Printable object)
      (tight : 14 ≤ object.strength) (plain : IsPlainName name) :
      Printable (.mk () (.propertyAccess object (.mk () (.identifier name)) false))
  | element {object index : Shape} (ofObject : Printable object) (tight : 14 ≤ object.strength)
      (ofIndex : Printable index) : Printable (.mk () (.elementAccess object index false))
  | call {callee : Shape} {arguments : List Shape} (ofCallee : Printable callee)
      (tight : 14 ≤ callee.strength) (each : ∀ a ∈ arguments, Printable a) :
      Printable (.mk () (.call callee arguments false))
  | construction {callee : Shape} {arguments : List Shape} (ofCallee : Printable callee)
      (tight : callee.isConstructor = true) (each : ∀ a ∈ arguments, Printable a) :
      Printable (.mk () (.newExpression callee (some arguments)))
  | array {elements : List Shape} (each : ∀ e ∈ elements, Printable e) :
      Printable (.mk () (.arrayLiteral (elements.map some)))
  | object {members : List (Text × Shape)} (plain : ∀ m ∈ members, IsPlainName m.1)
      (each : ∀ m ∈ members, Printable m.2) :
      Printable (.mk () (.objectLiteral (members.map fun m => Shape.member m.1 m.2)))
  | parenthesized {inner : Shape} (ofInner : Printable inner) :
      Printable (.mk () (.parenthesized inner))
  | unary {op : UnaryOp} {operand : Shape} (isPrefix : op ∈ prefixOperators)
      (ofOperand : Printable operand) (tight : 13 ≤ operand.strength) :
      Printable (.mk () (.unary op operand true))
  | binary {op : BinaryOp} {left right : Shape} (notLess : op ≠ .lt) (notComma : op ≠ .comma)
      (ofLeft : Printable left) (leftTight : op.leftMinimum ≤ left.strength)
      (ofRight : Printable right) (rightTight : op.rightMinimum ≤ right.strength) :
      Printable (.mk () (.binary op left right))
  | conditional {test consequent alternate : Shape} (ofTest : Printable test)
      (tight : 1 ≤ test.strength) (ofConsequent : Printable consequent)
      (ofAlternate : Printable alternate) :
      Printable (.mk () (.conditional test consequent alternate))
  | assignment {op : AssignOp} {target value : Shape} (ofTarget : Printable target)
      (isTarget : target.isTarget = true) (ofValue : Printable value) :
      Printable (.mk () (.assignment op target value))

end StackLint

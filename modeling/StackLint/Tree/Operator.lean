/-
  StackLint.Tree.Operator
  ───────────────────────
  **OPERATORS AND KEYWORDS OF THE TREE.**

  The closed vocabularies that syntax nodes draw on: operators with their
  precedence, and the keywords that tell variants of one construct apart.
-/
import StackLint.Token.Punct

namespace StackLint

/-! ## §1. Binary operators. -/

/-- An operator between two expressions. -/
inductive BinaryOp where
  | coalesce | or | and | bitOr | bitXor | bitAnd | eqLoose | neLoose | eqStrict
  | neStrict | lt | gt | le | ge | instanceOf | membership | shl | shr | ushr | add | sub
  | mul | div | mod | pow | comma
  deriving DecidableEq, Repr

namespace BinaryOp

/-- How the operator is written. -/
def spelling : BinaryOp → String
  | .coalesce => "??"
  | .or => "||"
  | .and => "&&"
  | .bitOr => "|"
  | .bitXor => "^"
  | .bitAnd => "&"
  | .eqLoose => "=="
  | .neLoose => "!="
  | .eqStrict => "==="
  | .neStrict => "!=="
  | .lt => "<"
  | .gt => ">"
  | .le => "<="
  | .ge => ">="
  | .instanceOf => "instanceof"
  | .membership => "in"
  | .shl => "<<"
  | .shr => ">>"
  | .ushr => ">>>"
  | .add => "+"
  | .sub => "-"
  | .mul => "*"
  | .div => "/"
  | .mod => "%"
  | .pow => "**"
  | .comma => ","

/-- How strongly the operator binds; the comma binds least. -/
def precedence : BinaryOp → Nat
  | .comma => 0
  | .coalesce => 1
  | .or => 2
  | .and => 3
  | .bitOr => 4
  | .bitXor => 5
  | .bitAnd => 6
  | .eqLoose | .neLoose | .eqStrict | .neStrict => 7
  | .lt | .gt | .le | .ge | .instanceOf | .membership => 8
  | .shl | .shr | .ushr => 9
  | .add | .sub => 10
  | .mul | .div | .mod => 11
  | .pow => 12

/-- The operator that a punctuator stands for between two expressions.  The
comma is left to the rule for expression lists. -/
def ofPunct? : Punct → Option BinaryOp
  | .coalesce => some .coalesce
  | .logicalOr => some .or
  | .logicalAnd => some .and
  | .bar => some .bitOr
  | .caret => some .bitXor
  | .ampersand => some .bitAnd
  | .eqLoose => some .eqLoose
  | .neLoose => some .neLoose
  | .eqStrict => some .eqStrict
  | .neStrict => some .neStrict
  | .lt => some .lt
  | .gt => some .gt
  | .le => some .le
  | .ge => some .ge
  | .shl => some .shl
  | .shr => some .shr
  | .ushr => some .ushr
  | .plus => some .add
  | .minus => some .sub
  | .star => some .mul
  | .slash => some .div
  | .percent => some .mod
  | .pow => some .pow
  | _ => none

end BinaryOp

/-! ## §2. Unary and assignment operators. -/

/-- An operator in front of an expression; the two step operators also stand
behind one. -/
inductive UnaryOp where
  | not | bitNot | plus | minus | increment | decrement
  | typeOf | void | delete | await | yield
  deriving DecidableEq, Repr

namespace UnaryOp

/-- How the operator is written. -/
def spelling : UnaryOp → String
  | .not => "!"
  | .bitNot => "~"
  | .plus => "+"
  | .minus => "-"
  | .increment => "++"
  | .decrement => "--"
  | .typeOf => "typeof"
  | .void => "void"
  | .delete => "delete"
  | .await => "await"
  | .yield => "yield"

/-- The operator that a punctuator stands for in front of an expression. -/
def ofPunct? : Punct → Option UnaryOp
  | .bang => some .not
  | .tilde => some .bitNot
  | .plus => some .plus
  | .minus => some .minus
  | .increment => some .increment
  | .decrement => some .decrement
  | _ => none

/-- The operators that are words. -/
def words : List (Text × UnaryOp) :=
  [("typeof", .typeOf), ("void", .void), ("delete", .delete), ("await", .await),
   ("yield", .yield)]

end UnaryOp

/-- An operator that assigns. -/
inductive AssignOp where
  | assign | add | sub | mul | div | mod | pow | shl | shr | ushr
  | bitAnd | bitOr | bitXor | and | or | coalesce
  deriving DecidableEq, Repr

namespace AssignOp

/-- The operator that a punctuator stands for behind an assignment's target. -/
def ofPunct? : Punct → Option AssignOp
  | .assign => some .assign
  | .addAssign => some .add
  | .subAssign => some .sub
  | .mulAssign => some .mul
  | .divAssign => some .div
  | .modAssign => some .mod
  | .powAssign => some .pow
  | .shlAssign => some .shl
  | .shrAssign => some .shr
  | .ushrAssign => some .ushr
  | .bitAndAssign => some .bitAnd
  | .bitOrAssign => some .bitOr
  | .bitXorAssign => some .bitXor
  | .andAssign => some .and
  | .orAssign => some .or
  | .coalesceAssign => some .coalesce
  | _ => none

/-- The punctuator of an operator. -/
def punct : AssignOp → Punct
  | .assign => .assign
  | .add => .addAssign
  | .sub => .subAssign
  | .mul => .mulAssign
  | .div => .divAssign
  | .mod => .modAssign
  | .pow => .powAssign
  | .shl => .shlAssign
  | .shr => .shrAssign
  | .ushr => .ushrAssign
  | .bitAnd => .bitAndAssign
  | .bitOr => .bitOrAssign
  | .bitXor => .bitXorAssign
  | .and => .andAssign
  | .or => .orAssign
  | .coalesce => .coalesceAssign

/-- How the operator is written. -/
def spelling (op : AssignOp) : String :=
  op.punct.spelling

end AssignOp

/-! ## §3. Assertions and keywords. -/

/-- A way to state the type of an expression. -/
inductive Assertion where
  /-- The form `x as T`. -/
  | asType
  /-- The form `x satisfies T`. -/
  | satisfiesType
  /-- The form `<T>x`. -/
  | angle
  /-- The form `x!`. -/
  | nonNull
  deriving DecidableEq, Repr

/-- The mark of an assertion. -/
def Assertion.spelling : Assertion → String
  | .asType => "as"
  | .satisfiesType => "satisfies"
  | .angle => "<>"
  | .nonNull => "!"

/-- The keyword of a variable statement. -/
inductive BindingKeyword where
  | var | letWord | const
  deriving DecidableEq, Repr

/-- How the keyword is written. -/
def BindingKeyword.spelling : BindingKeyword → String
  | .var => "var"
  | .letWord => "let"
  | .const => "const"

/-- The keyword of a loop. -/
inductive LoopKeyword where
  | forWord | whileWord | doWord
  deriving DecidableEq, Repr

/-- How the keyword is written. -/
def LoopKeyword.spelling : LoopKeyword → String
  | .forWord => "for"
  | .whileWord => "while"
  | .doWord => "do"

/-- The keyword of a jump. -/
inductive JumpKeyword where
  | breakWord | continueWord
  deriving DecidableEq, Repr

/-- How the keyword is written. -/
def JumpKeyword.spelling : JumpKeyword → String
  | .breakWord => "break"
  | .continueWord => "continue"

/-- The keyword of a declaration that has no run-time meaning. -/
inductive TypeKeyword where
  | type | interface | enum | declare | namespaceWord | moduleWord
  deriving DecidableEq, Repr

/-- How the keyword is written. -/
def TypeKeyword.spelling : TypeKeyword → String
  | .type => "type"
  | .interface => "interface"
  | .enum => "enum"
  | .declare => "declare"
  | .namespaceWord => "namespace"
  | .moduleWord => "module"

/-- A keyword that is a value. -/
inductive ValueKeyword where
  | true | false | null | this | super
  deriving DecidableEq, Repr

/-- How the keyword is written. -/
def ValueKeyword.spelling : ValueKeyword → String
  | .true => "true"
  | .false => "false"
  | .null => "null"
  | .this => "this"
  | .super => "super"

/-- All keywords that are values, with their texts. -/
def ValueKeyword.words : List (Text × ValueKeyword) :=
  [("true", .true), ("false", .false), ("null", .null), ("this", .this), ("super", .super)]

/-- What a method is for. -/
inductive Accessor where
  | method | getter | setter
  deriving DecidableEq, Repr

/-- The name of the accessor. -/
def Accessor.spelling : Accessor → String
  | .method => "method"
  | .getter => "get"
  | .setter => "set"

end StackLint

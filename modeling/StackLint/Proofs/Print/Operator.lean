/-
  StackLint.Proofs.Print.Operator
  ───────────────────────────────
  **READING OPERATORS BACK.**

  Whether an operator takes the last part of the expression in front of it is decided
  by the `grip` of the operator and the `reach` of the expression.  One rule for each
  kind of operator reads it back together with its operands.
-/
import StackLint.Proofs.Print.Operand

namespace StackLint

/-! ## §1. Strength of operators. -/

/-- How much the operator that a lexeme stands for draws the operand in front of it: one
more than its precedence, or nothing. -/
def Lexeme.grip (l : Lexeme) : Nat :=
  ((Parser.connective? false ⟨l, 0, 0, false⟩).map (·.precedence + 1)).getD 0

/-- How much an operator behind a form may draw its last part. -/
def Form.reach : Form α → Nat
  | .binary op _ _ => op.rightMinimum
  | _ => 13

/-- How much an operator behind an expression may draw its last part. -/
def Node.reach (n : Node σ) : Nat :=
  n.form.reach

theorem Form.reach_eq (form : Form α) :
    (∃ op left right, form = .binary op left right) ∨ form.reach = 13 := by
  cases form with
  | binary op left right => exact .inl ⟨op, left, right, rfl⟩
  | _ => exact .inr rfl

namespace BinaryOp

variable {op op' : BinaryOp}

theorem precedence_le (op : BinaryOp) : op.precedence ≤ 12 := by
  cases op <;> decide

theorem precedence_lt_of_ne (notPow : op ≠ .pow) : op.precedence < 12 := by
  cases op <;> first | decide | exact absurd rfl notPow

theorem one_le_precedence (op : BinaryOp) (notComma : op ≠ .comma) : 1 ≤ op.precedence := by
  cases op <;> first | decide | exact absurd rfl notComma

theorem precedence_le_leftMinimum (op : BinaryOp) : op.precedence ≤ op.leftMinimum := by
  unfold leftMinimum
  split
  · exact Nat.le_succ _
  · exact Nat.le_refl _

theorem precedence_le_rightMinimum (op : BinaryOp) : op.precedence ≤ op.rightMinimum := by
  unfold rightMinimum
  split
  · exact Nat.le_refl _
  · exact Nat.le_succ _

/-- An operator on the left of another one keeps its right operand. -/
theorem lt_rightMinimum (tight : op.leftMinimum ≤ op'.precedence) :
    op.precedence < op'.rightMinimum := by
  have bound := op'.precedence_le
  unfold leftMinimum at tight
  unfold rightMinimum
  by_cases isPow : op = .pow
  · rw [if_pos isPow, isPow] at tight
    exact absurd (Nat.le_trans tight bound) (by decide)
  · rw [if_neg isPow] at tight
    by_cases isPow' : op' = .pow
    · rw [if_pos isPow', isPow']
      exact precedence_lt_of_ne isPow
    · rw [if_neg isPow']
      exact Nat.lt_succ_of_le tight

/-- What is strong enough on the left of an operator does not lose its last part to it. -/
theorem lt_reach {left : Shape} (tight : op.leftMinimum ≤ left.strength) :
    op.precedence < left.reach := by
  unfold Node.strength at tight
  unfold Node.reach
  rcases left.form.reach_eq with ⟨op', _, _, isBinary⟩ | same
  · rw [isBinary] at tight ⊢
    exact lt_rightMinimum tight
  · rw [same]
    exact Nat.lt_succ_of_le op.precedence_le

/-- What is strong enough on the right of an operator does not lose its last part to one
that this operator does not lose its right operand to. -/
theorem rightMinimum_le_reach {right : Shape} (tight : op.rightMinimum ≤ right.strength) :
    op.rightMinimum ≤ right.reach := by
  unfold Node.strength at tight
  unfold Node.reach
  rcases right.form.reach_eq with ⟨op', _, _, isBinary⟩ | same
  · rw [isBinary] at tight ⊢
    exact Nat.le_trans tight op'.precedence_le_rightMinimum
  · rw [same]
    cases op <;> decide

end BinaryOp

/-! ## §2. Binary operators. -/

namespace Lexeme

theorem grip_of_endsExpression {l : Lexeme} (ends : l.endsExpression = true) : l.grip = 0 := by
  cases l with
  | punct p => cases p <;> first | rfl | cases ends
  | templateTail => rfl
  | _ => cases ends

end Lexeme

namespace BinaryOp

variable {op : BinaryOp}

theorem connective?_lexeme (notComma : op ≠ .comma) (start stop : Nat) (newline : Bool) :
    Parser.connective? false ⟨op.lexeme, start, stop, newline⟩ = some (.binary op) := by
  cases op <;> first | rfl | exact absurd rfl notComma

theorem grip_lexeme (notComma : op ≠ .comma) : op.lexeme.grip = op.precedence + 1 := by
  rw [Lexeme.grip, connective?_lexeme notComma]
  rfl

theorem endsOperand_lexeme (notComma : op ≠ .comma) (notLess : op ≠ .lt) :
    op.lexeme.endsOperand = true := by
  cases op <;> first | rfl | exact absurd rfl notComma | exact absurd rfl notLess

end BinaryOp

namespace AssignOp

theorem endsOperand_punct (op : AssignOp) : (Lexeme.punct op.punct).endsOperand = true := by
  cases op <;> rfl

theorem grip_punct (op : AssignOp) : (Lexeme.punct op.punct).grip = 0 := by
  cases op <;> rfl

theorem punct_ne_question (op : AssignOp) : Lexeme.punct op.punct ≠ .punct .question := by
  cases op <;> decide

end AssignOp

theorem Node.strength_of_isTarget {e : Shape} (isTarget : e.isTarget = true) :
    e.strength = 14 := by
  obtain ⟨info, form⟩ := e
  cases form with
  | identifier | propertyAccess | elementAccess => rfl
  | _ => cases isTarget

namespace Parser

variable {total depth minimum : Nat} {g : Grammar} {rest after : List Lexeme} {tree : Tree}
  {Q : Tree → Prop}

/-- At the beginning of a line a token stands for no more connectives than elsewhere. -/
theorem connective?_sameLine {l : Lexeme} {start stop : Nat} {newline : Bool}
    {connective : Connective} (found : connective? false ⟨l, start, stop, newline⟩ = some connective) :
    connective? false ⟨l, 0, 0, false⟩ = some connective := by
  cases newline with
  | false => exact found
  | true =>
      unfold connective? at found ⊢
      cases l with
      | word name =>
          simp only [Token.isTheWord, Bool.false_eq_true, if_false, if_true] at found ⊢
          -- Only the words of assertions are no connectives there.
          split at found
          · next isInstance => rwa [if_pos isInstance]
          split at found
          · next notInstance isIn => rwa [if_neg notInstance, if_pos isIn]
          split at found
          · cases found
          split at found
          · cases found
          · cases found
      | _ => exact found

/-- No operator takes the operand in front of the lexemes. -/
theorem Consumes.binaryRest_ends (weak : (firstOf rest).grip ≤ minimum) :
    Consumes total depth rest (binaryRest g minimum tree) rest (· = tree) := by
  refine .finish (.bind_get fun s sees => ?_)
  rw [sees.noIn, sees.current.eq]
  have sameGrip : ((connective? false ⟨firstOf rest, 0, 0, false⟩).map (·.precedence + 1)).getD 0
      = (firstOf rest).grip := rfl
  cases found : connective? false
      ⟨firstOf rest, s.current.start, s.current.stop, s.current.newlineBefore⟩ with
  | none => exact .pure ⟨tree, rfl, rfl⟩
  | some connective =>
      rw [connective?_sameLine found, Option.map_some, Option.getD_some] at sameGrip
      have less : connective.precedence < minimum := by omega
      dsimp only
      rw [if_pos less]
      exact .pure ⟨tree, rfl, rfl⟩

/-- **One operator more** with its right operand. -/
theorem Consumes.binaryRest_next {op : BinaryOp} {right : Shape} (notComma : op ≠ .comma)
    (tight : minimum ≤ op.precedence)
    (ofRight : Consumes total depth (right.lexemes ++ rest) (g.binary op.rightMinimum) rest
      (·.shape = right))
    (next : ∀ tree', tree'.shape = .mk () (.binary op tree.shape right) →
      Consumes total depth rest (binaryRest g minimum tree') after Q) :
    Consumes total depth (op.lexeme :: (right.lexemes ++ rest)) (binaryRest g minimum tree) after
      Q := by
  have shorter : rest.length < (op.lexeme :: (right.lexemes ++ rest)).length := by
    rw [List.length_cons, List.length_append]
    omega
  refine .again shorter (.bind_get fun s sees => ?_)
  rw [sees.noIn, sees.current.eq, firstOf_cons, BinaryOp.connective?_lexeme notComma]
  dsimp only
  rw [if_neg (show ¬(Connective.binary op).precedence < minimum from Nat.not_lt_of_le tight)]
  refine .bind_skip (ofRight.bind fun tree' same => .bind_close fun span => .pure ⟨_, rfl, ?_⟩)
  refine next _ ?_
  rw [Node.shape_mk, Form.map, same]

/-! ## §3. Conditionals and assignments. -/

theorem assignOperator?_of_endsExpression {l : Lexeme} (ends : l.endsExpression = true)
    (start stop : Nat) (newline : Bool) : assignOperator? ⟨l, start, stop, newline⟩ = none := by
  cases l with
  | punct p => cases p <;> first | rfl | cases ends
  | templateTail => rfl
  | _ => cases ends

theorem assignOperator?_punct (op : AssignOp) (start stop : Nat) (newline : Bool) :
    assignOperator? ⟨.punct op.punct, start, stop, newline⟩ = some op := by
  cases op <;> rfl

theorem Consumes.conditional_of_binary {P : Tree → Prop} {before : List Lexeme}
    (reads : Consumes total depth before (binary g 0) rest P)
    (noQuestion : firstOf rest ≠ .punct .question) :
    Consumes total depth before (conditional g) rest P :=
  reads.bind fun _ holds => .bind_accept_other noQuestion (.pure holds)

/-- A conditional expression. -/
theorem Consumes.conditional {test consequent alternate : Shape}
    {before branches second : List Lexeme}
    (ofTest : Consumes total depth before (binary g 0) (.punct .question :: branches)
      (·.shape = test))
    (ofConsequent : Consumes total depth branches g.assignment (.punct .colon :: second)
      (·.shape = consequent))
    (ofAlternate : Consumes total depth second g.assignment rest (·.shape = alternate)) :
    Consumes total depth before (conditional g) rest
      (·.shape = .mk () (.conditional test consequent alternate)) := by
  refine ofTest.bind fun tree same => .bind_accept ?_
  refine ofConsequent.allowingIn.bind fun tree' same' => .bind_expect ?_
  refine ofAlternate.bind fun tree'' same'' => .close fun span => ?_
  rw [Node.shape_mk, Form.map, same, same', same'']

/-- An expression that nothing is assigned to. -/
theorem Consumes.assignment_of_conditional {P : Tree → Prop} {before : List Lexeme}
    (shallow : depth < maxNesting)
    (noArrow : NoArrow before)
    (reads : Consumes total (depth + 1) before (Parser.conditional g) rest P)
    (ends : (firstOf rest).endsExpression = true) :
    Consumes total depth before (assignment g) rest P := by
  refine .nested shallow (.bind_get fun s sees => ?_)
  rw [noArrow _ sees.inRow, if_neg Bool.false_ne_true]
  refine reads.bind fun tree holds => .bind_current fun start stop newline => ?_
  rw [assignOperator?_of_endsExpression ends]
  exact .pure holds

/-- A target with the value that is assigned to it. -/
theorem Consumes.assignment {op : AssignOp} {target value : Shape} {before between : List Lexeme}
    (shallow : depth < maxNesting) (noArrow : NoArrow before)
    (ofTarget : Consumes total (depth + 1) before (Parser.conditional g)
      (.punct op.punct :: between) (·.shape = target))
    (ofValue : Consumes total (depth + 1) between g.assignment rest (·.shape = value)) :
    Consumes total depth before (Parser.assignment g) rest
      (·.shape = .mk () (.assignment op target value)) := by
  refine .nested shallow (.bind_get fun s sees => ?_)
  rw [noArrow _ sees.inRow, if_neg Bool.false_ne_true]
  refine ofTarget.bind fun tree same => .bind_current fun start stop newline => ?_
  rw [firstOf_cons, assignOperator?_punct]
  refine .bind_skip (ofValue.bind fun tree' same' => .close fun span => ?_)
  rw [Node.shape_mk, Form.map, same, same']

/-! ## §4. Operators in front of operands. -/

theorem unaryOperator?_of_beginsOperand {l : Lexeme} (begins : l.beginsOperand = true)
    (start stop : Nat) (newline : Bool) (next : Token) :
    unaryOperator? ⟨l, start, stop, newline⟩ next = none := by
  cases l with
  | word name =>
      show (if mayBeOperand next then UnaryOp.words.lookup name else none) = none
      rw [Option.isNone_iff_eq_none.mp begins, ite_self]
  | punct p => cases p <;> first | rfl | cases begins
  | number | string => rfl
  | _ => cases begins

theorem mayBeOperand_of_begins {l : Lexeme} (begins : l.begins = true) (start stop : Nat)
    (newline : Bool) : mayBeOperand ⟨l, start, stop, newline⟩ = true := by
  cases l with
  | punct p => cases p <;> first | rfl | exact absurd begins (by decide)
  | word | number | string => rfl
  | _ => cases begins

theorem unaryOperator?_lexeme {op : UnaryOp} (isPrefix : op ∈ prefixOperators) {next : Token}
    (isOperand : mayBeOperand next = true) (start stop : Nat) (newline : Bool) :
    unaryOperator? ⟨op.lexeme, start, stop, newline⟩ next = some op := by
  cases op with
  | not | bitNot | plus | minus => rfl
  | typeOf | void | delete =>
      show (if mayBeOperand next then _ else none) = _
      rw [isOperand]
      decide
  | increment | decrement | await | yield => exact absurd isPrefix (by decide)

/-- A chain in the place of an operand. -/
theorem Chained.unary {e : Shape} (shallow : depth < maxNesting)
    (chained : Chained total (depth + 1) g true (primary g) e)
    (begins : ∃ l rest, e.lexemes = l :: rest ∧ l.beginsOperand = true)
    (ends : (firstOf rest).endsOperand = true) :
    Consumes total depth (e.lexemes ++ rest) (unary g) rest (·.shape = e) := by
  have whole := chained.whole (.inl ends)
  obtain ⟨l, others, isFirst, begins⟩ := begins
  refine .nested shallow (.bind_current fun start stop newline =>
    .bind_peek fun start' stop' newline' => ?_)
  have isHead : firstOf (e.lexemes ++ rest) = l := by
    rw [isFirst]
    rfl
  have noAngle : l ≠ .punct .lt := by
    rintro rfl
    cases begins
  rw [isHead, unaryOperator?_of_beginsOperand begins]
  dsimp only
  rw [Token.is_eq_false noAngle, if_neg Bool.false_ne_true]
  unfold stepped
  rw [← bind_assoc]
  refine whole.bind fun tree same => .bind_current fun start stop newline => ?_
  have steps : ∀ p ∈ [Punct.increment, .decrement], p ∈ Lexeme.continuations := by decide
  rw [Token.isOneOf_eq_false fun p isStep => Lexeme.ne_of_endsOperand ends (steps p isStep),
    Bool.false_and, if_neg Bool.false_ne_true]
  exact .pure same

/-- An operator with its operand. -/
theorem Consumes.unary {op : UnaryOp} {operand : Shape} (isPrefix : op ∈ prefixOperators)
    (shallow : depth < maxNesting) (phrase : Phrase operand.lexemes)
    (ofOperand : Consumes total (depth + 1) (operand.lexemes ++ rest) g.unary rest
      (·.shape = operand)) :
    Consumes total depth (op.lexeme :: (operand.lexemes ++ rest)) (Parser.unary g) rest
      (·.shape = .mk () (.unary op operand true)) := by
  refine .nested shallow (.bind_current fun start stop newline =>
    .bind_peek fun start' stop' newline' => ?_)
  have second : (op.lexeme :: (operand.lexemes ++ rest))[1]?.getD .endOfText
      = firstOf (operand.lexemes ++ rest) := by
    rw [List.getElem?_cons_succ, ← List.head?_eq_getElem?, firstOf]
  have isOperand := mayBeOperand_of_begins (phrase.firstOf_begins rest) start' stop' newline'
  rw [second, firstOf_cons, unaryOperator?_lexeme isPrefix isOperand]
  refine .bind_skip (ofOperand.bind fun tree same => .close fun span => ?_)
  rw [Node.shape_mk, Form.map, same]

end Parser

end StackLint

/-
  StackLint.Proofs.Print.Legible
  ──────────────────────────────
  **EVERY PRINTED EXPRESSION IS READ BACK.**

  An expression stands in one of four positions: at the head of a chain, as an
  operand, as a term between operators, or as a value with something that ends it
  behind it.  It is `Legible` if it is read back in every position that its strength
  allows, wherever there is room for it.
-/
import StackLint.Proofs.Print.Operator

namespace StackLint

/-- Every expression takes a level. -/
theorem Printable.one_le_levels {e : Shape} (printable : Printable e) : 1 ≤ e.levels := by
  induction printable with
  | identifier | string | number =>
      rw [Node.levels_mk]
      exact Nat.le_refl _
  | array | object =>
      rw [Node.levels_mk]
      exact Nat.le_max_left _ _
  | parenthesized | unary =>
      rw [Node.levels_mk]
      exact Nat.succ_le_succ (Nat.zero_le _)
  | property _ _ _ first =>
      rw [Node.levels_mk]
      exact first
  | element _ _ _ first | call _ _ _ first | construction _ _ _ first
  | binary _ _ _ _ _ _ first | conditional _ _ _ _ first | assignment _ _ _ first =>
      rw [Node.levels_mk]
      exact Nat.le_trans first (Nat.le_max_left _ _)

namespace Parser

/-! ## §1. Positions. -/

/-- There is room for an expression below the nesting limit and in the budget. -/
structure Fits (depth budget : Nat) (e : Shape) : Prop where
  calls : e.calls ≤ budget
  levels : depth + e.levels ≤ maxNesting

/-- Whether an expression can be the first part of a chain, possibly behind `new`. -/
def canHead (e : Shape) : (behindNew : Bool) → Bool
  | false => 14 ≤ e.strength
  | true => e.isConstructor

/-- The parser of the first part of a chain. -/
def headParser (g : Grammar) : (behindNew : Bool) → Parser Tree
  | false => primary g
  | true => newOperand g

/-- The expression is read back at the head of a chain. -/
def AsHead (e : Shape) : Prop :=
  ∀ total depth budget behindNew, canHead e behindNew = true →
    e.callsFrom behindNew.toNat ≤ budget → depth + e.levels ≤ maxNesting + 1 →
    Chained total depth (.ofBudget budget) (!behindNew) (headParser (.ofBudget budget) behindNew) e

/-- The expression is read back as an operand. -/
def AsOperand (e : Shape) : Prop :=
  ∀ total depth budget rest, Fits depth budget e → 13 ≤ e.strength →
    (firstOf rest).endsOperand = true →
    Consumes total depth (e.lexemes ++ rest) (unary (.ofBudget budget)) rest (·.shape = e)

/-- The expression is read back in front of an operator. -/
def AsTerm (e : Shape) : Prop :=
  ∀ total depth budget minimum rest after (Q : Tree → Prop), Fits depth budget e →
    1 ≤ e.strength → minimum ≤ e.strength →
    (firstOf rest).endsOperand = true → (firstOf rest).grip ≤ e.reach →
    (∀ tree, tree.shape = e →
      Consumes total depth rest (binaryRest (.ofBudget budget) minimum tree) after Q) →
    Consumes total depth (e.lexemes ++ rest) (binary (.ofBudget budget) minimum) after Q

/-- The expression is read back in front of what ends it. -/
def AsValue (e : Shape) : Prop :=
  ∀ total depth budget, Fits (depth + 1) budget e →
    ReadsBack total depth (assignment (.ofBudget budget)) e

/-- **The expression is read back in every position.** -/
structure Legible (e : Shape) : Prop where
  asHead : AsHead e
  asOperand : AsOperand e
  asTerm : AsTerm e
  asValue : AsValue e

/-! ## §2. From one position to the next. -/

theorem AsHead.asOperand {e : Shape} (printable : Printable e) (strong : 14 ≤ e.strength)
    (asHead : AsHead e) : AsOperand e := by
  intro total depth budget rest fits _ ends
  have levels := fits.levels
  have positive := printable.one_le_levels
  have shallow : depth < maxNesting := by omega
  have room : depth + 1 + e.levels ≤ maxNesting + 1 := by omega
  have chained := asHead total (depth + 1) budget false (decide_eq_true strong) fits.calls room
  exact chained.unary shallow (printable.beginsOperand strong) ends

theorem AsOperand.asTerm {e : Shape} (strong : 13 ≤ e.strength) (asOperand : AsOperand e) :
    AsTerm e := by
  intro total depth budget minimum rest after Q fits _ _ ends _ next
  exact (asOperand total depth budget rest fits strong ends).bind next

/-- An expression of operators, read as a whole. -/
theorem AsTerm.whole {e : Shape} {total depth budget minimum : Nat} {rest : List Lexeme}
    (asTerm : AsTerm e) (fits : Fits depth budget e) (positive : 1 ≤ e.strength)
    (tight : minimum ≤ e.strength) (ends : (firstOf rest).endsOperand = true)
    (reach : (firstOf rest).grip ≤ e.reach) (weak : (firstOf rest).grip ≤ minimum) :
    Consumes total depth (e.lexemes ++ rest) (binary (.ofBudget budget) minimum) rest
      (·.shape = e) := by
  refine asTerm total depth budget minimum rest rest _ fits positive tight ends reach
    fun tree same => (Consumes.binaryRest_ends weak).mono ?_
  rintro _ rfl
  exact same

theorem AsTerm.asValue {e : Shape} (printable : Printable e) (positive : 1 ≤ e.strength)
    (asTerm : AsTerm e) : AsValue e := by
  intro total depth budget fits rest ends frees
  have levels := fits.levels
  have shallow : depth < maxNesting := by omega
  have noGrip := Lexeme.grip_of_endsExpression ends
  have reads : Consumes total (depth + 1) (e.lexemes ++ rest) (binary (.ofBudget budget) 0) rest
      (·.shape = e) :=
    asTerm.whole fits positive (Nat.zero_le _) (Lexeme.endsOperand_of_endsExpression ends)
      (by omega) (by omega)
  have noQuestion := Lexeme.ne_question_of_endsExpression ends
  exact .assignment_of_conditional shallow (printable.noArrow_of_ends ends frees)
    (.conditional_of_binary reads noQuestion) ends

theorem strength_of_isConstructor {e : Shape} (constructor : e.isConstructor = true) :
    e.strength = 14 := by
  obtain ⟨info, form⟩ := e
  rw [Node.isConstructor_mk] at constructor
  cases form with
  | propertyAccess | elementAccess => rfl
  | call => cases constructor
  | _ => exact of_decide_eq_true constructor

/-- What is too weak is no head of a chain. -/
theorem AsHead.of_weak {e : Shape} (weak : e.strength < 14) : AsHead e := by
  intro total depth budget behindNew isHead
  cases behindNew with
  | false => exact absurd (of_decide_eq_true isHead) (Nat.not_le_of_lt weak)
  | true => exact absurd (strength_of_isConstructor isHead) (Nat.ne_of_lt weak)

theorem AsOperand.of_weak {e : Shape} (weak : e.strength < 13) : AsOperand e :=
  fun _ _ _ _ _ strong => absurd strong (Nat.not_le_of_lt weak)

theorem AsTerm.of_weak {e : Shape} (weak : e.strength < 1) : AsTerm e :=
  fun _ _ _ _ _ _ _ _ positive => absurd positive (Nat.not_le_of_lt weak)

namespace Legible

variable {e : Shape}

theorem of_head (printable : Printable e) (strong : e.strength = 14) (asHead : AsHead e) :
    Legible e :=
  have asOperand := asHead.asOperand printable (Nat.le_of_eq strong.symm)
  have asTerm := asOperand.asTerm (by omega)
  ⟨asHead, asOperand, asTerm, asTerm.asValue printable (by omega)⟩

theorem of_operand (printable : Printable e) (isOperand : e.strength = 13)
    (asOperand : AsOperand e) : Legible e :=
  have asTerm := asOperand.asTerm (Nat.le_of_eq isOperand.symm)
  ⟨.of_weak (by omega), asOperand, asTerm, asTerm.asValue printable (by omega)⟩

theorem of_term (printable : Printable e) (positive : 1 ≤ e.strength) (weak : e.strength < 13)
    (asTerm : AsTerm e) : Legible e :=
  ⟨.of_weak (Nat.lt_succ_of_lt weak), .of_weak weak, asTerm, asTerm.asValue printable positive⟩

theorem of_value (weak : e.strength = 0) (asValue : AsValue e) : Legible e :=
  ⟨.of_weak (by omega), .of_weak (by omega), .of_weak (by omega), asValue⟩

end Legible

/-- A nested call leaves one call less of the budget. -/
theorem exists_fewer {calls budget : Nat} (covered : calls + 1 ≤ budget) :
    ∃ fewer, budget = fewer + 1 ∧ calls ≤ fewer := by
  cases budget with
  | zero => cases covered
  | succ fewer => exact ⟨fewer, rfl, Nat.le_of_succ_le_succ covered⟩

/-- Parts that lie one nested call deeper. -/
theorem AsValue.deeper {e : Shape} {total depth budget : Nat} (asValue : AsValue e)
    (calls : e.calls + 1 ≤ budget) (levels : depth + (e.levels + 2) ≤ maxNesting + 1) :
    ReadsBack total depth (Grammar.ofBudget budget).assignment e := by
  obtain ⟨fewer, rfl, covered⟩ := exists_fewer calls
  exact asValue total depth fewer ⟨covered, by omega⟩

/-- The items of a list that there is room for. -/
theorem items_of_legible {es : List Shape} {total depth budget : Nat}
    (printable : ∀ e ∈ es, Printable e) (legible : ∀ e ∈ es, Legible e)
    (calls : most (es.map (·.calls + 1)) ≤ budget)
    (levels : depth + most (es.map (·.levels + 2)) ≤ maxNesting + 1) :
    Items total depth (.ofBudget budget) es where
  phrases := fun e inside => (printable e inside).phrase
  reads := by
    intro e inside
    have itsCalls := le_most (List.mem_map_of_mem (f := fun e => e.calls + 1) inside)
    have itsLevels := le_most (List.mem_map_of_mem (f := fun e => e.levels + 2) inside)
    exact (legible e inside).asValue.deeper (by omega) (by omega)

/-! ## §3. Heads of chains. -/

section Heads

variable {total depth budget : Nat} {behindNew : Bool}

/-- What is read by `primary` as a whole. -/
theorem AsHead.of_atom {e : Shape}
    (noNew : ∀ rest, firstOf (e.lexemes ++ rest) ≠ .word "new")
    (steps : e.callsFrom 1 = e.callsFrom 0 + 1)
    (whole : ∀ total depth budget rest, e.calls ≤ budget →
      depth + e.levels ≤ maxNesting + 1 →
      Consumes total depth (e.lexemes ++ rest) (primary (.ofBudget budget)) rest (·.shape = e)) :
    AsHead e := by
  intro total depth budget behindNew _ calls levels
  refine .of_consumes fun rest => ?_
  cases behindNew with
  | false => exact whole total depth budget rest calls levels
  | true =>
      -- Behind `new` the operand lies one call deeper.
      rw [Bool.toNat_true, steps] at calls
      obtain ⟨fewer, rfl, covered⟩ := exists_fewer calls
      exact .newOperand (noNew rest) (whole total depth fewer rest covered levels)

theorem AsHead.identifier {name : Text} (plain : IsPlainName name) :
    AsHead (.mk () (.identifier name)) := by
  refine .of_atom ?_ ?_ fun _ _ _ _ _ _ => .name plain
  · intro rest same
    rw [Node.lexemes_mk] at same
    injection same with same
    exact plain.plain "new" (by decide) same
  · simp only [Node.callsFrom_mk, Form.map, Form.calls]

/-- What is a single lexeme, and not the word `new`. -/
theorem AsHead.literal {e : Shape} {l : Lexeme} (single : e.lexemes = [l])
    (noWord : l ≠ .word "new") (steps : e.callsFrom 1 = e.callsFrom 0 + 1)
    (reads : ∀ total depth g rest,
      Consumes total depth (l :: rest) (primary g) rest (·.shape = e)) : AsHead e := by
  refine .of_atom ?_ steps fun total depth budget rest _ _ => ?_
  · intro rest
    rw [single]
    exact noWord
  · rw [single]
    exact reads total depth _ rest

theorem AsHead.string {value : Text} : AsHead (.mk () (.stringLiteral value .double)) := by
  refine .literal (Node.lexemes_mk _ _) (by rintro ⟨⟩) ?_ fun _ _ _ _ => ?_
  · simp only [Node.callsFrom_mk, Form.map, Form.calls]
  · exact .bind_current fun _ _ _ => .bind_advance fun _ _ _ => .pure (Node.shape_mk _ _)

theorem AsHead.number {raw : Text} : AsHead (.mk () (.numericLiteral raw)) := by
  refine .literal (Node.lexemes_mk _ _) (by rintro ⟨⟩) ?_ fun _ _ _ _ => ?_
  · simp only [Node.callsFrom_mk, Form.map, Form.calls]
  · exact .bind_current fun _ _ _ => .bind_advance fun _ _ _ => .pure (Node.shape_mk _ _)

theorem AsHead.parenthesized {inner : Shape} (legible : Legible inner) :
    AsHead (.mk () (.parenthesized inner)) := by
  refine .of_atom ?_ ?_ fun total depth budget rest calls levels => ?_
  · intro rest
    rw [Node.lexemes_mk]
    rintro ⟨⟩
  · simp only [Node.callsFrom_mk, Form.map, Form.calls]
    omega
  · simp only [Node.calls, Node.callsFrom_mk, Form.map, Form.calls, Nat.zero_add] at calls
    simp only [Node.levels_mk, Form.map, Form.levels] at levels
    have reads :
        Consumes total depth ((Node.mk () (.parenthesized inner)).lexemes ++ rest) _ rest _ :=
      (legible.asValue.deeper calls levels).parenthesized
    rw [Node.lexemes_mk] at reads ⊢
    exact .bind_current fun _ _ _ => reads

theorem AsHead.array {es : List Shape} (printable : ∀ e ∈ es, Printable e)
    (legible : ∀ e ∈ es, Legible e) : AsHead (.mk () (.arrayLiteral (es.map some))) := by
  refine .of_atom ?_ ?_ fun total depth budget rest calls levels => ?_
  · intro rest
    rw [Node.lexemes_mk]
    rintro ⟨⟩
  · simp only [Node.callsFrom_mk, Form.map, Form.calls]
    omega
  · simp only [Node.calls, Node.callsFrom_mk, Form.map, Form.calls, Nat.zero_add,
      reduceOption_map_some] at calls
    simp only [Node.levels_mk, Form.map, Form.levels, reduceOption_map_some] at levels
    rw [List.map_map] at calls levels
    have items : Items total depth (.ofBudget budget) es :=
      items_of_legible printable legible calls
        (Nat.le_trans (Nat.add_le_add_left (Nat.le_max_right _ _) _) levels)
    simp only [Node.lexemes_mk, Form.map, Form.lexemes, reduceOption_map_some]
    exact .bind_current fun _ _ _ => items.array

theorem AsHead.object {members : List (Text × Shape)} (legible : ∀ m ∈ members, Legible m.2)
    (phrases : ∀ m ∈ members, Phrase (Shape.member m.1 m.2).lexemes) :
    AsHead (.mk () (.objectLiteral (members.map fun m => Shape.member m.1 m.2))) := by
  refine .of_atom ?_ ?_ fun total depth budget rest calls levels => ?_
  · intro rest
    rw [Node.lexemes_mk]
    rintro ⟨⟩
  · simp only [Node.callsFrom_mk, Form.map, Form.calls]
    omega
  · simp only [Node.calls, Node.callsFrom_mk, Form.map, Form.calls, Nat.zero_add,
      List.map_map] at calls
    simp only [Node.levels_mk, Form.map, Form.levels, List.map_map] at levels
    simp only [Node.lexemes_mk, Form.map, Form.lexemes]
    refine .bind_current fun _ _ _ => .object phrases fun m inside => ?_
    refine (legible m inside).asValue.deeper ?_ ?_
    · refine Nat.le_trans (le_most ?_) calls
      refine List.mem_map.mpr ⟨m, inside, ?_⟩
      show (Shape.member m.1 m.2).callsFrom 0 + 1 = _
      rw [Shape.member, Node.callsFrom_mk]
      rfl
    · refine Nat.le_trans (Nat.add_le_add_left (Nat.le_trans (le_most ?_) (Nat.le_max_right _ _)) _)
        levels
      refine List.mem_map.mpr ⟨m, inside, ?_⟩
      show (Shape.member m.1 m.2).levels + 2 = _
      rw [Shape.member, Node.levels_mk]
      rfl

/-- A constructor call behind its keyword. -/
theorem AsHead.newExpression {callee : Shape} {es : List Shape} {rest : List Lexeme}
    (ofCallee : Printable callee) (tight : callee.isConstructor = true) (asHead : AsHead callee)
    (printable : ∀ e ∈ es, Printable e) (legible : ∀ e ∈ es, Legible e)
    (calls : max (callee.callsFrom 1) (most (es.map (·.calls + 1))) ≤ budget)
    (levels : depth + max callee.levels (most (es.map (·.levels + 2))) ≤ maxNesting + 1) :
    Consumes total depth ((Node.mk () (.newExpression callee (some es))).lexemes ++ rest)
      (newExpression (.ofBudget budget)) rest
      (·.shape = .mk () (.newExpression callee (some es))) := by
  have items : Items total depth (.ofBudget budget) es :=
    items_of_legible printable legible (Nat.le_trans (Nat.le_max_right _ _) calls)
      (Nat.le_trans (Nat.add_le_add_left (Nat.le_max_right _ _) _) levels)
  refine .newExpression (asHead total depth budget true tight ?_ ?_)
    (ofCallee.beginsOperand (Nat.le_of_eq (strength_of_isConstructor tight).symm)) items
  · exact Nat.le_trans (Nat.le_max_left _ _) calls
  · exact Nat.le_trans (Nat.add_le_add_left (Nat.le_max_left _ _) _) levels

theorem AsHead.construction {callee : Shape} {es : List Shape} (ofCallee : Printable callee)
    (tight : callee.isConstructor = true) (asHead : AsHead callee)
    (printable : ∀ e ∈ es, Printable e) (legible : ∀ e ∈ es, Legible e) :
    AsHead (.mk () (.newExpression callee (some es))) := by
  intro total depth budget behindNew _ calls levels
  simp only [Node.callsFrom_mk, Form.map, Form.calls, Option.map_some, Option.getD_some,
    List.map_map] at calls
  simp only [Node.levels_mk, Form.map, Form.levels, Option.map_some, Option.getD_some,
    List.map_map] at levels
  refine .of_consumes fun rest => ?_
  cases behindNew with
  | false =>
      rw [Bool.toNat_false, Nat.zero_add] at calls
      have reads : Consumes total depth
          ((Node.mk () (.newExpression callee (some es))).lexemes ++ rest)
          (Parser.newExpression (.ofBudget budget)) rest _ :=
        AsHead.newExpression ofCallee tight asHead printable legible calls levels
      rw [Node.lexemes_mk] at reads ⊢
      exact .construction reads
  | true =>
      rw [Bool.toNat_true, Nat.add_comm] at calls
      obtain ⟨fewer, rfl, covered⟩ := exists_fewer calls
      have reads : Consumes total depth
          ((Node.mk () (.newExpression callee (some es))).lexemes ++ rest)
          (Parser.newExpression (.ofBudget fewer)) rest _ :=
        AsHead.newExpression ofCallee tight asHead printable legible covered levels
      rw [Node.lexemes_mk] at reads ⊢
      exact .newOperand_new reads

/-- An access can stand where its object can. -/
theorem canHead_of_link {e object : Shape} (tight : 14 ≤ object.strength)
    (sameConstructor : e.isConstructor = object.isConstructor)
    (isHead : canHead e behindNew = true) : canHead object behindNew = true := by
  cases behindNew with
  | false => exact decide_eq_true tight
  | true =>
      rw [canHead, sameConstructor] at isHead
      exact isHead

theorem AsHead.property {object : Shape} {name : Text} (tight : 14 ≤ object.strength)
    (asHead : AsHead object) :
    AsHead (.mk () (.propertyAccess object (.mk () (.identifier name)) false)) := by
  intro total depth budget behindNew isHead calls levels
  simp only [Node.callsFrom_mk, Form.map, Form.calls] at calls
  simp only [Node.levels_mk, Form.map, Form.levels] at levels
  have sameConstructor : (Node.mk () (.propertyAccess object (.mk () (.identifier name)) false) :
      Shape).isConstructor = object.isConstructor := Node.isConstructor_mk _ _
  exact (asHead total depth budget behindNew (canHead_of_link tight sameConstructor isHead)
    calls levels).property

theorem AsHead.element {object index : Shape} (tight : 14 ≤ object.strength)
    (asHead : AsHead object) (legible : Legible index) :
    AsHead (.mk () (.elementAccess object index false)) := by
  intro total depth budget behindNew isHead calls levels
  simp only [Node.callsFrom_mk, Form.map, Form.calls] at calls
  simp only [Node.levels_mk, Form.map, Form.levels] at levels
  have sameConstructor : (Node.mk () (.elementAccess object index false) :
      Shape).isConstructor = object.isConstructor := Node.isConstructor_mk _ _
  refine (asHead total depth budget behindNew (canHead_of_link tight sameConstructor isHead)
    (by omega) (by omega)).element ?_
  exact legible.asValue.deeper (by rw [Node.calls]; omega) (by omega)

theorem AsHead.call {callee : Shape} {es : List Shape} (tight : 14 ≤ callee.strength)
    (asHead : AsHead callee) (printable : ∀ e ∈ es, Printable e)
    (legible : ∀ e ∈ es, Legible e) : AsHead (.mk () (.call callee es false)) := by
  intro total depth budget behindNew isHead calls levels
  simp only [Node.callsFrom_mk, Form.map, Form.calls, List.map_map] at calls
  simp only [Node.levels_mk, Form.map, Form.levels, List.map_map] at levels
  cases behindNew with
  | true =>
      rw [canHead, Node.isConstructor_mk] at isHead
      cases isHead
  | false =>
      refine (asHead total depth budget false (decide_eq_true tight) ?_ ?_).call ?_
      · exact Nat.le_trans (Nat.le_max_left _ _) calls
      · exact Nat.le_trans (Nat.add_le_add_left (Nat.le_max_left _ _) _) levels
      · exact items_of_legible printable legible (Nat.le_trans (Nat.le_max_right _ _) calls)
          (Nat.le_trans (Nat.add_le_add_left (Nat.le_max_right _ _) _) levels)

end Heads

/-! ## §4. Operators. -/

section Operators

theorem AsOperand.unary {op : UnaryOp} {operand : Shape} (isPrefix : op ∈ prefixOperators)
    (printable : Printable operand) (tight : 13 ≤ operand.strength)
    (asOperand : AsOperand operand) : AsOperand (.mk () (.unary op operand true)) := by
  intro total depth budget rest fits _ ends
  obtain ⟨calls, levels⟩ := fits
  simp only [Node.calls, Node.callsFrom_mk, Form.map, Form.calls] at calls
  simp only [Node.levels_mk, Form.map, Form.levels] at levels
  obtain ⟨fewer, rfl, covered⟩ := exists_fewer calls
  rw [Node.lexemes_mk]
  refine .unary isPrefix (by omega) printable.phrase ?_
  exact asOperand total (depth + 1) fewer rest ⟨covered, by omega⟩ tight ends

theorem AsTerm.binary {op : BinaryOp} {left right : Shape} (notLess : op ≠ .lt)
    (notComma : op ≠ .comma) (leftTight : op.leftMinimum ≤ left.strength)
    (rightTight : op.rightMinimum ≤ right.strength) (asLeft : AsTerm left)
    (asRight : AsTerm right) : AsTerm (.mk () (.binary op left right)) := by
  intro total depth budget minimum rest after Q fits _ tight ends reach next
  obtain ⟨calls, levels⟩ := fits
  simp only [Node.calls, Node.callsFrom_mk, Form.map, Form.calls] at calls
  simp only [Node.levels_mk, Form.map, Form.levels] at levels
  obtain ⟨fewer, rfl, covered⟩ := exists_fewer (Nat.le_trans (Nat.le_max_right _ _) calls)
  change minimum ≤ op.precedence at tight
  change _ ≤ op.rightMinimum at reach
  have positive := op.one_le_precedence notComma
  have leftMinimum := op.precedence_le_leftMinimum
  have rightMinimum := op.precedence_le_rightMinimum
  -- What stands behind the operator's right operand is too weak to go on with it, so the
  -- loop over the operators of the right operand ends there.
  have ofRight : Consumes total depth (right.lexemes ++ rest)
      (Parser.binary (.ofBudget fewer) op.rightMinimum) rest (·.shape = right) :=
    asRight.whole ⟨covered, by omega⟩ (by omega) rightTight ends
      (Nat.le_trans reach (BinaryOp.rightMinimum_le_reach rightTight)) reach
  rw [Node.lexemes_mk]
  show Consumes _ _ (left.lexemes ++ _ :: right.lexemes ++ rest) _ _ _
  rw [List.append_assoc]
  refine asLeft total depth (fewer + 1) minimum _ after Q ⟨by rw [Node.calls]; omega, by omega⟩
    (by omega) (by omega) (BinaryOp.endsOperand_lexeme notComma notLess) ?_ fun tree same => ?_
  · show op.lexeme.grip ≤ _
    rw [BinaryOp.grip_lexeme notComma]
    exact BinaryOp.lt_reach leftTight
  · refine .binaryRest_next notComma tight ofRight fun tree' same' => next tree' ?_
    rw [same', same]

/-- The test of a conditional expression is read back in front of the branches. -/
theorem AsTerm.test {test : Shape} {total depth budget : Nat} {branches : List Lexeme}
    (positive : 1 ≤ test.strength) (asTerm : AsTerm test) (fits : Fits depth budget test) :
    Consumes total depth (test.lexemes ++ .punct .question :: branches)
      (Parser.binary (.ofBudget budget) 0) (.punct .question :: branches) (·.shape = test) :=
  asTerm.whole fits positive (Nat.zero_le _) rfl (Nat.zero_le _) (Nat.zero_le _)

/-- The first branch is read back in front of the second one, which makes no parameters of
it. -/
theorem AsValue.branch {first : Shape} {total depth budget : Nat} {second rest : List Lexeme}
    (asValue : AsValue first) (calls : first.calls + 1 ≤ budget)
    (levels : depth + (first.levels + 2) ≤ maxNesting + 1) (contained : Contained second)
    (ends : (firstOf rest).endsExpression = true) :
    Consumes total depth (first.lexemes ++ .punct .colon :: (second ++ rest))
      (Grammar.ofBudget budget).assignment (.punct .colon :: (second ++ rest)) (·.shape = first) :=
  asValue.deeper calls levels _ rfl fun _ => .of_contained contained ends

theorem AsValue.conditional {test consequent alternate : Shape}
    (printable : Printable (.mk () (.conditional test consequent alternate)))
    (positive : 1 ≤ test.strength) (asTerm : AsTerm test) (ofConsequent : AsValue consequent)
    (ofSecond : Printable alternate) (ofAlternate : AsValue alternate) :
    AsValue (.mk () (.conditional test consequent alternate)) := by
  intro total depth budget fits rest ends frees
  have noArrow := printable.noArrow_of_ends ends frees
  obtain ⟨calls, levels⟩ := fits
  simp only [Node.calls, Node.callsFrom_mk, Form.map, Form.calls] at calls
  simp only [Node.levels_mk, Form.map, Form.levels] at levels
  simp only [Node.lexemes_mk, Form.map, Form.lexemes, List.append_assoc, List.cons_append]
    at noArrow ⊢
  rw [Node.endsInParens_mk] at frees
  refine .assignment_of_conditional (by omega) noArrow (.conditional
    (asTerm.test positive ⟨?_, ?_⟩)
    (ofConsequent.branch ?_ ?_ ofSecond.phrase.contained ends)
    (ofAlternate.deeper ?_ ?_ rest ends frees)) ends
  all_goals first | rw [Node.calls]; omega | omega

/-- The target of an assignment is read back in front of the operator. -/
theorem AsTerm.target {op : AssignOp} {target : Shape} {total depth budget : Nat}
    {between : List Lexeme} (isTarget : target.isTarget = true) (asTerm : AsTerm target)
    (fits : Fits depth budget target) :
    Consumes total depth (target.lexemes ++ .punct op.punct :: between)
      (Parser.conditional (.ofBudget budget)) (.punct op.punct :: between) (·.shape = target) := by
  have strong := Node.strength_of_isTarget isTarget
  have noGrip : (firstOf (.punct op.punct :: between)).grip = 0 := op.grip_punct
  have reads : Consumes total depth (target.lexemes ++ .punct op.punct :: between)
      (Parser.binary (.ofBudget budget) 0) (.punct op.punct :: between) (·.shape = target) :=
    asTerm.whole fits (by omega) (Nat.zero_le _) op.endsOperand_punct (by omega) (by omega)
  exact .conditional_of_binary reads op.punct_ne_question

theorem AsValue.assignment {op : AssignOp} {target value : Shape}
    (printable : Printable (.mk () (.assignment op target value)))
    (isTarget : target.isTarget = true) (asTerm : AsTerm target) (ofValue : AsValue value) :
    AsValue (.mk () (.assignment op target value)) := by
  intro total depth budget fits rest ends frees
  have noArrow := printable.noArrow_of_ends ends frees
  obtain ⟨calls, levels⟩ := fits
  simp only [Node.calls, Node.callsFrom_mk, Form.map, Form.calls] at calls
  simp only [Node.levels_mk, Form.map, Form.levels] at levels
  simp only [Node.lexemes_mk, Form.map, Form.lexemes, List.append_assoc, List.cons_append]
    at noArrow ⊢
  rw [Node.endsInParens_mk] at frees
  refine .assignment (by omega) noArrow
    (asTerm.target isTarget ⟨by rw [Node.calls]; omega, by omega⟩) ?_
  exact ofValue.deeper (by rw [Node.calls]; omega) (by omega) rest ends frees

end Operators

/-! ## §5. All expressions. -/

/-- **Every printed expression is read back** in every position that its strength allows. -/
theorem Legible.of_printable {e : Shape} (printable : Printable e) : Legible e := by
  -- Each construct shows the strongest position it can stand in; the weaker ones follow.
  induction printable with
  | identifier plain => exact .of_head (.identifier plain) rfl (.identifier plain)
  | string plain => exact .of_head (.string plain) rfl .string
  | number digits => exact .of_head (.number digits) rfl .number
  | property ofObject tight plain object =>
      exact .of_head (.property ofObject tight plain) rfl (.property tight object.asHead)
  | element ofObject tight ofIndex object index =>
      exact .of_head (.element ofObject tight ofIndex) rfl (.element tight object.asHead index)
  | call ofCallee tight each callee legible =>
      exact .of_head (.call ofCallee tight each) rfl (.call tight callee.asHead each legible)
  | construction ofCallee tight each callee legible =>
      exact .of_head (.construction ofCallee tight each) rfl
        (.construction ofCallee tight callee.asHead each legible)
  | array each legible => exact .of_head (.array each) rfl (.array each legible)
  | object plain each legible =>
      refine .of_head (.object plain each) rfl (.object legible fun m inside => ?_)
      exact .member (plain m inside) (each m inside).phrase
  | parenthesized ofInner inner =>
      exact .of_head (.parenthesized ofInner) rfl (.parenthesized inner)
  | unary isPrefix ofOperand tight operand =>
      exact .of_operand (.unary isPrefix ofOperand tight) rfl
        (.unary isPrefix ofOperand tight operand.asOperand)
  | @binary op _ _ notLess notComma ofLeft leftTight ofRight rightTight left right =>
      refine .of_term (.binary notLess notComma ofLeft leftTight ofRight rightTight)
        (op.one_le_precedence notComma) (Nat.lt_succ_of_le op.precedence_le) ?_
      exact .binary notLess notComma leftTight rightTight left.asTerm right.asTerm
  | conditional ofTest tight ofConsequent ofAlternate test consequent alternate =>
      exact .of_value rfl (.conditional (.conditional ofTest tight ofConsequent ofAlternate) tight
        test.asTerm consequent.asValue ofAlternate alternate.asValue)
  | assignment ofTarget isTarget ofValue target value =>
      exact .of_value rfl (.assignment (.assignment ofTarget isTarget ofValue) isTarget
        target.asTerm value.asValue)

end Parser

end StackLint

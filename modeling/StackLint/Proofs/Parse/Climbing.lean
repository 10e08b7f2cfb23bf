/-
  StackLint.Proofs.Parse.Climbing
  ───────────────────────────────
  **OPERATORS BETWEEN NAMES.**

  Names with binary operators between them, up to the end of a text, are read as a
  single tree: read from left to right it gives the same names and operators, and every
  operator holds together less than the operators below it.  The only thing that can get
  in the way is a long row of powers, since each of them takes a nested call.
-/
import StackLint.Proofs.Parse.Rounds
import StackLint.Proofs.Print.Exhausts

namespace StackLint

/-! ## §1. Names and operators. -/

/-- Words that are no names where an operand is expected. -/
def operandKeywords : List Text :=
  ["function", "class", "new", "true", "false", "null", "this", "super", "typeof", "void",
   "delete", "await", "yield"]

/-- A name that is an operand. -/
structure NamedOperand where
  token : Token
  name : Text
  lexeme_eq : token.lexeme = .word name
  plain : name ∉ operandKeywords

/-- The node of the name. -/
def NamedOperand.tree (x : NamedOperand) : Tree :=
  Parser.leaf x.token (.identifier x.name)

namespace NamedOperand

variable (x : NamedOperand)

theorem isTheWord_eq_false {w : Text} (listed : w ∈ operandKeywords) :
    x.token.isTheWord w = false := by
  rw [Token.isTheWord, x.lexeme_eq]
  refine beq_eq_false_iff_ne.mpr fun same => x.plain ?_
  injection same with same
  exact same ▸ listed

theorem lookup_eq_none {α : Type} {words : List (Text × α)}
    (listed : ∀ entry ∈ words, entry.1 ∈ operandKeywords) : words.lookup x.name = none := by
  refine List.lookup_eq_none_iff.mpr fun entry inside => bne_iff_ne.mpr fun same => x.plain ?_
  exact same ▸ listed entry inside

end NamedOperand

/-- An operator with the name behind it. -/
structure OperatorStep where
  token : Token
  op : BinaryOp
  lexeme_eq : token.lexeme = op.lexeme
  notComma : op ≠ .comma
  operand : NamedOperand

namespace OperatorStep

/-- Both tokens of the step. -/
def tokens (step : OperatorStep) : List Token :=
  [step.token, step.operand.token]

/-- What a tree shows of the step when it is read from left to right. -/
def reading (step : OperatorStep) : List (Tree ⊕ BinaryOp) :=
  [.inr step.op, .inl step.operand.tree]

end OperatorStep

/-! ## §2. Trees of operators. -/

namespace Node

/-- The operands of an expression and the operators between them, from left to right. -/
def inOrder : Tree → List (Tree ⊕ BinaryOp)
  | .mk _ (.binary op left right) => left.inOrder ++ .inr op :: right.inOrder
  | n => [.inl n]

/-- The operator at the root. -/
def operator? (n : Tree) : Option BinaryOp :=
  match n.form with
  | .binary op _ _ => some op
  | _ => none

/-- **Every operator binds less than those below it,** except that operators of one
precedence may stand below each other on the left, and powers on the right. -/
def IsClimbed : Tree → Prop
  | .mk _ (.binary op left right) =>
      (∀ below ∈ left.operator?, op.leftMinimum ≤ below.precedence)
        ∧ (∀ below ∈ right.operator?, op.rightMinimum ≤ below.precedence)
        ∧ left.IsClimbed ∧ right.IsClimbed
  | _ => True

variable {span : Span} {op : BinaryOp} {left right : Tree}

theorem inOrder_binary :
    (mk span (.binary op left right)).inOrder = left.inOrder ++ .inr op :: right.inOrder := rfl

theorem inOrder_operand (x : NamedOperand) : x.tree.inOrder = [.inl x.tree] := rfl

theorem isClimbed_operand (x : NamedOperand) : x.tree.IsClimbed := trivial

/-- No operator draws the name out of a name. -/
theorem precedence_lt_reach (op : BinaryOp) (x : NamedOperand) : op.precedence < x.tree.reach := by
  have bound := op.precedence_le
  show op.precedence < 13
  omega

theorem reach_of_operator? {n : Tree} (isOp : n.operator? = some op) :
    n.reach = op.rightMinimum := by
  unfold operator? at isOp
  unfold reach
  split at isOp
  · next isBinary =>
      cases isOp
      rw [isBinary]
      rfl
  · cases isOp

/-- An operator that the operator at the root of the left tree does not draw its last
operand from keeps the order. -/
theorem isClimbed_binary (ofLeft : left.IsClimbed) (ofRight : right.IsClimbed)
    (grip : op.precedence < left.reach)
    (tight : ∀ below ∈ right.operator?, op.rightMinimum ≤ below.precedence) :
    (mk span (.binary op left right)).IsClimbed := by
  refine ⟨fun below isBelow => ?_, tight, ofLeft, ofRight⟩
  rw [reach_of_operator? isBelow] at grip
  have bound := below.precedence_le
  unfold BinaryOp.rightMinimum at grip
  unfold BinaryOp.leftMinimum
  -- Below a power on the left there is no operator at all.
  by_cases isPow : below = .pow
  · have notPow : op ≠ .pow := by
      rintro rfl
      rw [if_pos isPow, isPow] at grip
      exact Nat.lt_irrefl _ grip
    rw [if_pos isPow] at grip
    rw [if_neg notPow]
    exact Nat.le_of_lt grip
  · have weaker := BinaryOp.precedence_lt_of_ne isPow
    rw [if_neg isPow] at grip
    have notPow : op ≠ .pow := by
      rintro rfl
      change 12 < below.precedence + 1 at grip
      omega
    rw [if_neg notPow]
    omega

end Node

/-! ## §3. States. -/

/-- These tokens come next, up to the end of the text, and the word `in` is an operator. -/
structure ParserState.Awaits (s : ParserState) (tokens : List Token) : Prop where
  ahead : s.ahead = tokens
  isEnd : s.final.isEnd = true
  noIn : s.noIn = false
  total : s.total = s.position + s.ahead.length

namespace ParserState

variable {s : ParserState} {t : Token} {tokens : List Token}

theorem Awaits.drop (awaits : s.Awaits tokens) (count : Nat) :
    (s.skip count).Awaits (tokens.drop count) where
  ahead := congrArg (List.drop count) awaits.ahead
  isEnd := awaits.isEnd
  noIn := awaits.noIn
  total := by
    show s.total = s.position + (s.ahead.take count).length + (s.ahead.drop count).length
    rw [awaits.total, Nat.add_assoc, ← List.length_append, List.take_append_drop]

theorem Awaits.skip (awaits : s.Awaits (t :: tokens)) : (s.skip 1).Awaits tokens :=
  awaits.drop 1

theorem Awaits.moves (awaits : s.Awaits (t :: tokens)) {count : Nat} (some : 1 ≤ count) :
    s.position < (s.skip count).position := by
  show s.position < s.position + (s.ahead.take count).length
  rw [awaits.ahead, List.length_take, List.length_cons]
  omega

theorem Awaits.inside (awaits : s.Awaits tokens) (count : Nat) :
    (s.skip count).position ≤ s.total := by
  show s.position + (s.ahead.take count).length ≤ s.total
  rw [awaits.total, List.length_take]
  omega

theorem current_skip (s : ParserState) (count : Nat) : (s.skip count).current = s.peek count := by
  unfold current peek skip
  rw [List.head?_drop]

theorem Awaits.current (awaits : s.Awaits (t :: tokens)) : s.current = t := by
  unfold ParserState.current
  rw [awaits.ahead]
  rfl

end ParserState

namespace BinaryOp

/-- Between operands an operator is told by its lexeme. -/
theorem connective?_of_lexeme {op : BinaryOp} (notComma : op ≠ .comma) {t : Token}
    (same : t.lexeme = op.lexeme) : Parser.connective? false t = some (.binary op) := by
  obtain ⟨lexeme, start, stop, newlineBefore⟩ := t
  obtain rfl : lexeme = op.lexeme := same
  cases op <;> first | rfl | exact absurd rfl notComma

/-- Punctuators that go on with an operand or begin one. -/
def joints : List Punct :=
  [.dot, .optionalDot, .openBracket, .openParen, .bang, .increment, .decrement]

theorem lexeme_ne_joint (op : BinaryOp) {p : Punct} (listed : p ∈ joints) :
    op.lexeme ≠ .punct p := by
  revert p
  cases op <;> decide

end BinaryOp

/-- The token goes on with no operand: an operator, or the end of the text. -/
inductive Token.Follows (t : Token) : Prop
  | operator {op : BinaryOp} (same : t.lexeme = op.lexeme)
  | isEnd (same : t.lexeme = .endOfText)

namespace Token.Follows

variable {t : Token}

theorem is_eq_false (follows : t.Follows) {p : Punct} (listed : p ∈ BinaryOp.joints) :
    t.is p = false := by
  refine beq_eq_false_iff_ne.mpr ?_
  cases follows with
  | operator same => exact same ▸ BinaryOp.lexeme_ne_joint _ listed
  | isEnd same => exact same ▸ nofun

theorem isStep_eq_false (follows : t.Follows) : t.isOneOf [.increment, .decrement] = false := by
  have increment : t.is .increment = false := follows.is_eq_false (by decide)
  have decrement : t.is .decrement = false := follows.is_eq_false (by decide)
  unfold Token.is at increment decrement
  unfold Token.isOneOf
  split
  · next p isPunct =>
      rw [isPunct] at increment decrement
      cases p with
      | increment => cases increment
      | decrement => cases decrement
      | _ => rfl
  · rfl

theorem opensTemplate_eq_false (follows : t.Follows) : t.opensTemplate = false := by
  unfold opensTemplate
  cases follows with
  | @operator op same =>
      rw [same]
      cases op <;> rfl
  | isEnd same => rw [same]

theorem isTheWord_eq_false (follows : t.Follows) : t.isTheWord "function" = false := by
  refine beq_eq_false_iff_ne.mpr ?_
  cases follows with
  | @operator op same =>
      rw [same]
      cases op <;> decide
  | isEnd same => exact same ▸ nofun

end Token.Follows

/-! ## §4. Operands. -/

namespace Parser

variable {s : ParserState} {g : Grammar} {x : NamedOperand} {steps : List OperatorStep}

/-- Behind an operand comes an operator, or the end of the text. -/
theorem follows_current (awaits : s.Awaits (steps.flatMap OperatorStep.tokens)) :
    s.current.Follows := by
  cases steps with
  | nil =>
      unfold ParserState.current
      rw [awaits.ahead]
      exact .isEnd (beq_iff_eq.mp awaits.isEnd)
  | cons step steps =>
      rw [List.flatMap_cons] at awaits
      rw [show s.current = step.token from ParserState.Awaits.current awaits]
      exact .operator step.lexeme_eq

/-- No token opens an argument list or a template. -/
theorem plain_peek (awaits : s.Awaits (steps.flatMap OperatorStep.tokens)) (count : Nat) :
    (s.peek count).is .openParen = false ∧ (s.peek count).opensTemplate = false := by
  unfold ParserState.peek
  cases found : s.ahead[count]? with
  | none =>
      have follows : s.final.Follows := .isEnd (beq_iff_eq.mp awaits.isEnd)
      exact ⟨follows.is_eq_false (by decide), follows.opensTemplate_eq_false⟩
  | some t =>
      have inside := List.mem_of_getElem? found
      rw [awaits.ahead] at inside
      obtain ⟨step, _, isToken⟩ := List.mem_flatMap.mp inside
      rcases List.mem_pair.mp isToken with rfl | rfl
      · have follows : step.token.Follows := .operator step.lexeme_eq
        exact ⟨follows.is_eq_false (by decide), follows.opensTemplate_eq_false⟩
      · unfold Token.is Token.opensTemplate
        simp only [Option.getD_some, step.operand.lexeme_eq]
        exact ⟨rfl, trivial⟩

/-- **No chain goes on behind a name.** -/
theorem chain_name (awaits : s.Awaits (steps.flatMap OperatorStep.tokens)) (tree : Tree) :
    (chain g true tree).run s = .ok tree s := by
  have follows := follows_current awaits
  refine (Loops.finish ?_ (Nat.le_refl _)).iterate (awaits.inside 0)
  rw [run_current]
  simp only [follows.is_eq_false (show Punct.dot ∈ BinaryOp.joints by decide),
    follows.is_eq_false (show Punct.optionalDot ∈ BinaryOp.joints by decide),
    follows.is_eq_false (show Punct.openBracket ∈ BinaryOp.joints by decide),
    follows.is_eq_false (show Punct.openParen ∈ BinaryOp.joints by decide),
    follows.is_eq_false (show Punct.bang ∈ BinaryOp.joints by decide),
    follows.opensTemplate_eq_false, Bool.false_and, Bool.false_eq_true, if_false]
  -- An operator `<` may begin type arguments, but these are only read in front of `(` or a template.
  split
  · rw [run_look (show (MonadState.get : Parser ParserState).run s = .ok s s from rfl)]
    split
    · rfl
    · next width _ =>
        obtain ⟨noParen, noTemplate⟩ := plain_peek awaits width
        rw [run_peek, noParen, noTemplate]
        rfl
  · rfl

/-- **What a name stands for.** -/
theorem primary_name (awaits : s.Awaits (x.token :: steps.flatMap OperatorStep.tokens)) :
    (primary g).run s = .ok x.tree (s.skip 1) := by
  have next : (s.peek 1).Follows := by
    rw [← s.current_skip]
    exact follows_current awaits.skip
  have noValue : ValueKeyword.words.lookup x.name = none := x.lookup_eq_none (by decide)
  unfold primary
  rw [run_current, awaits.current, x.lexeme_eq]
  show (wordOperand g x.token x.name).run s = _
  unfold wordOperand
  rw [run_peek, next.isTheWord_eq_false, Bool.and_false,
    x.isTheWord_eq_false (show Text.ofString "function" ∈ operandKeywords by decide),
    x.isTheWord_eq_false (show Text.ofString "class" ∈ operandKeywords by decide),
    x.isTheWord_eq_false (show Text.ofString "new" ∈ operandKeywords by decide), noValue]
  rfl

theorem unaryBody_name (awaits : s.Awaits (x.token :: steps.flatMap OperatorStep.tokens)) :
    (unaryBody g).run s = .ok x.tree (s.skip 1) := by
  have noOperator (next : Token) : unaryOperator? x.token next = none := by
    have noWord : UnaryOp.words.lookup x.name = none := x.lookup_eq_none (by decide)
    unfold unaryOperator?
    rw [x.lexeme_eq]
    show (if mayBeOperand next then UnaryOp.words.lookup x.name else none) = none
    rw [noWord, ite_self]
  have noAngle : x.token.is .lt = false := by
    rw [Token.is, x.lexeme_eq]
    rfl
  have next : (s.skip 1).current.Follows := follows_current awaits.skip
  unfold unaryBody
  rw [run_current, run_peek, awaits.current, noOperator, noAngle]
  show (stepped g).run s = _
  unfold stepped
  rw [run_bind (primary_name awaits), run_bind (chain_name awaits.skip x.tree), run_current,
    next.isStep_eq_false]
  rfl

/-- **A name is read as an operand.** -/
theorem unary_name (shallow : s.depth < maxNesting)
    (awaits : s.Awaits (x.token :: steps.flatMap OperatorStep.tokens)) :
    (unary g).run s = .ok x.tree (s.skip 1) := by
  have deeper : (s.atDepth (s.depth + 1)).Awaits (x.token :: steps.flatMap OperatorStep.tokens) :=
    ⟨awaits.ahead, awaits.isEnd, awaits.noIn, awaits.total⟩
  exact nested_run shallow (unaryBody_name deeper)

end Parser

/-! ## §5. Nested calls. -/

namespace OperatorStep

/-- How many powers come first. -/
def powersAhead : List OperatorStep → Nat
  | [] => 0
  | step :: steps => if step.op = .pow then powersAhead steps + 1 else 0

/-- How many powers there are in the longest row. -/
def powersInRow : List OperatorStep → Nat
  | [] => 0
  | step :: steps => max (powersAhead (step :: steps)) (powersInRow steps)

/-- An upper bound for the nested calls that operators take which bind at least as strongly
as `minimum`: the powers in a row, and one for each weaker precedence. -/
def calls (minimum : Nat) (steps : List OperatorStep) : Nat :=
  if minimum ≤ 11 then 12 - minimum + powersInRow steps else powersAhead steps

variable {minimum : Nat} {step : OperatorStep} {steps rest : List OperatorStep}

theorem length_tokens (steps : List OperatorStep) :
    (steps.flatMap tokens).length = 2 * steps.length := by
  induction steps with
  | nil => rfl
  | cons step steps ih =>
      rw [List.flatMap_cons, List.length_append, ih, List.length_cons]
      show 2 + _ = _
      omega

theorem powersAhead_le (steps : List OperatorStep) : powersAhead steps ≤ powersInRow steps := by
  cases steps with
  | nil => exact Nat.le_refl _
  | cons step steps => exact Nat.le_max_left _ _

theorem powersInRow_le (taken rest : List OperatorStep) :
    powersInRow rest ≤ powersInRow (taken ++ rest) := by
  induction taken with
  | nil => exact Nat.le_refl _
  | cons step taken ih => exact Nat.le_trans ih (Nat.le_max_right _ _)

theorem powersAhead_eq_zero (ends : ∀ step ∈ rest.head?, step.op.precedence < 12) :
    powersAhead rest = 0 := by
  cases rest with
  | nil => rfl
  | cons step rest =>
      have weaker := ends step rfl
      rw [powersAhead, if_neg]
      intro isPow
      rw [isPow] at weaker
      exact absurd weaker (by decide)

/-- The right operand takes one call less. -/
theorem calls_right (tight : minimum ≤ step.op.precedence) :
    calls step.op.rightMinimum steps + 1 ≤ calls minimum (step :: steps) := by
  have ahead := powersAhead_le (step :: steps)
  have ahead' := powersAhead_le steps
  have row : powersInRow steps ≤ powersInRow (step :: steps) := powersInRow_le [step] steps
  unfold calls
  -- Behind a power the same minimum goes on, so the power itself pays for the call; every other
  -- operator raises the minimum.
  by_cases isPow : step.op = .pow
  · rw [powersAhead, if_pos isPow] at ahead
    rw [isPow] at tight
    rw [powersAhead, if_pos isPow, isPow, if_neg (by decide)]
    change minimum ≤ 12 at tight
    split <;> omega
  · have bound := BinaryOp.precedence_lt_of_ne isPow
    rw [BinaryOp.rightMinimum, if_neg isPow, if_pos (show minimum ≤ 11 by omega)]
    split <;> omega

/-- What is left behind a right operand takes no more calls. -/
theorem calls_rest (taken : List OperatorStep) (tight : minimum ≤ step.op.precedence)
    (ends : ∀ next ∈ rest.head?, next.op.precedence < step.op.rightMinimum) :
    calls minimum rest ≤ calls minimum (step :: (taken ++ rest)) := by
  have row : powersInRow rest ≤ powersInRow (step :: (taken ++ rest)) :=
    powersInRow_le (step :: taken) rest
  unfold calls
  split
  · omega
  · next strong =>
      -- Only powers bind so strongly, and the right operand of a power takes all that follow.
      have isPow : step.op = .pow := by
        by_contra notPow
        have bound := BinaryOp.precedence_lt_of_ne notPow
        omega
      rw [isPow] at ends
      rw [powersAhead_eq_zero ends]
      exact Nat.zero_le _

end OperatorStep

/-! ## §6. The climb. -/

/-- The operators of `taken` have been put on top of the tree `left`, up to an operator that
binds less than `minimum`. -/
structure Climbed (minimum : Nat) (left : Tree) (taken rest : List OperatorStep) (tree : Tree) :
    Prop where
  inOrder : tree.inOrder = left.inOrder ++ taken.flatMap OperatorStep.reading
  isClimbed : tree.IsClimbed
  tight : ∀ op ∈ tree.operator?, op ∈ left.operator? ∨ minimum ≤ op.precedence
  ends : ∀ next ∈ rest.head?, next.op.precedence < minimum

theorem Climbed.refl {minimum : Nat} {left : Tree} {rest : List OperatorStep}
    (isClimbed : left.IsClimbed) (ends : ∀ next ∈ rest.head?, next.op.precedence < minimum) :
    Climbed minimum left [] rest left where
  inOrder := (List.append_nil _).symm
  isClimbed := isClimbed
  tight _ isOp := .inl isOp
  ends := ends

/-- An operator with its right operand, and those behind it. -/
theorem Climbed.next {minimum : Nat} {left right tree : Tree} {span : Span} {step : OperatorStep}
    {taken taken' rest rest' : List OperatorStep} (tight : minimum ≤ step.op.precedence)
    (ofRight : Climbed step.op.rightMinimum step.operand.tree taken rest right)
    (later : Climbed minimum (.mk span (.binary step.op left right)) taken' rest' tree) :
    Climbed minimum left (step :: (taken ++ taken')) rest' tree where
  inOrder := by
    rw [later.inOrder, Node.inOrder_binary, ofRight.inOrder, Node.inOrder_operand]
    simp only [OperatorStep.reading, List.flatMap_cons, List.flatMap_append, List.cons_append,
      List.nil_append, List.append_assoc]
  isClimbed := later.isClimbed
  tight op isOp := by
    refine .inr ?_
    rcases later.tight op isOp with ⟨⟨⟩⟩ | strong
    · exact tight
    · exact strong
  ends := later.ends

namespace Parser

variable {s : ParserState} {minimum budget : Nat} {left : Tree} {x : NamedOperand}
  {steps : List OperatorStep}

/-- A round that reads an operator and its right operand, or ends. -/
def binaryRound (g : Grammar) (minimum : Nat) (left : Tree) : Parser (Round Tree Tree) := do
  let s ← get
  match connective? s.noIn s.current with
  | none => return .finish left
  | some connective =>
      if connective.precedence < minimum then return .finish left
      skip 1
      match connective with
      | .assertion assertion =>
          skipType
          return .again (← close left.info.start (.typeAssertion left assertion))
      | .binary op =>
          let right ← g.binary (if op = .pow then op.precedence else op.precedence + 1)
          return .again (← close left.info.start (.binary op left right))

theorem binaryRest_eq (g : Grammar) : binaryRest g minimum left = iterate (binaryRound g minimum) left :=
  rfl

theorem connective?_of_awaits {step : OperatorStep}
    (awaits : s.Awaits ((step :: steps).flatMap OperatorStep.tokens)) :
    connective? s.noIn s.current = some (.binary step.op) := by
  rw [List.flatMap_cons] at awaits
  rw [awaits.noIn, show s.current = step.token from ParserState.Awaits.current awaits]
  exact BinaryOp.connective?_of_lexeme step.notComma step.lexeme_eq

/-- What is left behind some of the steps. -/
theorem drop_steps {step : OperatorStep} {taken rest : List OperatorStep}
    (awaits : s.Awaits ((step :: (taken ++ rest)).flatMap OperatorStep.tokens)) :
    (s.skip (2 * (taken.length + 1))).Awaits (rest.flatMap OperatorStep.tokens) := by
  have whole := awaits.drop (2 * (taken.length + 1))
  have length : ((step :: taken).flatMap OperatorStep.tokens).length = 2 * (taken.length + 1) :=
    OperatorStep.length_tokens (step :: taken)
  rwa [← List.cons_append, List.flatMap_append, List.drop_left' length] at whole

/-- An operator that binds less is left alone. -/
theorem binaryRound_finish (left : Tree) (awaits : s.Awaits (steps.flatMap OperatorStep.tokens))
    (ends : ∀ next ∈ steps.head?, next.op.precedence < minimum) (g : Grammar) :
    (binaryRound g minimum left).run s = .ok (.finish left) s := by
  unfold binaryRound
  rw [EStateM.run_bind, EStateM.run_get]
  dsimp only
  cases steps with
  | nil =>
      have none : connective? s.noIn s.current = none := by
        have isEnd : s.current = s.final := by
          unfold ParserState.current
          rw [awaits.ahead]
          rfl
        rw [isEnd, connective?, beq_iff_eq.mp awaits.isEnd]
      rw [none]
      rfl
  | cons step steps =>
      rw [connective?_of_awaits awaits]
      dsimp only
      rw [if_pos (show (Connective.binary step.op).precedence < minimum from ends step rfl)]
      rfl

/-- An operator is read with its right operand. -/
theorem binaryRound_again {step : OperatorStep} {g : Grammar} {right : Tree} {s₁ : ParserState}
    (left : Tree) (awaits : s.Awaits ((step :: steps).flatMap OperatorStep.tokens))
    (tight : minimum ≤ step.op.precedence)
    (run : (g.binary step.op.rightMinimum).run (s.skip 1) = .ok right s₁) :
    (binaryRound g minimum left).run s
      = .ok (.again (.mk ⟨left.info.start, s₁.lastStop⟩ (.binary step.op left right))) s₁ := by
  unfold binaryRound
  rw [EStateM.run_bind, EStateM.run_get]
  dsimp only
  rw [connective?_of_awaits awaits]
  dsimp only
  rw [if_neg (show ¬(Connective.binary step.op).precedence < minimum from Nat.not_lt_of_le tight)]
  have moves : (skip 1).run s = .ok () (s.skip 1) := rfl
  exact (run_bind moves _).trans (run_bind run _)

/-- Rounds that put operators on top of a tree. -/
def Climbs (budget minimum : Nat) (s : ParserState) (left : Tree) (steps : List OperatorStep) :
    Prop :=
  ∃ tree taken rest, steps = taken ++ rest ∧ Climbed minimum left taken rest tree
    ∧ Loops (binaryRound (.ofBudget budget) minimum) s left tree (s.skip (2 * taken.length))

theorem Climbs.stay (awaits : s.Awaits (steps.flatMap OperatorStep.tokens))
    (isClimbed : left.IsClimbed) (ends : ∀ next ∈ steps.head?, next.op.precedence < minimum) :
    Climbs budget minimum s left steps := by
  have stays : s.skip (2 * ([] : List OperatorStep).length) = s := rfl
  refine ⟨left, [], steps, rfl, .refl isClimbed ends, ?_⟩
  rw [stays]
  exact .finish (binaryRound_finish left awaits ends (.ofBudget budget)) (Nat.le_refl _)

/-- A name with what its rounds put on top of it. -/
theorem binary_run {tree : Tree} {count : Nat} (shallow : s.depth < maxNesting)
    (awaits : s.Awaits (x.token :: steps.flatMap OperatorStep.tokens))
    (loops : Loops (binaryRound g minimum) (s.skip 1) x.tree tree ((s.skip 1).skip count)) :
    (binary g minimum).run s = .ok tree (s.skip (1 + count)) := by
  unfold binary
  rw [run_bind (unary_name shallow awaits), binaryRest_eq, ← ParserState.skip_skip]
  exact loops.iterate (awaits.skip.inside count)

/-- An operator with its right operand, and the rounds behind it. -/
theorem Climbs.next {step : OperatorStep} {taken rest : List OperatorStep} {right : Tree}
    {s₁ : ParserState}
    (awaits : s.Awaits ((step :: (taken ++ rest)).flatMap OperatorStep.tokens))
    (tight : minimum ≤ step.op.precedence)
    (run : ((Grammar.ofBudget budget).binary step.op.rightMinimum).run (s.skip 1) = .ok right s₁)
    (isBehind : s₁ = s.skip (2 * (taken.length + 1)))
    (ofRight : Climbed step.op.rightMinimum step.operand.tree taken rest right)
    (later : Climbs budget minimum s₁ (.mk ⟨left.info.start, s₁.lastStop⟩ (.binary step.op left right))
      rest) :
    Climbs budget minimum s left (step :: (taken ++ rest)) := by
  have round := binaryRound_again left awaits tight run
  have moves : s.position < s₁.position := by
    rw [isBehind]
    exact ParserState.Awaits.moves awaits (Nat.le_add_left _ _)
  obtain ⟨tree, taken', rest', rfl, climbed, loops⟩ := later
  refine ⟨tree, step :: (taken ++ taken'), rest', ?_, .next tight ofRight climbed, ?_⟩
  · rw [List.cons_append, List.append_assoc]
  · have whole : s.skip (2 * (step :: (taken ++ taken')).length)
        = s₁.skip (2 * taken'.length) := by
      rw [isBehind, ParserState.skip_skip, List.length_cons, List.length_append]
      congr 1
      omega
    rw [whole]
    exact .again round moves loops

/-- **The operators that bind strongly enough are put on top of the tree.** -/
theorem climb (awaits : s.Awaits (steps.flatMap OperatorStep.tokens)) (shallow : s.depth < maxNesting)
    (enough : OperatorStep.calls minimum steps ≤ budget) (isClimbed : left.IsClimbed)
    (grip : ∀ next ∈ steps.head?, next.op.precedence < left.reach) :
    Climbs budget minimum s left steps := by
  -- Both the right operand of the first operator and what is left behind it have fewer steps.
  induction length : steps.length using Nat.strong_induction_on
    generalizing steps minimum budget left s with
  | _ length ih =>
  subst length
  cases steps with
  | nil => exact .stay awaits isClimbed fun _ isFirst => nomatch isFirst
  | cons step steps =>
      by_cases tight : minimum ≤ step.op.precedence
      · have fewer : OperatorStep.calls step.op.rightMinimum steps + 1 ≤ _ :=
          OperatorStep.calls_right tight
        obtain ⟨budget, rfl⟩ := Nat.exists_eq_add_of_le' (show 1 ≤ budget by omega)
        have behind : (s.skip 1).Awaits
            (step.operand.token :: steps.flatMap OperatorStep.tokens) := awaits.drop 1
        have climbs : Climbs budget step.op.rightMinimum ((s.skip 1).skip 1) step.operand.tree steps :=
          ih steps.length (Nat.lt_succ_self _) behind.skip shallow (by omega)
            (Node.isClimbed_operand step.operand)
            (fun next _ => Node.precedence_lt_reach next.op step.operand) rfl
        obtain ⟨right, taken, rest, rfl, ofRight, loops⟩ := climbs
        have run : ((Grammar.ofBudget (budget + 1)).binary step.op.rightMinimum).run (s.skip 1)
            = .ok right ((s.skip 1).skip (1 + 2 * taken.length)) :=
          binary_run (show (s.skip 1).depth < maxNesting from shallow) behind loops
        have isBehind : (s.skip 1).skip (1 + 2 * taken.length) = s.skip (2 * (taken.length + 1)) := by
          rw [ParserState.skip_skip]
          congr 1
          omega
        refine .next awaits tight run isBehind ofRight ?_
        have less : OperatorStep.calls minimum rest ≤ _ :=
          OperatorStep.calls_rest taken tight ofRight.ends
        have shorter : rest.length < (step :: (taken ++ rest)).length := by
          rw [List.length_cons, List.length_append]
          omega
        refine ih rest.length shorter ?_ shallow (Nat.le_trans less enough) ?_ ofRight.ends rfl
        · exact isBehind ▸ drop_steps awaits
        · refine Node.isClimbed_binary isClimbed ofRight.isClimbed (grip step rfl) fun op isOp => ?_
          exact (ofRight.tight op isOp).resolve_left nofun
      · refine .stay awaits isClimbed ?_
        rintro next ⟨⟩
        exact Nat.lt_of_not_le tight

/-- **Operators between names are read as one tree.**  It shows the names and operators in
their order, and every operator in it binds less than those below it. -/
theorem binary_climbs (shallow : s.depth < maxNesting)
    (awaits : s.Awaits (x.token :: steps.flatMap OperatorStep.tokens))
    (enough : 12 + OperatorStep.powersInRow steps ≤ budget) :
    ∃ tree s₁, (binary (.ofBudget budget) 0).run s = .ok tree s₁
      ∧ s₁.ahead = [] ∧ s₁.complaints = s.complaints
      ∧ tree.inOrder = .inl x.tree :: steps.flatMap OperatorStep.reading ∧ tree.IsClimbed := by
  obtain ⟨tree, taken, rest, rfl, climbed, loops⟩ : Climbs budget 0 (s.skip 1) x.tree steps :=
    climb awaits.skip shallow enough (Node.isClimbed_operand x)
      fun next _ => Node.precedence_lt_reach next.op x
  -- No operator binds less than nothing.
  obtain rfl : rest = [] := by
    cases rest with
    | nil => rfl
    | cons next rest => exact absurd (climbed.ends next rfl) (Nat.not_lt_zero _)
  rw [List.append_nil] at awaits ⊢
  refine ⟨tree, _, binary_run shallow awaits loops, ?_, rfl, climbed.inOrder, climbed.isClimbed⟩
  show s.ahead.drop (1 + 2 * taken.length) = []
  rw [awaits.ahead, Nat.add_comm, List.drop_succ_cons, ← OperatorStep.length_tokens, List.drop_length]

end Parser

/-! ## §7. Texts of operators. -/

/-- The name `a` at an offset. -/
def nameAt (start : Nat) : NamedOperand where
  token := ⟨.word "a", start, start + 1, false⟩
  name := "a"
  lexeme_eq := rfl
  plain := by decide

/-- An operator with the name `a` behind it. -/
def stepAt (start : Nat) (op : BinaryOp) (notComma : op ≠ .comma) : OperatorStep where
  token := ⟨op.lexeme, start, start + op.lexeme.value.length, false⟩
  op := op
  lexeme_eq := rfl
  notComma := notComma
  operand := nameAt (start + op.lexeme.value.length + 1)

theorem ParserState.Awaits.start (tokens : List Token) {final : Token} (isEnd : final.isEnd = true) :
    (ParserState.start tokens final).Awaits tokens :=
  ⟨rfl, isEnd, rfl, (Nat.zero_add _).symm⟩

/-- The steps of `a ** a ** a * a < a in a`. -/
def mixedSteps : List OperatorStep :=
  [stepAt 2 .pow (by decide), stepAt 7 .pow (by decide), stepAt 12 .mul (by decide),
   stepAt 16 .lt (by decide), stepAt 20 .membership (by decide)]

namespace Parser

theorem binary_climbs_mixed :
    ∃ tree s₁, (binary (.ofBudget 14) 0).run
          (.start ((nameAt 0).token :: mixedSteps.flatMap OperatorStep.tokens)
            ⟨.endOfText, 24, 24, false⟩) = .ok tree s₁
      ∧ s₁.ahead = [] ∧ s₁.complaints = []
      ∧ tree.inOrder = .inl (nameAt 0).tree :: mixedSteps.flatMap OperatorStep.reading
      ∧ tree.IsClimbed :=
  binary_climbs (by decide) (.start _ rfl) (by decide)

/-- The steps of a row of powers whose first name is at an offset. -/
def powerSteps : (start operators : Nat) → List OperatorStep
  | _, 0 => []
  | start, operators + 1 =>
      stepAt (start + 2) .pow (by decide) :: powerSteps (start + 5) operators

/-- The tokens of the row. -/
def powerTokens (start operators : Nat) : List Token :=
  (nameAt start).token :: (powerSteps start operators).flatMap OperatorStep.tokens

theorem powerTokens_succ (start n : Nat) : powerTokens start (n + 1)
    = (nameAt start).token :: (stepAt (start + 2) .pow (by decide)).token
      :: powerTokens (start + 5) n := rfl

theorem sameLine_powerTokens {start n : Nat} {t : Token} (inside : t ∈ powerTokens start n) :
    t.newlineBefore = false := by
  induction n generalizing start with
  | zero =>
      obtain rfl := List.mem_singleton.mp inside
      rfl
  | succ n ih =>
      rw [powerTokens_succ] at inside
      rcases List.mem_cons.mp inside with rfl | behind
      · rfl
      · rcases List.mem_cons.mp behind with rfl | later
        · rfl
        · exact ih later

theorem lexemes_powerTokens (start n : Nat) :
    (powerTokens start n).map Token.lexeme = (powers n).lexemes := by
  induction n generalizing start with
  | zero => rfl
  | succ n ih =>
      have first := lexemes_powers_succ n []
      rw [List.append_nil, List.append_nil] at first
      rw [first, ← ih (start + 5)]
      rfl

theorem sees_powerTokens (n stop : Nat) :
    (ParserState.start (powerTokens 0 n) ⟨.endOfText, stop, stop, false⟩).Sees
      (powerTokens 0 n).length 0 ((powers n).lexemes ++ []) where
  ahead := by
    rw [List.append_nil]
    exact lexemes_powerTokens 0 n
  arrows _ inside _ := sameLine_powerTokens inside
  final := rfl
  isTotal := rfl
  position := by
    rw [List.append_nil, ← lexemes_powerTokens 0, List.length_map]
    exact Nat.zero_add _
  complaints := rfl
  noIn := rfl
  depth := rfl

/-- **The bound on the row of powers cannot be left out.**  Five thousand powers spend the
budget of nested calls that a parse has. -/
theorem powers_not_climbed :
    (ParserState.start (powerTokens 0 5000) ⟨.endOfText, 25001, 25001, false⟩).Awaits (powerTokens 0 5000)
      ∧ ¬ ∃ tree s₁, (binary (.ofBudget parseBudget) 0).run
          (.start (powerTokens 0 5000) ⟨.endOfText, 25001, 25001, false⟩) = .ok tree s₁ := by
  refine ⟨.start _ rfl, ?_⟩
  rintro ⟨tree, s₁, run⟩
  have long : parseBudget < 5000 := by decide
  obtain ⟨s', spent⟩ :=
    exhausts_powers long (Nat.zero_le _) (by decide) _ (sees_powerTokens 5000 25001)
  rw [spent] at run
  cases run

end Parser

end StackLint

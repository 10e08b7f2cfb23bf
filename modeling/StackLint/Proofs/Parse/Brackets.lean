/-
  StackLint.Proofs.Parse.Brackets
  ───────────────────────────────
  **DEEP BRACKETS.**

  A number stands in brackets, as many as one likes, each of them an array or a pair of
  parentheses.  The parser reads them up to its limit of nesting.  What is deeper it passes
  over as a whole, with one complaint; and behind it every construct around finds its own
  closing bracket again, so the statement behind the brackets is read as ever.
-/
import StackLint.Proofs.Parse.Annotation
import StackLint.Proofs.Parse.Opening
import StackLint.Proofs.Print.Behind

namespace StackLint

/-! ## §1. Numbers in brackets. -/

/-- Brackets that an operand can stand in. -/
inductive BracketKind where
  | square
  | round
  deriving DecidableEq, Repr

namespace BracketKind

def opener : BracketKind → Punct
  | .square => .openBracket
  | .round => .openParen

def closer : BracketKind → Punct
  | .square => .closeBracket
  | .round => .closeParen

/-- An expression in the brackets. -/
def around (value : Shape) : BracketKind → Shape
  | .square => .mk () (.arrayLiteral [some value])
  | .round => .mk () (.parenthesized value)

/-- The number `1` in brackets, the outermost ones first. -/
def textWithin (bs : List BracketKind) : Text :=
  bs.flatMap (·.opener.text) ++ "1" ++ bs.reverse.flatMap (·.closer.text)

def opening (b : BracketKind) (start : Nat) : Token :=
  ⟨.punct b.opener, start, start + 1, false⟩

def closing (b : BracketKind) (start : Nat) : Token :=
  ⟨.punct b.closer, start, start + 1, false⟩

/-- Its tokens, where the text begins at the given offset. -/
def tokensWithin : (start : Nat) → List BracketKind → List Token
  | start, [] => [⟨.number "1", start, start + 1, false⟩]
  | start, b :: bs =>
      b.opening start
        :: (tokensWithin (start + 1) bs ++ [b.closing (start + 1 + (2 * bs.length + 1))])

/-- What is read of it where so many brackets may be opened, if any: the innermost part is
passed over when there is no room for it. -/
def shapeWithin : (room : Nat) → List BracketKind → Shape
  | 0, _ => .mk () (.errorNode .nestingTooDeep)
  | _ + 1, [] => .mk () (.numericLiteral "1")
  | room + 1, b :: bs => b.around (shapeWithin room bs)

variable (b : BracketKind) (bs : List BracketKind) (start : Nat)

theorem textWithin_cons :
    textWithin (b :: bs) = b.opener.text ++ (textWithin bs ++ b.closer.text) := by
  unfold textWithin
  simp only [List.flatMap_cons, List.reverse_cons, List.flatMap_append, List.flatMap_nil,
    List.append_nil, List.append_assoc]

theorem length_tokensWithin : (tokensWithin start bs).length = 2 * bs.length + 1 := by
  induction bs generalizing start with
  | nil => rfl
  | cons b bs ih =>
      simp only [tokensWithin, List.length_cons, List.length_append, List.length_nil, ih]
      omega

theorem tokensWithin_balanced : Lookahead.IsBalanced (tokensWithin start bs) := by
  induction bs generalizing start with
  | nil => exact .one ⟨rfl, rfl⟩
  | cons b bs ih =>
      apply Lookahead.IsBalanced.whole _ (ih _)
      · cases b <;> rfl
      · cases b <;> rfl

/-- They begin with a token that neither ends the text nor stands between the elements of an
array. -/
theorem exists_first : ∃ t later, tokensWithin start bs = t :: later ∧ t.start = start
    ∧ t.isEnd = false ∧ ∀ p ∈ [Punct.closeBracket, .comma, .ellipsis], t.lexeme ≠ .punct p := by
  cases bs with
  | nil => exact ⟨_, _, rfl, rfl, rfl, fun _ _ same => by cases same⟩
  | cons b bs =>
      have other : ∀ p ∈ [Punct.closeBracket, .comma, .ellipsis], b.opener ≠ p := by
        cases b <;> decide
      exact ⟨_, _, rfl, rfl, rfl, fun p listed same => other p listed (Lexeme.punct.inj same)⟩

end BracketKind

/-! ## §2. The scanner. -/

namespace Scan

open BracketKind

variable {rest : Text}

/-- A bracket is a token of its own, whatever stands behind it. -/
theorem tokensFrom_bracket {b : BracketKind} {p : Punct} (isOne : p = b.opener ∨ p = b.closer)
    (memory : Memory) (offset : Nat) :
    tokensFrom memory 0 offset (p.text ++ rest)
      = (tokensFrom ⟨memory.braces, some (.punct p), false⟩ 0 (offset + 1) rest).map
          (⟨.punct p, offset, offset + 1, memory.newline⟩ :: ·) := by
  obtain ⟨c, spelled, trivial, read⟩ : ∃ c, p.text = [c] ∧ trivia? c rest = none
      ∧ ∀ braces previous, lexeme braces previous c rest = .ok ⟨.punct p, 0, braces⟩ := by
    rcases isOne with rfl | rfl <;> cases b <;> exact ⟨_, rfl, rfl, fun _ _ => rfl⟩
  rw [spelled]
  exact tokensFrom_piece (t := []) trivial read memory offset

/-- So is the number in front of something that ends it. -/
theorem tokensFrom_one {c : CodePoint} (ends : c ∈ (")];" : Text)) (memory : Memory)
    (offset : Nat) :
    tokensFrom memory 0 offset ("1" ++ c :: rest)
      = (tokensFrom ⟨memory.braces, some (.number "1"), false⟩ 0 (offset + 1) (c :: rest)).map
          (⟨.number "1", offset, offset + 1, memory.newline⟩ :: ·) := by
  have read (braces : List OpenBrace) (previous : Option Lexeme) :
      lexeme braces previous (.scalar '1') (c :: rest) = .ok ⟨.number "1", 0, braces⟩ := by
    have listed : c ∈ [CodePoint.scalar ')', .scalar ']', .scalar ';'] := ends
    simp only [List.mem_cons, List.not_mem_nil, or_false] at listed
    rcases listed with rfl | rfl | rfl <;> rfl
  exact tokensFrom_piece (t := []) rfl read memory offset

/-- **The brackets are cut into their tokens.** -/
theorem tokensFrom_textWithin {c : CodePoint} (ends : c ∈ (")];" : Text))
    (braces : List OpenBrace) (bs : List BracketKind) (previous : Option Lexeme) (offset : Nat) :
    ∃ last, regexAllowed (some last) = false
      ∧ tokensFrom ⟨braces, previous, false⟩ 0 offset (textWithin bs ++ c :: rest)
        = (tokensFrom ⟨braces, some last, false⟩ 0 (offset + (2 * bs.length + 1)) (c :: rest)).map
            (tokensWithin offset bs ++ ·) := by
  induction bs generalizing previous offset c rest with
  | nil => exact ⟨.number "1", rfl, tokensFrom_one ends _ _⟩
  | cons b bs ih =>
      obtain ⟨d, spelled, ends'⟩ : ∃ d, b.closer.text = [d] ∧ d ∈ (")];" : Text) := by
        cases b <;> exact ⟨_, rfl, by decide⟩
      obtain ⟨last, _, inside⟩ :=
        @ih (c :: rest) d ends' (some (.punct b.opener)) (offset + 1)
      refine ⟨.punct b.closer, by cases b <;> rfl, ?_⟩
      -- What is inside ends in front of the closing bracket, not in front of `c`.
      have whole : textWithin (b :: bs) ++ c :: rest
          = b.opener.text ++ (textWithin bs ++ d :: c :: rest) := by
        rw [textWithin_cons, spelled]
        simp
      have closed := @tokensFrom_bracket (c :: rest) b _ (.inr rfl) ⟨braces, some last, false⟩
        (offset + 1 + (2 * bs.length + 1))
      rw [spelled] at closed
      change tokensFrom _ 0 _ (d :: c :: rest) = _ at closed
      have stop : offset + 1 + (2 * bs.length + 1) + 1 = offset + (2 * (b :: bs).length + 1) := by
        rw [List.length_cons]
        omega
      rw [whole, tokensFrom_bracket (.inl rfl), inside, closed, stop]
      cases tokensFrom ⟨braces, some (.punct b.closer), false⟩ 0
        (offset + (2 * (b :: bs).length + 1)) (c :: rest) with
      | error failure => rfl
      | ok later =>
          rw [← stop]
          simp [Except.map, tokensWithin, BracketKind.opening, BracketKind.closing]

end Scan

/-! ## §3. States. -/

/-- The state behind some tokens of which the given complaints were made, the newest one
first. -/
def ParserState.past (s : ParserState) (width : Nat) (heard : List (Nat × Complaint)) :
    ParserState :=
  { s.skip width with complaints := heard ++ s.complaints }

namespace ParserState

variable {s : ParserState} {t : Token} {rest : List Token} {heard : List (Nat × Complaint)}

theorem past_skip (s : ParserState) (m n : Nat) :
    (s.past m heard).skip n = s.past (m + n) heard := by
  unfold past
  rw [← skip_skip]
  rfl

theorem skip_past (s : ParserState) (m n : Nat) :
    (s.skip m).past n heard = s.past (m + n) heard := by
  unfold past
  rw [skip_skip]
  rfl

theorem past_past (s : ParserState) (m n : Nat) (heard' : List (Nat × Complaint)) :
    (s.past m heard).past n heard' = s.past (m + n) (heard' ++ heard) := by
  unfold past
  rw [← skip_skip, List.append_assoc]
  rfl

/-- The token ends an operand, and is no comma. -/
def Closes (t : Token) : Prop :=
  ∃ p ∈ [Punct.closeParen, .closeBracket, .semicolon], t.lexeme = .punct p

/-- **The brackets come next,** with something behind them that ends them, and so many of
them may be opened. -/
structure Nears (s : ParserState) (room start : Nat) (bs : List BracketKind) : Prop where
  ahead : ∃ t rest, s.ahead = BracketKind.tokensWithin start bs ++ t :: rest ∧ Closes t
  depth : s.depth + 2 * room + 1 = Parser.maxNesting
  noIn : s.noIn = false
  total : s.position + s.ahead.length = s.total

namespace Nears

variable {room start : Nat} {b : BracketKind} {bs : List BracketKind}

/-- What stands behind the brackets. -/
theorem behind (nears : s.Nears room start bs) (heard : List (Nat × Complaint)) :
    Closes (s.past (2 * bs.length + 1) heard).current := by
  obtain ⟨t, rest, ahead, closes⟩ := nears.ahead
  have isBehind : (s.past (2 * bs.length + 1) heard).ahead = t :: rest := by
    show s.ahead.drop (2 * bs.length + 1) = _
    rw [ahead]
    exact List.drop_left' (BracketKind.length_tokensWithin bs start)
  rw [Parser.current_of_ahead isBehind]
  exact closes

/-- Two levels deeper, one bracket less may be opened. -/
theorem deeper (nears : s.Nears (room + 1) start bs) :
    (s.atDepth (s.depth + 2)).Nears room start bs where
  ahead := nears.ahead
  depth := by
    have depth := nears.depth
    show s.depth + 2 + 2 * room + 1 = _
    omega
  noIn := nears.noIn
  total := nears.total

/-- Behind the outermost bracket there are the others. -/
theorem inner (nears : s.Nears room start (b :: bs)) : (s.skip 1).Nears room (start + 1) bs := by
  obtain ⟨t, rest, ahead, _⟩ := nears.ahead
  have closes : Closes (b.closing (start + 1 + (2 * bs.length + 1))) :=
    ⟨b.closer, by cases b <;> decide, rfl⟩
  refine ⟨⟨_, t :: rest, ?_, closes⟩, nears.depth, nears.noIn, ?_⟩
  · show s.ahead.drop 1 = _
    rw [ahead]
    exact List.append_assoc _ _ _
  · have total := nears.total
    have some : 1 ≤ s.ahead.length := by
      rw [ahead, List.length_append, BracketKind.length_tokensWithin]
      omega
    show s.position + (s.ahead.take 1).length + (s.ahead.drop 1).length = s.total
    rw [List.length_take, List.length_drop]
    omega

/-- Behind the brackets inside there is the closing bracket. -/
theorem closer (nears : s.Nears room start (b :: bs)) (heard : List (Nat × Complaint)) :
    ((s.skip 1).past (2 * bs.length + 1) heard).current.lexeme = .punct b.closer := by
  obtain ⟨t, rest, ahead, _⟩ := nears.ahead
  have isBehind : ((s.skip 1).past (2 * bs.length + 1) heard).ahead
      = b.closing (start + 1 + (2 * bs.length + 1)) :: t :: rest := by
    show (s.ahead.drop 1).drop (2 * bs.length + 1) = _
    rw [ahead]
    show ((BracketKind.tokensWithin (start + 1) bs ++ [b.closing _]) ++ t :: rest).drop _ = _
    rw [List.append_assoc]
    exact List.drop_left' (BracketKind.length_tokensWithin bs _)
  rw [Parser.current_of_ahead isBehind]
  rfl

end Nears

end ParserState

namespace Parser

open BracketKind

variable {g : Grammar} {s : ParserState} {bs : List BracketKind} {b : BracketKind}
  {room start width : Nat} {heard : List (Nat × Complaint)} {tree : Tree} {t : Token}
  {rest : List Token}

theorem endsOperand_closing (closes : ParserState.Closes t) : endsOperand t = true := by
  obtain ⟨p, listed, isPunct⟩ := closes
  have isCloser : ∀ p ∈ [Punct.closeParen, .closeBracket, .semicolon],
      closers.contains p = true := by
    decide
  unfold endsOperand
  rw [isPunct]
  exact isCloser p listed

/-! ## §4. Passing over. -/

/-- A group reaches to its own closing bracket. -/
theorem groupWidth_within (b : BracketKind) (bs : List BracketKind) (start : Nat)
    (rest : List Token) :
    groupWidth 0 (tokensWithin start (b :: bs) ++ rest)
      = (tokensWithin start (b :: bs)).length := by
  have width (opener closer : Token) (opens : opener.opensGroup = true)
      (closes : closer.closesGroup = true) :
      groupWidth 0 (opener :: (tokensWithin (start + 1) bs ++ [closer]) ++ rest)
        = (opener :: (tokensWithin (start + 1) bs ++ [closer])).length := by
    rw [List.cons_append, List.append_assoc, List.singleton_append,
      Lookahead.groupWidth_group opens (tokensWithin_balanced bs _) closes]
    simp
  cases b <;> exact width _ _ rfl rfl

/-- A punctuator is not accepted as another one. -/
theorem accept_other {p q : Punct} (isNext : s.current.lexeme = .punct p) (other : p ≠ q) :
    (accept q).run s = .ok false s :=
  accept_no fun same => other (Lexeme.punct.inj (isNext.symm.trans same))

/-- The brackets are no parameters of an arrow function. -/
theorem arrowAhead_within (closes : ParserState.Closes t) :
    Lookahead.arrowAhead (tokensWithin start bs ++ t :: rest) = false := by
  cases bs with
  | nil => exact arrowAhead_of_not_async rfl _
  | cons b bs =>
      refine (arrowAhead_of_not_async rfl _).trans ?_
      cases b with
      | square => rfl
      | round =>
          obtain ⟨p, listed, isPunct⟩ := closes
          have others : ∀ p ∈ [Punct.closeParen, .closeBracket, .semicolon],
              p ≠ .arrow ∧ p ≠ .colon := by
            decide
          obtain ⟨notArrow, notColon⟩ := others p listed
          show Lookahead.arrowAfterParameters (tokensWithin start (.round :: bs) ++ t :: rest)
            = false
          unfold Lookahead.arrowAfterParameters
          rw [groupWidth_within, List.drop_left]
          dsimp only
          rw [is_of_lexeme isPunct notArrow, is_of_lexeme isPunct notColon]
          rfl

theorem arrowAhead_nears (nears : s.Nears room start bs) :
    Lookahead.arrowAhead s.ahead = false := by
  obtain ⟨t, rest, ahead, closes⟩ := nears.ahead
  rw [ahead]
  exact arrowAhead_within closes

/-- All of it is a single item. -/
theorem skipItem_within (ahead : s.ahead = tokensWithin start bs ++ rest)
    (current : s.current = t) : (skipItem t).run s = .ok () (s.skip (2 * bs.length + 1)) := by
  cases bs with
  | nil =>
      rw [← current, current_of_ahead ahead]
      rfl
  | cons b bs =>
      have opens : t.isOneOf [.openParen, .openBracket, .openBrace] = true := by
        rw [← current, current_of_ahead ahead]
        cases b <;> rfl
      unfold skipItem
      rw [opens, if_pos rfl]
      show (skip (groupWidth 0 s.ahead)).run s = _
      rw [ahead, groupWidth_within, length_tokensWithin]
      rfl

/-- **What is too deep is passed over as a whole,** with a single complaint. -/
theorem skipTooDeep_within (ahead : s.ahead = tokensWithin start bs ++ rest) :
    ∃ tree, skipTooDeep.run s = .ok tree (s.past (2 * bs.length + 1) [(start, .nestingTooDeep)])
      ∧ tree.shape = .mk () (.errorNode .nestingTooDeep) := by
  obtain ⟨t, later, isFirst, isStart, _, _⟩ := exists_first bs start
  have isCurrent : s.current = t := by
    rw [isFirst] at ahead
    exact current_of_ahead ahead
  -- The complaint is made before anything is passed over.
  have passed : (skipItem t).run { s with complaints := (t.start, .nestingTooDeep) :: s.complaints }
      = .ok () (s.past (2 * bs.length + 1) [(t.start, .nestingTooDeep)]) :=
    skipItem_within ahead isCurrent
  -- It did pass something over, so no further token is taken.
  have moved : ¬ (s.skip (2 * bs.length + 1)).position = s.position := by
    rw [ParserState.skip_position, ahead, List.length_append, length_tokensWithin]
    omega
  refine ⟨.mk ⟨t.start, (s.skip (2 * bs.length + 1)).lastStop⟩ (.errorNode .nestingTooDeep), ?_,
    Node.shape_mk _ _⟩
  unfold skipTooDeep
  rw [run_current, run_look (show position.run s = .ok s.position s from rfl), isCurrent]
  show (skipItem t >>= _).run { s with complaints := (t.start, .nestingTooDeep) :: s.complaints }
    = _
  rw [run_bind passed]
  show (if (s.skip (2 * bs.length + 1)).position = s.position then _ else _ : Parser Tree).run _ = _
  rw [if_neg moved, isStart]
  rfl

/-! ## §5. What stands around an operand. -/

section

variable (ends : endsOperand (s.past width heard).current = true)

include ends

theorem accept_operand {p : Punct} (other : p ∉ closers) :
    (accept p).run (s.past width heard) = .ok false (s.past width heard) :=
  accept_no (ne_of_beq_false (is_of_endsOperand ends other))

/-- **An operand in front of a token that ends it** is a unary expression. -/
theorem unary_operand (shallow : s.depth < maxNesting)
    (noOperator : unaryOperator? s.current (s.peek 1) = none) (noAngle : s.current.is .lt = false)
    (run : (primary g).run (s.atDepth (s.depth + 1))
      = .ok tree ((s.atDepth (s.depth + 1)).past width heard)) :
    (unary g).run s = .ok tree (s.past width heard) := by
  have ends' : endsOperand ((s.atDepth (s.depth + 1)).past width heard).current = true := ends
  have body : (unaryBody g).run (s.atDepth (s.depth + 1))
      = .ok tree ((s.atDepth (s.depth + 1)).past width heard) := by
    have noOperator' : unaryOperator? (s.atDepth (s.depth + 1)).current
        ((s.atDepth (s.depth + 1)).peek 1) = none := noOperator
    have noAngle' : (s.atDepth (s.depth + 1)).current.is .lt = false := noAngle
    unfold unaryBody
    rw [run_current, run_peek, noOperator', noAngle']
    show (stepped g).run _ = _
    unfold stepped
    -- Neither a member, a call nor a postfix operator follows.
    rw [run_bind run, run_bind (chain_stays ends' g true tree), run_current,
      isOneOf_of_endsOperand ends' (by decide)]
    rfl
  exact nested_run shallow body

/-- **A unary expression there** is a whole expression. -/
theorem assignment_operand (shallow : s.depth < maxNesting)
    (noArrow : Lookahead.arrowAhead s.ahead = false)
    (run : (unary g).run (s.atDepth (s.depth + 1))
      = .ok tree ((s.atDepth (s.depth + 1)).past width heard)) :
    (assignment g).run s = .ok tree (s.past width heard) := by
  have ends' : endsOperand ((s.atDepth (s.depth + 1)).past width heard).current = true := ends
  have whole : (conditional g).run (s.atDepth (s.depth + 1))
      = .ok tree ((s.atDepth (s.depth + 1)).past width heard) := by
    have left : (binary g 0).run (s.atDepth (s.depth + 1))
        = .ok tree ((s.atDepth (s.depth + 1)).past width heard) := by
      unfold binary
      rw [run_bind run, binaryRest_stays ends']
    unfold conditional
    rw [run_bind left, run_bind (accept_operand ends' (by decide))]
    rfl
  have body : (assignmentBody g).run (s.atDepth (s.depth + 1))
      = .ok tree ((s.atDepth (s.depth + 1)).past width heard) := by
    show (if Lookahead.arrowAhead s.ahead then arrowFunction g else _ : Parser Tree).run _ = _
    rw [noArrow, if_neg Bool.false_ne_true, run_bind whole, run_current,
      assignOperator?_of_endsOperand ends']
    rfl
  exact nested_run shallow body

end

/-! ## §6. Brackets. -/

/-- Where the word `in` is an operator, it stays one. -/
theorem allowingIn_run {α : Type} {p : Parser α} {a : α} {s₁ : ParserState}
    (allowed : s.noIn = false) (run : p.run s = .ok a s₁) (kept : s₁.noIn = false) :
    (allowingIn p).run s = .ok a s₁ := by
  -- The flag is set to what it was, and given back unchanged.
  have same : { s with noIn := false } = s := by
    rw [← allowed]
  show (p >>= _).run { s with noIn := false } = _
  rw [same, run_bind run]
  show EStateM.Result.ok a { s₁ with noIn := s.noIn } = _
  rw [allowed, ← kept]

/-- The punctuator that is expected comes next. -/
theorem expect_run {p : Punct} (isNext : (s.past width heard).current.lexeme = .punct p) :
    (expect p).run (s.past width heard) = .ok true (s.past (width + 1) heard) := by
  unfold expect
  rw [run_bind (accept_yes isNext), ParserState.past_skip]
  rfl

/-- **An expression in parentheses.** -/
theorem parenthesized_run (allowed : s.noIn = false)
    (run : g.assignment.run (s.skip 1) = .ok tree ((s.skip 1).past width heard))
    (closes : ((s.skip 1).past width heard).current.lexeme = .punct .closeParen) :
    ∃ span, (parenthesized g).run s
      = .ok (.mk span (.parenthesized tree)) ((s.skip 1).past (width + 1) heard) := by
  have noComma : (accept .comma).run ((s.skip 1).past width heard)
      = .ok false ((s.skip 1).past width heard) :=
    accept_other closes (by decide)
  have inner : (expression g).run (s.skip 1) = .ok tree ((s.skip 1).past width heard) := by
    unfold expression
    rw [run_bind run]
    apply iterate_stays
    rw [run_bind noComma]
    rfl
  have within : (allowingIn (expression g)).run (s.skip 1)
      = .ok tree ((s.skip 1).past width heard) :=
    allowingIn_run allowed inner allowed
  refine ⟨⟨s.current.start, ((s.skip 1).past (width + 1) heard).lastStop⟩, ?_⟩
  unfold parenthesized
  rw [run_bind (show advance.run s = .ok s.current (s.skip 1) from rfl), run_bind within,
    run_bind (discard_run (expect_run closes))]
  rfl

/-- One round of the loop over the elements of an array. -/
def elementsRound (g : Grammar) (elements : List (Option Tree)) :
    Parser (Round (List (Option Tree)) (List (Option Tree))) := do
  let t ← current
  if t.isEnd || t.is .closeBracket then return .finish elements.reverse
  if ← accept .comma then return .again (none :: elements)
  let before ← position
  let item ← element g
  if (← position) = before then return .finish elements.reverse
  unless ← accept .comma do
    unless (← current).is .closeBracket do complain (.expectedSeparator .closeBracket)
  return .again (some item :: elements)

theorem elementsRound_finish {elements : List (Option Tree)}
    (closes : s.current.lexeme = .punct .closeBracket) :
    (elementsRound g elements).run s = .ok (.finish elements.reverse) s := by
  have isClosed : s.current.is .closeBracket = true := by
    rw [Token.is, closes]
    exact beq_self_eq_true _
  unfold elementsRound
  rw [run_current, isClosed, Bool.or_true, if_pos rfl]
  rfl

/-- A last element, with the closing bracket behind it. -/
theorem elementsRound_again {elements : List (Option Tree)} (more : s.current.isEnd = false)
    (begins : ∀ p ∈ [Punct.closeBracket, .comma, .ellipsis], s.current.lexeme ≠ .punct p)
    (run : g.assignment.run s = .ok tree (s.past width heard))
    (closes : (s.past width heard).current.lexeme = .punct .closeBracket)
    (moves : s.position < (s.past width heard).position) :
    (elementsRound g elements).run s
      = .ok (.again (some tree :: elements)) (s.past width heard) := by
  have notClosed : s.current.is .closeBracket = false := beq_false_of_ne (begins _ (by decide))
  have isClosed : (s.past width heard).current.is .closeBracket = true := by
    rw [Token.is, closes]
    exact beq_self_eq_true _
  have noComma : (accept .comma).run (s.past width heard) = .ok false (s.past width heard) :=
    accept_other closes (by decide)
  have item : (element g).run s = .ok tree (s.past width heard) := by
    unfold element
    rw [run_current, run_bind (accept_no (begins .ellipsis (by decide)))]
    exact run
  unfold elementsRound
  rw [run_current, more, notClosed, Bool.or_false, if_neg Bool.false_ne_true,
    run_bind (accept_no (begins .comma (by decide))), if_neg Bool.false_ne_true,
    run_look (show position.run s = .ok s.position s from rfl), run_bind item,
    run_look (show position.run (s.past width heard) = .ok _ _ from rfl),
    if_neg (Nat.ne_of_gt moves), run_bind noComma]
  dsimp only
  rw [if_neg Bool.false_ne_true, run_current, isClosed]
  rfl

/-- **An array with a single element.**  The loop over its elements has two rounds. -/
theorem arrayLiteral_run (more : (s.skip 1).current.isEnd = false)
    (begins : ∀ p ∈ [Punct.closeBracket, .comma, .ellipsis],
      (s.skip 1).current.lexeme ≠ .punct p)
    (run : g.assignment.run (s.skip 1) = .ok tree ((s.skip 1).past width heard))
    (closes : ((s.skip 1).past width heard).current.lexeme = .punct .closeBracket)
    (moves : (s.skip 1).position < ((s.skip 1).past width heard).position)
    (inside : ((s.skip 1).past width heard).position ≤ s.total) :
    ∃ span, (arrayLiteral g).run s
      = .ok (.mk span (.arrayLiteral [some tree])) ((s.skip 1).past (width + 1) heard) := by
  have elements : (iterate (elementsRound g) []).run (s.skip 1)
      = .ok [some tree] ((s.skip 1).past width heard) :=
    (Loops.again (elementsRound_again more begins run closes moves) moves
      (.finish (elementsRound_finish closes) (Nat.le_refl _))).iterate inside
  refine ⟨⟨s.current.start, ((s.skip 1).past (width + 1) heard).lastStop⟩, ?_⟩
  show (iterate (elementsRound g) [] >>= _).run (s.skip 1) = _
  rw [run_bind elements, run_bind (discard_run (expect_run closes))]
  rfl

/-- The complaints about the brackets. -/
def complaintsWithin (room start : Nat) (bs : List BracketKind) : List (Nat × Complaint) :=
  if bs.length < room then [] else [(start + room, .nestingTooDeep)]

theorem complaintsWithin_inner (room start : Nat) (b : BracketKind) (bs : List BracketKind) :
    complaintsWithin room (start + 1) bs = complaintsWithin (room + 1) start (b :: bs) := by
  unfold complaintsWithin
  rw [List.length_cons, Nat.add_right_comm, Nat.add_assoc start]
  by_cases few : bs.length < room
  · rw [if_pos few, if_pos (Nat.succ_lt_succ few)]
  · rw [if_neg few, if_neg (fun fewer => few (Nat.lt_of_succ_lt_succ fewer))]

/-- A pair of brackets around what is read inside. -/
theorem primary_bracket (nears : s.Nears room start (b :: bs))
    (run : g.assignment.run (s.skip 1) = .ok tree ((s.skip 1).past (2 * bs.length + 1) heard)) :
    ∃ tree', (primary g).run s = .ok tree' (s.past (2 * (b :: bs).length + 1) heard)
      ∧ tree'.shape = b.around tree.shape := by
  obtain ⟨t, rest, ahead, _⟩ := nears.ahead
  have isOpener : s.current = b.opening start := current_of_ahead ahead
  have closer := nears.closer heard
  have behind : (s.skip 1).past (2 * bs.length + 1 + 1) heard
      = s.past (2 * (b :: bs).length + 1) heard := by
    rw [ParserState.skip_past, List.length_cons]
    congr 1
    omega
  rw [← behind]
  unfold primary
  rw [run_current, isOpener]
  cases b with
  | round =>
      obtain ⟨span, read⟩ := parenthesized_run nears.noIn run closer
      exact ⟨.mk span (.parenthesized tree), read, Node.shape_mk _ _⟩
  | square =>
      obtain ⟨first, later, isFirst, _, more, begins⟩ := exists_first bs (start + 1)
      obtain ⟨c, others, aheadInside, _⟩ := nears.inner.ahead
      have isInside : (s.skip 1).current = first := by
        rw [isFirst] at aheadInside
        exact current_of_ahead aheadInside
      rw [← isInside] at more begins
      have total := nears.inner.total
      -- The loop over the elements moves on, and stays inside the text.
      have enough : 2 * bs.length + 1 < (s.skip 1).ahead.length := by
        rw [aheadInside, List.length_append, length_tokensWithin, List.length_cons]
        omega
      have moves : (s.skip 1).position < ((s.skip 1).skip (2 * bs.length + 1)).position := by
        rw [ParserState.skip_position (s.skip 1)]
        omega
      have inside : ((s.skip 1).skip (2 * bs.length + 1)).position ≤ (s.skip 1).total := by
        rw [ParserState.skip_position (s.skip 1)]
        omega
      obtain ⟨span, read⟩ := arrayLiteral_run more begins run closer moves inside
      exact ⟨.mk span (.arrayLiteral [some tree]), read, Node.shape_mk _ _⟩

/-- The number alone. -/
theorem primary_number (nears : s.Nears room start []) :
    ∃ tree, (primary g).run s = .ok tree (s.past 1 [])
      ∧ tree.shape = .mk () (.numericLiteral "1") := by
  obtain ⟨t, rest, ahead, _⟩ := nears.ahead
  have isNumber : s.current = ⟨.number "1", start, start + 1, false⟩ := current_of_ahead ahead
  refine ⟨leaf s.current (.numericLiteral "1"), ?_, Node.shape_mk _ _⟩
  unfold primary
  rw [run_current, isNumber]
  show numericLiteral.run s = _
  unfold numericLiteral
  rw [run_bind (show advance.run s = .ok s.current (s.skip 1) from rfl), isNumber]
  rfl

/-- **An operand in the place of an expression,** two levels deeper. -/
theorem assignment_of_primary (nears : s.Nears (room + 1) start bs)
    (run : (primary g).run (s.atDepth (s.depth + 2))
      = .ok tree ((s.atDepth (s.depth + 2)).past (2 * bs.length + 1) heard)) :
    (assignment g).run s = .ok tree (s.past (2 * bs.length + 1) heard) := by
  obtain ⟨t, rest, ahead, _⟩ := nears.ahead
  have ends := endsOperand_closing (nears.behind heard)
  have depth := nears.depth
  have noOperator : unaryOperator? s.current (s.peek 1) = none ∧ s.current.is .lt = false := by
    cases bs with
    | nil =>
        rw [current_of_ahead ahead]
        exact ⟨rfl, rfl⟩
    | cons b bs =>
        rw [current_of_ahead ahead]
        cases b <;> exact ⟨rfl, rfl⟩
  refine assignment_operand ends (show s.depth < maxNesting by omega) (arrowAhead_nears nears) ?_
  exact unary_operand ends (show s.depth + 1 < maxNesting by omega) noOperator.1 noOperator.2 run

/-- **Where no bracket may be opened,** all of it is passed over. -/
theorem assignment_of_tooDeep (nears : s.Nears 0 start bs) :
    ∃ tree, (assignment g).run s = .ok tree (s.past (2 * bs.length + 1) [(start, .nestingTooDeep)])
      ∧ tree.shape = .mk () (.errorNode .nestingTooDeep) := by
  obtain ⟨t, rest, ahead, _⟩ := nears.ahead
  have ends := endsOperand_closing (nears.behind [(start, .nestingTooDeep)])
  have depth := nears.depth
  have deeper : (s.atDepth (s.depth + 1)).ahead = tokensWithin start bs ++ t :: rest := ahead
  obtain ⟨tree, passed, isError⟩ := skipTooDeep_within deeper
  refine ⟨tree, assignment_operand ends (show s.depth < maxNesting by omega)
    (arrowAhead_nears nears) ?_, isError⟩
  show (if s.depth + 1 ≥ maxNesting then skipTooDeep else _ : Parser Tree).run _ = _
  rw [if_pos (show s.depth + 1 ≥ maxNesting by omega)]
  exact passed

/-- **Brackets are read up to the limit of nesting,** and what is deeper is passed over.  The
induction is on the brackets, each of which takes two levels. -/
theorem assignment_within {budget : Nat} (nears : s.Nears room start bs) (enough : room ≤ budget) :
    ∃ tree, (assignment (.ofBudget budget)).run s
        = .ok tree (s.past (2 * bs.length + 1) (complaintsWithin room start bs))
      ∧ tree.shape = shapeWithin room bs := by
  induction bs generalizing room budget start s with
  | nil =>
      cases room with
      | zero => exact assignment_of_tooDeep nears
      | succ room =>
          obtain ⟨tree, read, isNumber⟩ := @primary_number (.ofBudget budget) _ _ _ nears.deeper
          exact ⟨tree, assignment_of_primary nears read, isNumber⟩
  | cons b bs ih =>
      cases room with
      | zero => exact assignment_of_tooDeep nears
      | succ room =>
          -- Two of the levels are taken here, and one round of the budget.
          obtain ⟨fewer, rfl⟩ := Nat.exists_eq_add_of_le' (Nat.one_le_of_lt enough)
          obtain ⟨inner, read, isInner⟩ := ih nears.deeper.inner (Nat.le_of_succ_le_succ enough)
          rw [complaintsWithin_inner room start b bs] at read
          obtain ⟨tree, whole, isAround⟩ :=
            @primary_bracket (.ofBudget (fewer + 1)) _ _ _ _ _ _ _ nears.deeper read
          refine ⟨tree, assignment_of_primary nears whole, ?_⟩
          rw [isAround, isInner]
          rfl

/-! ## §7. Declarations. -/

end Parser

/-- The declaration of a name with a value. -/
def Shape.declared (name : Text) (value : Shape) : Shape :=
  .mk () (.variableStatement .const
    [.mk () (.variableDeclarator (.mk () (.identifier name)) (some value))])

/-- **A declaration of the brackets comes next,** at the top of a program. -/
structure ParserState.NearsDeclaration (s : ParserState) (name : Text) (start : Nat)
    (bs : List BracketKind) (rest : List Token) : Prop where
  ahead : ∃ keyword word assign semicolon : Token,
    s.ahead = keyword :: word :: assign :: (BracketKind.tokensWithin start bs ++ semicolon :: rest)
      ∧ keyword.lexeme = .word "const" ∧ word.lexeme = .word name
      ∧ assign.lexeme = .punct .assign ∧ semicolon.lexeme = .punct .semicolon
  plain : name ≠ "enum"
  depth : s.depth = 0
  noIn : s.noIn = false
  total : s.position + s.ahead.length = s.total

namespace ParserState.NearsDeclaration

variable {s : ParserState} {name : Text} {start : Nat} {bs : List BracketKind} {rest : List Token}
  (nears : s.NearsDeclaration name start bs rest)

include nears

theorem length_eq : s.ahead.length = 2 * bs.length + 5 + rest.length := by
  obtain ⟨keyword, word, assign, semicolon, ahead, _⟩ := nears.ahead
  rw [ahead]
  simp only [List.length_cons, List.length_append, BracketKind.length_tokensWithin]
  omega

theorem more : s.current.isEnd = false := by
  obtain ⟨keyword, word, assign, semicolon, ahead, isConst, _⟩ := nears.ahead
  rw [Parser.current_of_ahead ahead, Token.isEnd, isConst]
  rfl

theorem moves (heard : List (Nat × Complaint)) :
    s.position < (s.past (2 * bs.length + 5) heard).position := by
  show s.position < (s.skip (2 * bs.length + 5)).position
  rw [skip_position, nears.length_eq]
  omega

theorem inside (heard : List (Nat × Complaint)) :
    (s.past (2 * bs.length + 5) heard).position ≤ s.total := by
  have total := nears.total
  show (s.skip (2 * bs.length + 5)).position ≤ s.total
  rw [skip_position]
  omega

/-- Behind it there may be another one. -/
theorem another (heard : List (Nat × Complaint)) {name' : Text} {start' : Nat}
    {bs' : List BracketKind} {rest' : List Token} {keyword word assign semicolon : Token}
    (isRest : rest = keyword :: word :: assign
      :: (BracketKind.tokensWithin start' bs' ++ semicolon :: rest'))
    (lexemes : keyword.lexeme = .word "const" ∧ word.lexeme = .word name'
      ∧ assign.lexeme = .punct .assign ∧ semicolon.lexeme = .punct .semicolon)
    (plain : name' ≠ "enum") :
    (s.past (2 * bs.length + 5) heard).NearsDeclaration name' start' bs' rest' := by
  obtain ⟨keyword', word', assign', semicolon', ahead, _⟩ := nears.ahead
  have behind : s.ahead.drop (2 * bs.length + 5) = rest := by
    rw [ahead, show 2 * bs.length + 5 = 3 + ((2 * bs.length + 1) + 1) by omega, ← List.drop_drop,
      ← List.drop_drop]
    show ((BracketKind.tokensWithin start bs ++ semicolon' :: rest).drop
      (2 * bs.length + 1)).drop 1 = _
    rw [List.drop_left' (BracketKind.length_tokensWithin bs start)]
    rfl
  refine ⟨⟨keyword, word, assign, semicolon, behind.trans isRest, lexemes⟩, plain, nears.depth,
    nears.noIn, ?_⟩
  have total := nears.total
  have length := nears.length_eq
  show (s.skip (2 * bs.length + 5)).position + (s.ahead.drop (2 * bs.length + 5)).length = s.total
  rw [skip_position, List.length_drop]
  omega

end ParserState.NearsDeclaration

namespace Parser

open BracketKind

variable {g : Grammar} {s : ParserState} {bs : List BracketKind} {start width : Nat} {name : Text}
  {heard : List (Nat × Complaint)} {tree : Tree} {rest : List Token} {keyword word assign : Token}

/-- A name that is declared. -/
theorem bindingTarget_name (isName : s.current.lexeme = .word name) :
    (bindingTarget g).run s = .ok (leaf s.current (.identifier name)) (s.skip 1) := by
  have others : s.current.is .openBrace = false ∧ s.current.is .openBracket = false
      ∧ s.current.isWord = true := by
    unfold Token.is Token.isWord
    rw [isName]
    exact ⟨rfl, rfl, rfl⟩
  have taken : advance.run s = .ok s.current (s.skip 1) := rfl
  unfold bindingTarget
  rw [run_current, others.1, others.2.1, others.2.2, if_neg Bool.false_ne_true,
    if_neg Bool.false_ne_true, if_pos rfl]
  unfold identifier
  rw [run_bind taken, isName]
  rfl

section

variable (ahead : s.ahead = keyword :: word :: assign :: rest) (isName : word.lexeme = .word name)
  (isAssign : assign.lexeme = .punct .assign)

include ahead isName isAssign

/-- A declarator without a type, behind its keyword. -/
theorem variableDeclarator_run
    (run : g.assignment.run (s.skip 3) = .ok tree (s.past (3 + width) heard)) :
    ∃ span, (variableDeclarator g).run (s.skip 1)
      = .ok (.mk span (.variableDeclarator (leaf word (.identifier name)) (some tree)))
          (s.past (3 + width) heard) := by
  have isWord : (s.skip 1).current = word := by
    have behind : (s.skip 1).ahead = word :: assign :: rest := by
      show s.ahead.drop 1 = _
      rw [ahead]
      rfl
    exact current_of_ahead behind
  have behind : (s.skip 2).ahead = [] ++ assign :: rest := by
    show s.ahead.drop 2 = _
    rw [ahead]
    rfl
  have isNext : (s.skip 2).current.lexeme = .punct .assign := by
    rw [current_of_ahead behind, isAssign]
  have target := @bindingTarget_name g (s.skip 1) name (by rw [isWord, isName])
  rw [isWord, ParserState.skip_skip] at target
  have noType := isTyping_nil (s.skip 2) rest assign behind isAssign
  have value : (initializer g).run (s.skip 2) = .ok (some tree) (s.past (3 + width) heard) := by
    unfold initializer
    rw [run_bind (accept_yes isNext), ParserState.skip_skip, if_pos rfl, run_bind run]
    rfl
  refine ⟨⟨word.start, (s.past (3 + width) heard).lastStop⟩, ?_⟩
  unfold variableDeclarator
  rw [run_bind target, ← bind_assoc, run_bind noType]
  exact run_bind value _

omit isAssign in
/-- The word `const` in front of a name begins a declaration. -/
theorem statementBody_const (isConst : keyword.lexeme = .word "const") (plain : name ≠ "enum") :
    (statementBody g).run s = (variableStatement g .const false).run s := by
  have isNext : s.peek 1 = word := by
    unfold ParserState.peek
    rw [ahead]
    rfl
  have binds : bindingKeyword? keyword word = some .const := by
    unfold bindingKeyword? Token.isTheWord
    rw [isConst]
    rfl
  have noEnum : word.isTheWord "enum" = false := by
    unfold Token.isTheWord
    rw [isName]
    exact beq_false_of_ne fun same => plain (Lexeme.word.inj same)
  unfold statementBody
  rw [run_current, current_of_ahead ahead, isConst]
  show (wordStatement g keyword "const").run s = _
  unfold wordStatement
  rw [run_peek, isNext, binds]
  show (if BindingKeyword.const = .const && word.isTheWord "enum" then _
    else variableStatement g .const false : Parser Tree).run s = _
  rw [noEnum, Bool.and_false, if_neg Bool.false_ne_true]

/-- **A whole declaration.** -/
theorem declaration_run (isConst : keyword.lexeme = .word "const") (plain : name ≠ "enum")
    (run : g.assignment.run (s.skip 3) = .ok tree (s.past (3 + width) heard))
    (ends : (s.past (3 + width) heard).current.lexeme = .punct .semicolon) :
    ∃ tree', (statementBody g).run s = .ok tree' (s.past (3 + width + 1) heard)
      ∧ tree'.shape = Shape.declared name tree.shape := by
  obtain ⟨span, declarator⟩ := variableDeclarator_run ahead isName isAssign run
  -- Without a comma the loop over the declarators ends after the first one.
  have noComma : (accept .comma).run (s.past (3 + width) heard)
      = .ok false (s.past (3 + width) heard) :=
    accept_other ends (by decide)
  have declarators : (iterate (declaratorsRound g) []).run (s.skip 1)
      = .ok [.mk span (.variableDeclarator (leaf word (.identifier name)) (some tree))]
          (s.past (3 + width) heard) := by
    refine Consumes.iterateFor_finish ?_
    unfold declaratorsRound
    rw [run_bind declarator, run_bind noComma]
    rfl
  have closed := discard_run (accept_yes ends)
  rw [ParserState.past_skip] at closed
  refine ⟨.mk ⟨keyword.start, (s.past (3 + width + 1) heard).lastStop⟩ (.variableStatement .const
    [.mk span (.variableDeclarator (leaf word (.identifier name)) (some tree))]), ?_, ?_⟩
  · rw [statementBody_const ahead isName isConst plain]
    unfold variableStatement
    rw [run_bind (show advance.run s = .ok s.current (s.skip 1) from rfl), current_of_ahead ahead]
    refine (run_bind declarators _).trans ?_
    rw [if_neg Bool.false_ne_true, run_bind closed]
    rfl
  · rw [Node.shape_mk, Form.map, List.map_singleton, Node.shape_mk, Form.map, leaf, Node.shape_mk]
    rfl

end

/-- **The statement that declares the brackets.** -/
theorem statement_declared {budget : Nat} (nears : s.NearsDeclaration name start bs rest)
    (enough : 49 ≤ budget) :
    ∃ tree, (statement (.ofBudget (budget + 1))).run s
        = .ok tree (s.past (2 * bs.length + 5) (complaintsWithin 49 start bs))
      ∧ tree.shape = Shape.declared name (shapeWithin 49 bs) := by
  obtain ⟨keyword, word, assign, semicolon, ahead, isConst, isName, isAssign, isEnd⟩ := nears.ahead
  have atTop := nears.depth
  have total := nears.total
  have length := nears.length_eq
  -- The statement takes the first level, so the value has room for 49 brackets.
  have value : ((s.atDepth 1).skip 3).Nears 49 start bs := by
    refine ⟨⟨semicolon, rest, ?_, ⟨_, by decide, isEnd⟩⟩, rfl, nears.noIn, ?_⟩
    · show s.ahead.drop 3 = _
      rw [ahead]
      rfl
    · show s.position + (s.ahead.take 3).length + (s.ahead.drop 3).length = s.total
      rw [List.length_take, List.length_drop]
      omega
  obtain ⟨tree, read, isValue⟩ := assignment_within value enough
  rw [ParserState.skip_past] at read
  have behind : ((s.atDepth 1).past (3 + (2 * bs.length + 1)) (complaintsWithin 49 start bs)).ahead
      = semicolon :: rest := by
    show s.ahead.drop (3 + (2 * bs.length + 1)) = _
    rw [ahead, ← List.drop_drop]
    exact List.drop_left' (length_tokensWithin bs start)
  have ends := (congrArg Token.lexeme (current_of_ahead behind)).trans isEnd
  obtain ⟨tree', body, isDeclared⟩ := @declaration_run (.ofBudget (budget + 1)) (s.atDepth 1)
    _ _ _ _ _ _ _ _ ahead isName isAssign isConst nears.plain read ends
  have shallow : s.depth < maxNesting := by
    rw [atTop]
    decide
  have deeper : s.atDepth (s.depth + 1) = s.atDepth 1 := by rw [atTop]
  have width : 3 + (2 * bs.length + 1) + 1 = 2 * bs.length + 5 := by omega
  refine ⟨tree', ?_, by rw [isDeclared, isValue]⟩
  rw [← deeper, width] at body
  exact nested_run shallow body

/-! ## §8. Programs. -/

/-- A statement that takes tokens is followed by others, up to the end of the text. -/
theorem statementsRound_again {read : List Tree} {s₁ : ParserState} (more : s.current.isEnd = false)
    (run : g.statement.run s = .ok tree s₁) (moves : s.position < s₁.position) :
    (statementsRound g none [] read).run s = .ok (.again (tree :: read)) s₁ := by
  rw [statementsRound_goesOn more, run_bind run,
    run_look (show position.run s₁ = .ok s₁.position s₁ from rfl), if_neg (Nat.ne_of_gt moves)]
  rfl

/-- At the end of the text the statements end. -/
theorem statementsRound_finish {read : List Tree} (noMore : s.current.isEnd = true) :
    (statementsRound g none [] read).run s = .ok (.finish read.reverse) s := by
  unfold statementsRound
  rw [run_current, noMore]
  rfl

/-- **Two declarations** make up the program. -/
theorem statements_declared {budget start' : Nat} {name' : Text} {bs' : List BracketKind}
    (nears : s.NearsDeclaration name start bs rest)
    (nears' : (s.past (2 * bs.length + 5) (complaintsWithin 49 start bs)).NearsDeclaration name'
      start' bs' [])
    (final : s.final.isEnd = true) (enough : 49 ≤ budget) :
    ∃ trees, (statements (.ofBudget (budget + 2)) none []).run s
        = .ok trees (s.past (2 * bs.length + 5 + (2 * bs'.length + 5))
            (complaintsWithin 49 start' bs' ++ complaintsWithin 49 start bs))
      ∧ trees.map Node.shape
        = [Shape.declared name (shapeWithin 49 bs), Shape.declared name' (shapeWithin 49 bs')] := by
  obtain ⟨first, read, isFirst⟩ := statement_declared nears enough
  obtain ⟨second, read', isSecond⟩ := statement_declared nears' enough
  have noMore : (s.past (2 * bs.length + 5 + (2 * bs'.length + 5))
      (complaintsWithin 49 start' bs' ++ complaintsWithin 49 start bs)).current.isEnd = true := by
    -- Both declarations together are all that is ahead.
    have isEmpty : s.ahead.drop (2 * bs.length + 5 + (2 * bs'.length + 5)) = [] := by
      rw [← List.drop_drop]
      exact List.drop_eq_nil_of_le (Nat.le_of_eq nears'.length_eq)
    show ((s.ahead.drop _).head?.getD s.final).isEnd = true
    rw [isEmpty]
    exact final
  have moves' := nears'.moves (complaintsWithin 49 start' bs')
  have inside := nears'.inside (complaintsWithin 49 start' bs')
  rw [ParserState.past_past] at read' moves' inside
  refine ⟨[first, second], ?_, ?_⟩
  · rw [statements_eq]
    exact (Loops.again (statementsRound_again nears.more read (nears.moves _)) (nears.moves _)
      (.again (statementsRound_again nears'.more read' moves') moves'
        (.finish (statementsRound_finish noMore) (Nat.le_refl _)))).iterate inside
  · rw [List.map_cons, List.map_singleton, isFirst, isSecond]

end Parser

/-! ## §9. Texts. -/

open Scan BracketKind

/-- A number in brackets, and another declaration behind it. -/
def deepText (bs : List BracketKind) : Text :=
  "const x = " ++ textWithin bs ++ ";\nconst y = 1;"

/-- The tokens behind the brackets. -/
def tokensBehind (start : Nat) : List Token :=
  [⟨.punct .semicolon, start, start + 1, false⟩, ⟨.word "const", start + 2, start + 7, true⟩,
   ⟨.word "y", start + 8, start + 9, false⟩, ⟨.punct .assign, start + 10, start + 11, false⟩]
  ++ (tokensWithin (start + 12) []
    ++ [⟨.punct .semicolon, start + 13, start + 14, false⟩])

theorem tokensBehind_shift (distance : Nat) :
    (tokensBehind 0).map (Token.shift distance) = tokensBehind distance := by
  simp only [tokensBehind, tokensWithin, Token.shift, List.cons_append, List.nil_append,
    List.map_cons, List.map_nil, Nat.add_comm, Nat.add_left_comm, Nat.zero_add, Nat.reduceAdd]
  rfl

/-- What stands behind the brackets is cut in the same way wherever it stands.  Of the token in
front it only matters that no regular expression may follow. -/
theorem tokensFrom_behind {last : Lexeme} (noRegex : regexAllowed (some last) = false)
    (distance : Nat) :
    tokensFrom ⟨[], some last, false⟩ 0 distance ";\nconst y = 1;"
      = .ok (tokensBehind distance ++ [Token.shift distance ⟨.endOfText, 14, 14, false⟩]) := by
  have same : regexAllowed (some last) = regexAllowed (some (.number "1")) := noRegex
  have atStart : tokensFrom ⟨[], some (.number "1"), false⟩ 0 0 ";\nconst y = 1;"
      = .ok (tokensBehind 0 ++ [⟨.endOfText, 14, 14, false⟩]) :=
    eq_ok_of_toOption (by decide +kernel)
  have moved := tokensFrom_shift ⟨[], some (.number "1"), false⟩ 0 distance ";\nconst y = 1;"
  rw [atStart, Nat.zero_add] at moved
  rw [tokensFrom_congr same, moved]
  show Except.ok (List.map _ (tokensBehind 0 ++ [_])) = _
  rw [List.map_append, tokensBehind_shift]
  rfl

/-- **The text is cut into the tokens of two declarations.** -/
theorem tokenize_deepText (bs : List BracketKind) :
    ∃ front, (∀ later, Parser.Declares [] later (front ++ later))
      ∧ tokenize (deepText bs) = .ok (front ++ (tokensWithin 10 bs
          ++ tokensBehind (10 + (2 * bs.length + 1)))
        ++ [Token.shift (10 + (2 * bs.length + 1)) ⟨.endOfText, 14, 14, false⟩]) := by
  have isText : deepText bs = untypedText (textWithin bs ++ ";\nconst y = 1") := by
    unfold deepText untypedText
    rw [List.append_assoc, List.append_assoc, List.append_assoc]
    rfl
  obtain ⟨front, declares, cut⟩ := tokenize_untypedText (textWithin bs ++ ";\nconst y = 1")
  refine ⟨front, declares, ?_⟩
  have isBehind : (textWithin bs ++ (";\nconst y = 1" : Text)) ++ (";" : Text)
      = textWithin bs ++ CodePoint.scalar ';' :: ("\nconst y = 1;" : Text) :=
    List.append_assoc _ _ _
  obtain ⟨last, noRegex, within⟩ := @tokensFrom_textWithin "\nconst y = 1;" (.scalar ';')
    (by decide) [] bs (some (.punct .assign)) 10
  rw [isText, cut, isBehind]
  change (tokensFrom ⟨[], some (.punct .assign), false⟩ 0 10 _).map _ = _
  rw [within]
  change ((tokensFrom ⟨[], some last, false⟩ 0 (10 + (2 * bs.length + 1))
    ";\nconst y = 1;").map _).map _ = _
  rw [tokensFrom_behind noRegex]
  simp only [Except.map, List.append_assoc]

/-- **Deep brackets do no harm to what stands behind them.**

However many brackets there are around the number, the program has two statements: the one
declares `x` with what there is room for, the other declares `y` with its number.  There is no
complaint, or just one, about the innermost part that is passed over. -/
theorem parse_deepText (bs : List BracketKind) :
    ∃ program, parse (deepText bs) = .ok program
      ∧ program.tree.shape = .mk () (.program
          [Shape.declared "x" (shapeWithin 49 bs),
            Shape.declared "y" (.mk () (.numericLiteral "1"))])
      ∧ program.complaints.map (fun c => (c.1, c.2.message))
        = if bs.length < 49 then [] else [(59, ("Nesting too deep" : Text))] := by
  obtain ⟨front, declares, scanned⟩ := tokenize_deepText bs
  obtain ⟨⟨keyword, others, isConst, split⟩, _, word, assign, isName, isAssign, isRest⟩ :=
    declares (tokensWithin 10 bs ++ tokensBehind (10 + (2 * bs.length + 1)))
  rw [split] at isRest scanned
  obtain rfl : others = word :: assign
      :: (tokensWithin 10 bs ++ tokensBehind (10 + (2 * bs.length + 1))) := isRest
  have nears : ParserState.NearsDeclaration
      (.start (keyword :: word :: assign
          :: (tokensWithin 10 bs ++ tokensBehind (10 + (2 * bs.length + 1))))
        (Token.shift (10 + (2 * bs.length + 1)) ⟨.endOfText, 14, 14, false⟩))
      "x" 10 bs ((tokensBehind (10 + (2 * bs.length + 1))).drop 1) :=
    ⟨⟨keyword, word, assign, _, rfl, isConst, isName, isAssign, rfl⟩, by decide, rfl, rfl,
      Nat.zero_add _⟩
  -- The second declaration is one without brackets.
  have nears' : ParserState.NearsDeclaration _ "y" (10 + (2 * bs.length + 1) + 12) [] [] :=
    nears.another (Parser.complaintsWithin 49 10 bs) rfl ⟨rfl, rfl, rfl, rfl⟩ (by decide)
  obtain ⟨trees, run, shapes⟩ :=
    Parser.statements_declared nears nears' rfl (show 49 ≤ parseBudget - 2 by decide)
  refine ⟨_, parse_layout ⟨_, _, _, scanned⟩, ?_⟩
  dsimp only
  rw [Parser.parseTokens_of_run run]
  refine ⟨?_, ?_⟩
  · rw [Node.shape_mk, Form.map, shapes]
    rfl
  · show (([] ++ Parser.complaintsWithin 49 10 bs ++ []).reverse).map _ = _
    unfold Parser.complaintsWithin
    split <;> rfl

end StackLint

/-
  StackLint.Proofs.View.Grammar
  ─────────────────────────────
  **THE RECURSIVE CONSTRUCTS FROM AFAR.**

  A grammar commutes with a view when its seven parsers do.  The lemmas here,
  and those about all other constructs, are about any such grammar.
-/
import StackLint.Proofs.View.Lookahead

namespace StackLint

/-- All parsers of the grammar see what a view shows, and no more. -/
structure Grammar.Commutes (v : View) (g : Grammar) : Prop where
  statement : Parser.Commutes v (Node.view v) g.statement g.statement
  assignment : Parser.Commutes v (Node.view v) g.assignment g.assignment
  unary : Parser.Commutes v (Node.view v) g.unary g.unary
  binary : ∀ minimum, Parser.Commutes v (Node.view v) (g.binary minimum) (g.binary minimum)
  primary : Parser.Commutes v (Node.view v) g.primary g.primary
  newExpression : Parser.Commutes v (Node.view v) g.newExpression g.newExpression
  bindingTarget : Parser.Commutes v (Node.view v) g.bindingTarget g.bindingTarget

namespace Parser

variable {v : View} {g : Grammar}

/-! ## §1. Names and literals. -/

theorem identifier_commutes : Commutes v (Node.view v) identifier identifier := by
  refine advance_commutes.bind fun t => ?_
  rw [Token.view_lexeme, Lexeme.view_value]
  exact leaf_commutes rfl

theorem stringLiteral_commutes (quote : Quote) (value : Text) :
    Commutes v (Node.view v) (stringLiteral quote value) (stringLiteral quote (v.name value)) := by
  exact advance_commutes.bind fun t => leaf_commutes rfl

theorem numericLiteral_commutes : Commutes v (Node.view v) numericLiteral numericLiteral := by
  refine advance_commutes.bind fun t => ?_
  rw [Token.view_lexeme, Lexeme.view_value]
  exact leaf_commutes rfl

theorem propertyName_commutes : Commutes v (Node.view v) propertyName propertyName := by
  refine current_commutes.bind fun t => ?_
  refine .ite (by rw [Token.view_isWord]) identifier_commutes ?_
  refine (complain_commutes .expectedPropertyName).bind fun _ => .pure (Node.mk_eq_view v rfl ?_)
  show Form.identifier [] = .identifier (v.name [])
  rw [v.name_eq_nil_iff.mpr rfl]

theorem propertyKey_commutes (sound : g.Commutes v) :
    Commutes v (Option.map (Node.view v)) (propertyKey g) (propertyKey g) := by
  refine current_commutes.bind fun t => ?_
  have computed : Commutes v (Option.map (Node.view v))
      (do
        if ← accept .openBracket then
          let expression ← g.assignment
          discard (expect .closeBracket)
          return some (← close t.start (.computedPropertyName expression))
        else return none)
      (do
        if ← accept .openBracket then
          let expression ← g.assignment
          discard (expect .closeBracket)
          return some (← close (v.offset t.start) (.computedPropertyName expression))
        else return none) := by
    refine (accept_commutes _).bind fun found => .ite Iff.rfl ?_ (.pure rfl)
    refine sound.assignment.bind fun expression => ?_
    refine (expect_commutes _).discard.bind fun _ => ?_
    exact (close_commutes rfl).bind fun _ => .pure rfl
  obtain ⟨lexeme, start, stop, newlineBefore⟩ := t
  cases lexeme with
  | word name => exact identifier_commutes.bind fun _ => .pure rfl
  | string quote value => exact (stringLiteral_commutes quote value).bind fun _ => .pure rfl
  | number raw => exact numericLiteral_commutes.bind fun _ => .pure rfl
  | _ => exact computed

theorem view_beginsPropertyKey (v : View) (t : Token) :
    beginsPropertyKey (t.view v) = beginsPropertyKey t := by
  simp [beginsPropertyKey]

theorem memberModifiers_commutes : Commutes v id memberModifiers memberModifiers := by
  refine current_commutes.bind fun t => ?_
  refine (peek_commutes 1).bind fun next => ?_
  have getter := t.view_isTheWord v (w := "get") (by decide)
  have setter := t.view_isTheWord v (w := "set") (by decide)
  have async := t.view_isTheWord v (w := "async") (by decide)
  simp only [view_beginsPropertyKey, getter, setter, async]
  exact .ite_then Iff.rfl (skip_commutes 1)
    ((accept_commutes .star).discard.bind fun _ => .pure rfl)

/-! ## §2. Lists. -/

theorem listOf_commutes {item item' : Parser Tree} (closer : Punct)
    (each : Commutes v (Node.view v) item item') :
    Commutes v (List.map (Node.view v)) (listOf closer item) (listOf closer item') := by
  refine .iterate (f := List.map (Node.view v)) rfl fun items => ?_
  refine current_commutes.bind fun t => ?_
  refine .ite ?_ (.finish items) ?_
  · rw [Token.view_isEnd, Token.view_is]
  refine position_commutes.bind fun before => ?_
  refine each.bind fun node => ?_
  refine position_commutes.bind fun after => ?_
  refine .ite position_eq_iff (.finish items) ?_
  refine (accept_commutes .comma).bind fun found => ?_
  refine .ite Iff.rfl (.pure rfl) ?_
  refine current_commutes.bind fun t => ?_
  refine .ite ?_ (.pure rfl) ((complain_commutes _).bind fun _ => .pure rfl)
  rw [Token.view_is]

theorem element_commutes (sound : g.Commutes v) :
    Commutes v (Node.view v) (element g) (element g) := by
  refine current_commutes.bind fun t => ?_
  refine (accept_commutes _).bind fun found => .ite Iff.rfl ?_ sound.assignment
  exact sound.assignment.bind fun _ => close_commutes rfl

theorem arguments_commutes (sound : g.Commutes v) :
    Commutes v (List.map (Node.view v)) (arguments g) (arguments g) := by
  refine (expect_commutes _).discard.bind fun _ => ?_
  refine (listOf_commutes _ (element_commutes sound)).bind fun items => ?_
  exact (expect_commutes _).discard.bind fun _ => .pure rfl

/-! ## §3. Expressions with commas. -/

theorem expression_commutes (sound : g.Commutes v) :
    Commutes v (Node.view v) (expression g) (expression g) := by
  refine sound.assignment.bind fun first => ?_
  refine .iterate (f := Node.view v) rfl fun left => ?_
  refine (accept_commutes _).bind fun found => .ite Iff.rfl ?_ (.pure rfl)
  refine sound.assignment.bind fun right => ?_
  rw [Node.view_info]
  exact (close_commutes rfl).bind fun _ => .pure rfl

/-! ## §4. Blocks. -/

/-- One round of the loop over statements. -/
def statementsRound (g : Grammar) (closer : Option Punct) (stopWords : List Text)
    (read : List Tree) : Parser (Round (List Tree) (List Tree)) := do
  let t ← current
  if t.isEnd || closer.any t.is || t.isWordIn stopWords then return .finish read.reverse
  let before ← position
  let statement ← g.statement
  if (← position) = before then
    let t ← advance
    let complaint := Complaint.unexpectedToken t.lexeme.value
    complainAt t.start complaint
    return .again (leaf t (.errorNode complaint) :: read)
  return .again (statement :: read)

theorem statements_eq (g : Grammar) (closer : Option Punct) (stopWords : List Text) :
    statements g closer stopWords = iterate (statementsRound g closer stopWords) [] :=
  rfl

theorem statementsRound_commutes (sound : g.Commutes v) (closer : Option Punct)
    {stopWords : List Text} (kept : ∀ w ∈ stopWords, Reserved w) (read : List Tree) :
    Commutes v (Round.map (List.map (Node.view v)) (List.map (Node.view v)))
      (statementsRound g closer stopWords read)
      (statementsRound g closer stopWords (read.map (Node.view v))) := by
  refine current_commutes.bind fun t => ?_
  refine .ite ?_ (.finish read) ?_
  · have closes : (t.view v).is = t.is := funext fun p => t.view_is v p
    rw [Token.view_isEnd, t.view_isWordIn v kept, closes]
  refine position_commutes.bind fun before => ?_
  refine sound.statement.bind fun statement => ?_
  refine position_commutes.bind fun after => ?_
  refine .ite position_eq_iff ?_ (.pure rfl)
  refine advance_commutes.bind fun t => ?_
  rw [Token.view_lexeme, Lexeme.view_value]
  refine (complainAt_commutes t.start (.unexpectedToken t.lexeme.value)).bind fun _ => .pure ?_
  show _ = Round.again (List.map (Node.view v) _)
  rw [List.map_cons, view_leaf]
  rfl

theorem statements_commutes (sound : g.Commutes v) (closer : Option Punct) {stopWords : List Text}
    (kept : ∀ w ∈ stopWords, Reserved w) :
    Commutes v (List.map (Node.view v)) (statements g closer stopWords)
      (statements g closer stopWords) :=
  .iterate rfl (statementsRound_commutes sound closer kept)

theorem block_commutes (sound : g.Commutes v) : Commutes v (Node.view v) (block g) (block g) := by
  refine current_commutes.bind fun t => ?_
  refine (expect_commutes _).bind fun found => .ite Iff.rfl ?_ (.pure ?_)
  · refine (statements_commutes sound _ (List.forall_mem_nil _)).bind fun read => ?_
    refine (expect_commutes _).discard.bind fun _ => ?_
    exact close_commutes rfl
  · rw [Node.view_mk]
    rfl

theorem optionalBlock_commutes (sound : g.Commutes v) :
    Commutes v (Option.map (Node.view v)) (optionalBlock g) (optionalBlock g) := by
  refine current_commutes.bind fun t => .ite ?_ ?_ (.pure rfl)
  · rw [Token.view_is]
  · exact (block_commutes sound).bind fun _ => .pure rfl

theorem initializer_commutes (sound : g.Commutes v) :
    Commutes v (Option.map (Node.view v)) (initializer g) (initializer g) := by
  refine (accept_commutes _).bind fun found => .ite Iff.rfl ?_ (.pure rfl)
  exact sound.assignment.bind fun _ => .pure rfl

end Parser

end StackLint

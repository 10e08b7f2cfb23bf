/-
  StackLint.Proofs.Termination.Grammar
  ────────────────────────────────────
  **WHEN THE RECURSIVE CONSTRUCTS END.**

  A grammar ends from a token on when its seven parsers do.  What reads a token
  before it uses the grammar ends one token earlier than the grammar; what does
  not ends where the grammar ends.
-/
import StackLint.Parse.Grammar
import StackLint.Proofs.Termination.Skip

namespace StackLint

/-- **A grammar whose parsers end**, from the token `q` on. -/
structure Grammar.Ends (g : Grammar) (L : Layout) (may : Halt → Prop) (q : Nat) : Prop where
  statement : Parser.Ends L may q g.statement
  assignment : Parser.Ends L may q g.assignment
  unary : Parser.Ends L may q g.unary
  binary : ∀ minimum, Parser.Ends L may q (g.binary minimum)
  primary : Parser.Ends L may q g.primary
  newExpression : Parser.EndsInside L may q g.newExpression
  bindingTarget : Parser.Ends L may q g.bindingTarget

theorem Grammar.Ends.later {g : Grammar} {L : Layout} {may : Halt → Prop} {q q' : Nat}
    (ends : g.Ends L may q) (le : q ≤ q') : g.Ends L may q' where
  statement := ends.statement.later le
  assignment := ends.assignment.later le
  unary := ends.unary.later le
  binary := fun minimum => (ends.binary minimum).later le
  primary := ends.primary.later le
  newExpression := fun s running => ends.newExpression s (running.widen le)
  bindingTarget := ends.bindingTarget.later le

namespace Parser

variable {L : Layout} {may : Halt → Prop} {q : Nat} {g : Grammar} {s : ParserState}

/-! ## §1. Names and literals. -/

theorem identifier_moves : Moves L may q identifier :=
  advance_moves.bind fun _ => .pure _

theorem identifier_ends : Ends L may q identifier :=
  advance_ends.bind fun _ => .pure _

theorem stringLiteral_ends (quote : Quote) (value : Text) :
    Ends L may q (stringLiteral quote value) :=
  advance_ends.bind fun _ => .pure _

theorem numericLiteral_ends : Ends L may q numericLiteral :=
  advance_ends.bind fun _ => .pure _

theorem propertyName_ends : Ends L may q propertyName :=
  .look (fun _ => rfl) fun _ => .ite identifier_ends ((complain_ends _).bind fun _ => .pure _)

theorem propertyKey_ends (ends : g.Ends L may (q + 1)) : Ends L may q (propertyKey g) := by
  refine .look (fun _ => rfl) fun t => ?_
  split
  · exact identifier_ends.bind fun _ => .pure _
  · exact (stringLiteral_ends _ _).bind fun _ => .pure _
  · exact numericLiteral_ends.bind fun _ => .pure _
  · refine .accept_then (ends.assignment.bind fun _ => ?_) (.pure _)
    exact (expect_ends _).discard.bind fun _ => (close_ends _ _).bind fun _ => .pure _

theorem memberModifiers_ends : Ends L may q memberModifiers :=
  .look (fun _ => rfl) fun _ => .look (fun _ => rfl) fun _ =>
    .ite ((skip_ends 1).bind fun _ => (accept_ends _).discard.bind fun _ => .pure _)
      ((accept_ends _).discard.bind fun _ => .pure _)

/-! ## §2. Lists. -/

/-- **A list of items ends,** as an item that takes no token is the last one. -/
theorem listOf_ends {item : Parser Tree} (closer : Punct) (each : Ends L may q item) :
    Ends L may q (listOf closer item) := by
  refine .iterate (fun items => ?_) _
  refine .look (fun _ => rfl) fun _ => .ite (.finish _) ?_
  intro s running
  refine .bind_position ?_
  refine (each s running).bind ?_
  intro node s₁ reads _
  have running₁ := running.reads reads
  refine .bind_position ?_
  refine .ite (fun _ => .pure reads.on fun _ never => nomatch never) fun goesOn => ?_
  have moved : s.position < s₁.position := by
    have le := reads.le
    omega
  refine Turns.of_ends ((accept_ends _).bind fun _ => .ite (.pure _) ?_) running₁ moved
  exact .look (fun _ => rfl) fun _ => .ite (.pure _) ((complain_ends _).bind fun _ => .pure _)

theorem element_ends (ends : Ends L may q g.assignment) : Ends L may q (element g) :=
  .look (fun _ => rfl) fun _ =>
    .accept_then ((ends.later (Nat.le_succ q)).bind fun _ => close_ends _ _) ends

/-- In front of a parenthesis, arguments take a token. -/
theorem arguments_goes (ends : g.Ends L may (q + 1)) (running : s.Running L q)
    (opens : s.current.is .openParen = true) :
    Goes L may (arguments g) s fun _ s' => s.position < s'.position := by
  rw [running.on.current] at opens
  have opened : Goes L may (discard (expect .openParen)) s fun _ s' =>
      s'.position = s.position + 1 := by
    refine (expect_goes running.on _).discard fun found s₁ expects => ?_
    cases found with
    | true => exact (expects.yes rfl).1
    | false =>
        rw [(expects.no rfl).2.1] at opens
        cases opens
  refine opened.bind fun _ s₁ reads one => ?_
  have moved : s.position < s₁.position := by omega
  refine Ends.behind ?_ (running.moved reads moved) moved
  refine (listOf_ends _ (element_ends ends.assignment)).bind fun _ => ?_
  exact (expect_ends _).discard.bind fun _ => .pure _

/-! ## §3. Expressions with commas. -/

theorem expression_ends (ends : Ends L may q g.assignment) : Ends L may q (expression g) := by
  refine ends.bind fun first => .iterate (fun left => ?_) _
  refine .accept_then ((ends.later (Nat.le_succ q)).bind fun _ => ?_) (.finish _)
  exact (close_ends _ _).bind fun _ => .pure _

/-! ## §4. Blocks. -/

/-- **A row of statements ends,** as a token that begins none is passed over.  What
stands behind it is the end of the text, the closer or a stop word. -/
theorem statements_goes (ends : Ends L may q g.statement) (closer : Option Punct)
    (stopWords : List Text) (running : s.Running L q) :
    Goes L may (statements g closer stopWords) s fun _ s' =>
      (s'.current.isEnd || closer.any s'.current.is || s'.current.isWordIn stopWords) = true := by
  refine .iterate (I := fun _ _ => True) running trivial ?_
  intro read s running _
  refine .bind_current ?_
  refine .ite (fun stops => .pure running.on ⟨stops, fun _ never => nomatch never⟩) fun goesOn => ?_
  rw [Bool.or_assoc] at goesOn
  have more := more_of_not_end running.on goesOn
  refine .bind_position ?_
  refine (ends s running).bind ?_
  intro statement s₁ reads _
  have running₁ := running.reads reads
  refine .bind_position ?_
  refine .ite (fun same => ?_) fun moved => ?_
  · -- The token itself is read, as no statement begins here.
    refine (advance_goes running₁ (by omega)).bind ?_
    rintro t s₂ reads₂ ⟨start, moved⟩
    rw [start]
    refine (complainAt_ends _ _ s₂ (running₁.reads reads₂)).bind fun _ s₃ reads₃ _ => ?_
    have le := reads₃.le
    exact .pure reads₃.on ⟨trivial, fun _ _ => by omega⟩
  · have le := reads.le
    exact .pure reads.on ⟨trivial, fun _ _ => by omega⟩

theorem statements_ends (ends : Ends L may q g.statement) (closer : Option Punct)
    (stopWords : List Text) : Ends L may q (statements g closer stopWords) :=
  fun _ running => (statements_goes ends closer stopWords running).mono fun _ _ _ _ => trivial

theorem block_ends (ends : g.Ends L may (q + 1)) : Ends L may q (block g) := by
  refine .look (fun _ => rfl) fun _ => .expect_then ?_ (.pure _)
  exact (statements_ends ends.statement _ _).bind fun _ =>
    (expect_ends _).discard.bind fun _ => close_ends _ _

theorem optionalBlock_ends (ends : g.Ends L may (q + 1)) : Ends L may q (optionalBlock g) :=
  .look (fun _ => rfl) fun _ => .ite ((block_ends ends).bind fun _ => .pure _) (.pure _)

theorem initializer_ends (ends : g.Ends L may (q + 1)) : Ends L may q (initializer g) :=
  .accept_then (ends.assignment.bind fun _ => .pure _) (.pure _)

end Parser

end StackLint

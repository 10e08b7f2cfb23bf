/-
  StackLint.Proofs.Termination.Statement
  ──────────────────────────────────────
  **WHEN STATEMENTS END.**

  All statements but one begin with a token of their own.  The one that does not
  is an expression, which may lie deeper without a token in front of it.
-/
import StackLint.Proofs.Parse.Statement
import StackLint.Proofs.Termination.Expression

namespace StackLint

namespace Parser

variable {L : Layout} {may : Halt → Prop} {q : Nat} {g : Grammar} {s : ParserState}

/-! ## §1. Variables and expressions. -/

theorem variableDeclarator_ends (ends : g.Ends L may (q + 1)) :
    Ends L may q (variableDeclarator g) :=
  (bindingTarget_ends ends).bind fun _ => (accept_ends _).discard.bind fun _ =>
    skipAnnotation_ends.bind fun _ => (initializer_ends ends).bind fun _ => close_ends _ _

theorem variableStatement_moves (ends : g.Ends L may (q + 1)) (keyword : BindingKeyword)
    (inLoopHead : Bool) : Moves L may q (variableStatement g keyword inLoopHead) := by
  have later := ends.later (Nat.le_succ _)
  refine advance_moves.bind fun _ => .bind (.iterate (fun read => ?_) _) fun declarations => ?_
  · exact .bind (variableDeclarator_ends later) fun _ => .accept_then (.pure _) (.finish _)
  · exact .ite (close_ends _ _) ((accept_ends _).discard.bind fun _ => close_ends _ _)

theorem expressionStatement_ends (ends : Ends L may q g.assignment) :
    Ends L may q (expressionStatement g) :=
  .look (fun _ => rfl) fun _ => (expression_ends ends).bind fun _ => .look (fun _ => rfl) fun _ =>
    .ite (.pure _) ((accept_ends _).discard.bind fun _ => close_ends _ _)

/-! ## §2. Types. -/

theorem skipBraces_ends : Ends L may q skipBraces :=
  .look (fun _ => rfl) fun _ => .ite skipGroup_ends (.pure _)

theorem typeBody_ends (ends : g.Ends L may q) (keyword : TypeKeyword) :
    Ends L may q (typeBody g keyword) := by
  have others : Ends L may q (do skipHeading [.openBrace, .semicolon]; skipBraces) :=
    (skipHeading_ends _).bind fun _ => skipBraces_ends
  cases keyword with
  | declare =>
      exact (acceptWord_ends _).bind fun _ => .ite skipBraces_ends ends.statement.discard
  | type =>
      exact (skip_ends 1).bind fun _ => skipTypeParameters_ends.bind fun _ =>
        (expect_ends _).discard.bind fun _ => skipType_ends
  | _ => exact others

theorem typeDeclaration_ends (ends : g.Ends L may q) (keyword : TypeKeyword) (start : Nat) :
    Ends L may q (typeDeclaration g keyword start) :=
  (skip_ends 1).bind fun _ => (typeBody_ends ends _).bind fun _ =>
    (accept_ends _).discard.bind fun _ => close_ends _ _

theorem typeDeclaration_moves (ends : g.Ends L may (q + 1)) (keyword : TypeKeyword) (start : Nat) :
    Moves L may q (typeDeclaration g keyword start) :=
  (skip_moves Nat.one_pos).bind fun _ => (typeBody_ends ends _).bind fun _ =>
    (accept_ends _).discard.bind fun _ => close_ends _ _

/-! ## §3. Branches and loops. -/

theorem controlExpression_ends (ends : g.Ends L may q) : Ends L may q (controlExpression g) :=
  (expect_ends _).discard.bind fun _ => (expression_ends ends.assignment).bind fun _ =>
    (expect_ends _).discard.bind fun _ => .pure _

theorem elseBranch_ends (ends : g.Ends L may q) : Ends L may q (elseBranch g) :=
  (acceptWord_ends _).bind fun _ => .ite (ends.statement.bind fun _ => .pure _) (.pure _)

theorem ifStatement_moves (ends : g.Ends L may (q + 1)) : Moves L may q (ifStatement g) :=
  advance_moves.bind fun _ => (controlExpression_ends ends).bind fun _ =>
    ends.statement.bind fun _ => (elseBranch_ends ends).bind fun _ => close_ends _ _

theorem forStart_ends (ends : g.Ends L may q) : Ends L may q (forStart g) := by
  intro s running
  refine .bind_current (.bind_peek ?_)
  split
  · next keyword same =>
      have more : s.position < L.size := by
        refine lt_size_of_lexeme running.on fun isEnd => ?_
        unfold loopBinding? Token.isTheWord at same
        rw [isEnd] at same
        cases same
      have moves := variableStatement_moves (ends.later (Nat.le_succ _)) keyword true
      exact (moves.goes running more).bind fun _ _ reads _ => .pure reads.on trivial
  · refine Ends.ite (.pure _) ?_ s running
    exact (modify_noIn_ends _).bind fun _ => (expression_ends ends.assignment).bind fun _ =>
      (modify_noIn_ends _).bind fun _ => .pure _

theorem expressionBefore_ends (ends : g.Ends L may q) (stop : Punct) :
    Ends L may q (expressionBefore g stop) :=
  .look (fun _ => rfl) fun _ =>
    .ite (.pure _) ((expression_ends ends.assignment).bind fun _ => .pure _)

theorem forRest_ends (ends : g.Ends L may q) : Ends L may q (forRest g) := by
  refine .look (fun _ => rfl) fun _ => .ite ?_ ?_
  · exact (skip_ends 1).bind fun _ => (expression_ends ends.assignment).bind fun _ => .pure _
  · exact (expect_ends _).discard.bind fun _ => (expressionBefore_ends ends _).bind fun _ =>
      (expect_ends _).discard.bind fun _ => (expressionBefore_ends ends _).bind fun _ => .pure _

theorem forStatement_moves (ends : g.Ends L may (q + 1)) : Moves L may q (forStatement g) :=
  advance_moves.bind fun _ => (acceptWord_ends _).discard.bind fun _ =>
    (expect_ends _).discard.bind fun _ => (forStart_ends ends).bind fun _ =>
      (forRest_ends ends).bind fun _ => (expect_ends _).discard.bind fun _ =>
        ends.statement.bind fun _ => close_ends _ _

theorem whileStatement_moves (ends : g.Ends L may (q + 1)) : Moves L may q (whileStatement g) :=
  advance_moves.bind fun _ => (controlExpression_ends ends).bind fun _ =>
    ends.statement.bind fun _ => close_ends _ _

theorem doTest_ends (ends : g.Ends L may q) : Ends L may q (doTest g) :=
  (acceptWord_ends _).bind fun _ =>
    .ite ((controlExpression_ends ends).bind fun _ => .pure _) (.pure _)

theorem doStatement_moves (ends : g.Ends L may (q + 1)) : Moves L may q (doStatement g) :=
  advance_moves.bind fun _ => ends.statement.bind fun _ => (doTest_ends ends).bind fun _ =>
    (accept_ends _).discard.bind fun _ => close_ends _ _

/-! ## §4. Jumps and guarded blocks. -/

theorem optionalArgument_ends (ends : g.Ends L may q) : Ends L may q (optionalArgument g) :=
  .look (fun _ => rfl) fun _ =>
    .ite (.pure _) ((expression_ends ends.assignment).bind fun _ => .pure _)

theorem returnStatement_moves (ends : g.Ends L may (q + 1)) : Moves L may q (returnStatement g) :=
  advance_moves.bind fun _ => (optionalArgument_ends ends).bind fun _ =>
    (accept_ends _).discard.bind fun _ => close_ends _ _

theorem throwStatement_moves (ends : g.Ends L may (q + 1)) : Moves L may q (throwStatement g) :=
  advance_moves.bind fun _ => (optionalArgument_ends ends).bind fun _ =>
    (accept_ends _).discard.bind fun _ => close_ends _ _

theorem catchBinding_ends (ends : g.Ends L may (q + 1)) : Ends L may q (catchBinding g) :=
  .accept_then ((bindingTarget_ends (ends.later (Nat.le_succ _))).bind fun _ =>
    skipAnnotation_ends.bind fun _ => (expect_ends _).discard.bind fun _ => .pure _) (.pure _)

theorem catchClause_ends (ends : g.Ends L may (q + 1)) : Ends L may q (catchClause g) :=
  (acceptWord_ends _).bind fun _ => .ite ((catchBinding_ends ends).bind fun _ =>
    (block_ends ends).bind fun _ => .pure _) (.pure _)

theorem finallyClause_ends (ends : g.Ends L may (q + 1)) : Ends L may q (finallyClause g) :=
  (acceptWord_ends _).bind fun _ => .ite ((block_ends ends).bind fun _ => .pure _) (.pure _)

theorem tryStatement_moves (ends : g.Ends L may (q + 1)) : Moves L may q (tryStatement g) := by
  have later := ends.later (Nat.le_succ _)
  exact advance_moves.bind fun _ => (block_ends later).bind fun _ =>
    (catchClause_ends later).bind fun _ => (finallyClause_ends later).bind fun _ => close_ends _ _

theorem optionalLabel_ends : Ends L may q optionalLabel :=
  .look (fun _ => rfl) fun _ => .ite ((skip_ends 1).bind fun _ => .pure _) (.pure _)

theorem jumpStatement_moves (keyword : JumpKeyword) : Moves L may q (jumpStatement keyword) :=
  advance_moves.bind fun _ => optionalLabel_ends.bind fun _ =>
    (accept_ends _).discard.bind fun _ => close_ends _ _

/-! ## §5. Switches. -/

theorem switchCase_ends (ends : g.Ends L may q) (start : Nat) (test : Option Tree) :
    Ends L may q (switchCase g start test) :=
  (expect_ends _).discard.bind fun _ => (statements_ends ends.statement _ _).bind fun _ =>
    close_ends _ _

/-- **The cases end,** as each has its keyword and a token that begins none is
passed over. -/
theorem switchCases_ends (ends : g.Ends L may (q + 1)) : Ends L may q (switchCases g) := by
  refine .iterate (fun cases => ?_) _
  intro s running
  refine .bind_current ?_
  refine .ite (fun _ => Turns.finish _ s running) fun goesOn => ?_
  have more := more_of_not_end running.on goesOn
  rw [running.on.start_current]
  refine Turns.acceptWord_then running ?_ (Turns.acceptWord_then running ?_ ?_)
  · exact (expression_ends ends.assignment).bind fun _ =>
      (switchCase_ends ends _ _).bind fun _ => .pure _
  · exact (switchCase_ends ends _ _).bind fun _ => .pure _
  · refine Turns.of_moves ((skip_moves Nat.one_pos).bind fun _ => ?_) running more
    exact (complainAt_ends _ _).bind fun _ => .pure _

theorem switchStatement_moves (ends : g.Ends L may (q + 1)) : Moves L may q (switchStatement g) := by
  refine advance_moves.bind fun _ => (controlExpression_ends ends).bind fun _ => ?_
  refine (expect_ends _).bind fun _ => .ite ?_ (close_ends _ _)
  exact (switchCases_ends (ends.later (Nat.le_succ _))).bind fun _ =>
    (expect_ends _).discard.bind fun _ => close_ends _ _

/-! ## §6. Imports and exports. -/

theorem importClause_ends : Ends L may q importClause := by
  refine .iterate (fun _ => ?_) _
  intro s running
  refine .bind_current ?_
  split
  · exact Turns.finish _ s running
  · next quote value same =>
      refine (stringLiteral_ends quote value s running).bind fun _ _ reads _ => ?_
      exact .pure reads.on fun _ never => nomatch never
  · next notEnd _ =>
      have more := lt_size_of_lexeme running.on notEnd
      refine .ite (fun _ => ?_) fun _ => .ite (fun _ => Turns.finish _ s running) fun _ => ?_
      · exact Turns.of_moves (skipGroup_moves.bind fun _ => .pure _) running more
      · exact Turns.of_moves ((skip_moves Nat.one_pos).bind fun _ => .pure _) running more

theorem importAttributes_ends : Ends L may q importAttributes :=
  .look (fun _ => rfl) fun _ => .look (fun _ => rfl) fun _ =>
    .ite ((skip_ends 1).bind fun _ => skipGroup_ends) (.pure _)

theorem importDeclaration_moves : Moves L may q importDeclaration :=
  advance_moves.bind fun _ => importClause_ends.bind fun _ => importAttributes_ends.bind fun _ =>
    (accept_ends _).discard.bind fun _ => close_ends _ _

theorem exportedNames_ends : Ends L may q exportedNames :=
  .look (fun _ => rfl) fun _ => .ite skipGroup_ends ((skip_ends 1).bind fun _ =>
    (acceptWord_ends _).bind fun _ => .ite (skip_ends 1) (.pure _))

theorem exportSource_ends : Ends L may q exportSource :=
  (acceptWord_ends _).bind fun _ =>
    .ite (.look (fun _ => rfl) fun _ => .ite (skip_ends 1) (.pure _)) (.pure _)

theorem exportClause_ends : Ends L may q exportClause :=
  (acceptWord_ends _).discard.bind fun _ => exportedNames_ends.bind fun _ =>
    exportSource_ends.bind fun _ => (accept_ends _).discard

theorem defaultExport_ends (ends : g.Ends L may q) : Ends L may q (defaultExport g) :=
  .look (fun _ => rfl) fun _ => .look (fun _ => rfl) fun _ => .ite ends.statement
    (ends.assignment.bind fun _ => (accept_ends _).discard.bind fun _ => .pure _)

theorem exportDeclaration_moves (ends : g.Ends L may (q + 1)) :
    Moves L may q (exportDeclaration g) := by
  refine advance_moves.bind fun _ => (acceptWord_ends _).bind fun _ => .ite ?_ ?_
  · exact (defaultExport_ends ends).bind fun _ => close_ends _ _
  refine .look (fun _ => rfl) fun _ => .look (fun _ => rfl) fun _ => .look (fun _ => rfl) fun _ => ?_
  refine .ite (exportClause_ends.bind fun _ => close_ends _ _) ?_
  refine (accept_ends _).bind fun _ => .ite ?_ (ends.statement.bind fun _ => close_ends _ _)
  exact (expression_ends ends.assignment).bind fun _ => (accept_ends _).discard.bind fun _ =>
    close_ends _ _

/-! ## §7. Statements of all kinds. -/

theorem keywordStatements_move (ends : g.Ends L may (q + 1)) :
    ∀ entry ∈ keywordStatements g, Moves L may q entry.2 := by
  intro entry inside
  unfold keywordStatements at inside
  simp only [List.mem_cons, List.not_mem_nil, or_false] at inside
  rcases inside with rfl | rfl | rfl | rfl | rfl | rfl | rfl | rfl | rfl | rfl | rfl | rfl
  · exact ifStatement_moves ends
  · exact forStatement_moves ends
  · exact whileStatement_moves ends
  · exact doStatement_moves ends
  · exact returnStatement_moves ends
  · exact throwStatement_moves ends
  · exact tryStatement_moves ends
  · exact switchStatement_moves ends
  · exact jumpStatement_moves .breakWord
  · exact jumpStatement_moves .continueWord
  · exact importDeclaration_moves
  · exact exportDeclaration_moves ends

theorem moves_of_keyword {name : Text} {parse : Parser Tree} (ends : g.Ends L may (q + 1))
    (found : (keywordStatements g).lookup name = some parse) : Moves L may q parse := by
  obtain ⟨front, back, split, _⟩ := List.lookup_eq_some_iff.mp found
  refine keywordStatements_move ends (name, parse) ?_
  rw [split]
  exact List.mem_append_right _ (List.mem_cons_self ..)

theorem otherStatement_goes (ends : g.Ends L may (q + 1)) (assignment : Ends L may q g.assignment)
    (running : s.Running L q) (more : s.position < L.size) (t next : Token) (name : Text) :
    Goes L may (otherStatement g t next name) s fun _ _ => True := by
  have expression := expressionStatement_ends assignment
  refine .ite (fun _ => expression s running) fun _ => ?_
  split
  · next parse found => exact (moves_of_keyword ends found).goes running more
  · refine .ite (fun _ => ?_) fun _ => expression s running
    -- The label of a statement is a token in front of it.
    exact Moves.goes ((skip_moves Nat.two_pos).bind fun _ => ends.statement) running more

theorem wordStatement_goes (ends : g.Ends L may (q + 1)) (assignment : Ends L may q g.assignment)
    (running : s.Running L q) (more : s.position < L.size) (t : Token) (name : Text) :
    Goes L may (wordStatement g t name) s fun _ _ => True := by
  refine .bind_peek ?_
  split
  · next keyword _ =>
      refine .ite (fun _ => ?_) fun _ => (variableStatement_moves ends _ _).goes running more
      -- The word `enum` behind `const`.
      exact Moves.goes ((skip_moves Nat.one_pos).bind fun _ => typeDeclaration_ends ends _ _)
        running more
  · refine .ite (fun _ => (function_moves ends _).goes running more) fun _ => ?_
    refine .ite (fun _ => (classNode_moves ends).goes running more) fun _ => ?_
    refine .bind_get ?_
    split
    · exact (typeDeclaration_moves ends _ _).goes running more
    · exact otherStatement_goes ends assignment running more t _ name

/-- **A statement ends** when all that lies behind its first token does, and the
expressions that begin with it. -/
theorem statementBody_ends (ends : g.Ends L may (q + 1)) (assignment : Ends L may q g.assignment) :
    Ends L may q (statementBody g) := by
  intro s running
  refine .bind_current ?_
  split
  · exact block_ends ends s running
  · exact Ends.bind (skip_ends 1) (fun _ => .pure _) s running
  · next same =>
      have decorated : s.current.is .atSign = true := by
        unfold Token.is
        rw [same]
        rfl
      refine (skipDecorators_goes ends running decorated).bind fun _ s₁ reads moved => ?_
      exact ends.statement s₁ (running.moved reads moved)
  · next name same =>
      have more := lt_size_of_lexeme running.on (by rw [same]; nofun)
      exact wordStatement_goes ends assignment running more _ name
  · exact expressionStatement_ends assignment s running

theorem statement_ends (ends : g.Ends L may (q + 1)) (assignment : Ends L may q g.assignment) :
    Ends L may q (statement g) :=
  nested_ends (statementBody_ends ends assignment)

end Parser

end StackLint

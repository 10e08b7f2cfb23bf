/-
  StackLint.Proofs.View.Program
  ─────────────────────────────
  **PROGRAMS FROM AFAR.**

  The grammar of every budget commutes with every view, so texts whose tokens
  look the same are parsed into trees, and into complaints, that look the same.
-/
import StackLint.Parse.Program
import StackLint.Proofs.View.Statement

namespace StackLint

/-! ## §1. The knot. -/

namespace Grammar

variable {v : View} {g : Grammar}

theorem spent_commutes (v : View) : spent.Commutes v where
  statement := .throw .budgetSpent
  assignment := .throw .budgetSpent
  unary := .throw .budgetSpent
  binary := fun _ => .throw .budgetSpent
  primary := .throw .budgetSpent
  newExpression := .throw .budgetSpent
  bindingTarget := .throw .budgetSpent

theorem Commutes.around (sound : g.Commutes v) : g.around.Commutes v where
  statement := Parser.statement_commutes sound
  assignment := Parser.assignment_commutes sound
  unary := Parser.unary_commutes sound
  binary := Parser.binary_commutes sound
  primary := Parser.primary_commutes sound
  newExpression := Parser.newExpression_commutes sound
  bindingTarget := Parser.bindingTarget_commutes sound

/-- **The grammar of every budget commutes with every view.** -/
theorem ofBudget_commutes (v : View) (budget : Nat) : (ofBudget budget).Commutes v := by
  induction budget with
  | zero => exact spent_commutes v
  | succ budget ih => exact ih.around

end Grammar

/-! ## §2. Programs. -/

/-- What a program looks like. -/
def Program.view (v : View) (p : Program) : Program where
  tree := p.tree.view v
  complaints := p.complaints.map fun complaint => (v.offset complaint.1, complaint.2.view v)

/-- The program that is made of the way in which the parser ends. -/
def Program.ofRun (span : Span) :
    EStateM.Result Halt ParserState (List Tree) → Program
  | .ok statements s => ⟨.mk span (.program statements), s.complaints.reverse⟩
  | .error _ s =>
      ⟨.mk span (.program []), s.complaints.reverse ++ [(s.current.start, .nestingTooDeep)]⟩

theorem parseTokensWithin_eq_ofRun (budget length : Nat) (tokens : List Token) (final : Token) :
    parseTokensWithin budget length tokens final
      = .ofRun ⟨0, length⟩ ((Parser.statements (.ofBudget budget) none []).run
        (.start tokens final)) := by
  unfold parseTokensWithin
  simp only
  split
  · next run =>
      rw [run]
      rfl
  · next run =>
      rw [run]
      rfl

theorem parseTokens_eq_ofRun (length : Nat) (tokens : List Token) (final : Token) :
    parseTokens length tokens final
      = .ofRun ⟨0, length⟩ ((Parser.statements (.ofBudget parseBudget) none []).run
        (.start tokens final)) :=
  parseTokensWithin_eq_ofRun parseBudget length tokens final

theorem Program.view_ofRun (v : View) (span : Span)
    (r : EStateM.Result Halt ParserState (List Tree)) :
    (ofRun span r).view v
      = ofRun (span.view v) (Parser.viewResult v (List.map (Node.view v)) r) := by
  cases r with
  | ok statements s =>
      simp only [Program.view, ofRun, Parser.viewResult, Node.view_mk, List.map_reverse]
      rfl
  | error e s =>
      simp only [Program.view, ofRun, Parser.viewResult, Node.view_mk, List.map_append,
        List.map_reverse, s.view_current]
      rfl

theorem ParserState.view_start_eq {v v' : View} {tokens tokens' : List Token} {final final' : Token}
    (same : tokens.map (Token.view v) = tokens'.map (Token.view v'))
    (sameFinal : final.view v = final'.view v') (origin : v.offset 0 = v'.offset 0)
    (lead : v.lead = v'.lead) :
    (ParserState.start tokens final).view v = (ParserState.start tokens' final').view v' := by
  have length : tokens.length = tokens'.length := by
    rw [← List.length_map (Token.view v), same, List.length_map]
  unfold ParserState.view ParserState.start
  simp only [same, sameFinal, origin, lead, length, List.map_nil]

/-- **Tokens that look the same make programs that look the same.** -/
theorem parseTokens_view_eq {v v' : View} {tokens tokens' : List Token} {final final' : Token}
    {length length' : Nat} (same : tokens.map (Token.view v) = tokens'.map (Token.view v'))
    (sameFinal : final.view v = final'.view v') (origin : v.offset 0 = v'.offset 0)
    (sameLength : v.offset length = v'.offset length') (lead : v.lead = v'.lead) :
    (parseTokens length tokens final).view v = (parseTokens length' tokens' final').view v' := by
  have start := ParserState.view_start_eq same sameFinal origin lead
  have kept := List.forall_mem_nil Reserved
  have run := Parser.statements_commutes (Grammar.ofBudget_commutes v parseBudget) none kept
    (.start tokens final)
  have run' := Parser.statements_commutes (Grammar.ofBudget_commutes v' parseBudget) none kept
    (.start tokens' final')
  rw [parseTokens_eq_ofRun, parseTokens_eq_ofRun, Program.view_ofRun, Program.view_ofRun, ← run,
    ← run', start]
  unfold Span.view
  simp only [origin, sameLength]

end StackLint

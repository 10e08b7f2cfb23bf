/-
  StackLint.Proofs.Termination.Program
  ────────────────────────────────────
  **PARSING ENDS.**

  When a construct is read, the constructs in it are read behind a token of its
  own, or at the same token as one of a lower rank.  So there are no more nested
  calls than twice the tokens that are left, and with a budget of as many a run
  ends with all tokens read.
-/
import StackLint.Parse.Program
import StackLint.Proofs.Termination.Statement

namespace StackLint

/-! ## §1. Constructs. -/

/-- The constructs that may contain themselves. -/
inductive Construct where
  | statement
  | assignment
  | unary
  | binary (minimum : Nat)
  | primary
  | newExpression
  | bindingTarget

/-- The parser of a construct. -/
def Grammar.parser (g : Grammar) : Construct → Parser Tree
  | .statement => g.statement
  | .assignment => g.assignment
  | .unary => g.unary
  | .binary minimum => g.binary minimum
  | .primary => g.primary
  | .newExpression => g.newExpression
  | .bindingTarget => g.bindingTarget

namespace Construct

variable {L : Layout} {s : ParserState}

/-- Of two constructs that begin with the same token the outer one has the higher
rank: a statement may begin with an expression. -/
def rank : Construct → Nat
  | .statement => 1
  | _ => 0

theorem rank_le (c : Construct) : c.rank ≤ 1 := by
  cases c with
  | statement => exact Nat.le_refl _
  | _ => exact Nat.zero_le _

/-- A constructor call is read where its keyword stands. -/
def MayBegin (c : Construct) (L : Layout) (s : ParserState) : Prop :=
  c = .newExpression → s.position < L.size

/-- **A call of the parser of `c'` in the state `s'`** that one of `c` in the state
`s` may need: on the layout, within the nesting limit, and at a later token or at
the same token with a lower rank. -/
structure Needs (L : Layout) (c : Construct) (s : ParserState) (c' : Construct)
    (s' : ParserState) : Prop where
  on : s'.On L
  shallow : s'.depth ≤ Parser.maxNesting
  begins : c'.MayBegin L s'
  later : s.position < s'.position ∨ (s.position = s'.position ∧ c'.rank < c.rank)

end Construct

/-- In the state `s` the parser of `c` ends normally and has gone forward. -/
def Grammar.EndsAt (g : Grammar) (L : Layout) (c : Construct) (s : ParserState) : Prop :=
  ∃ tree s', (g.parser c).run s = .ok tree s' ∧ Reads L s s'

/-! ## §2. What a call needs. -/

namespace Grammar

variable {L : Layout} {may : Halt → Prop} {g : Grammar} {c : Construct} {s : ParserState} {q : Nat}

theorem EndsAt.goes (ends : g.EndsAt L c s) : Parser.Goes L may (g.parser c) s fun _ _ => True := by
  obtain ⟨tree, s', run, reads⟩ := ends
  exact .of_run run reads trivial

/-- A grammar all of whose calls end. -/
theorem Ends.of_endsAt
    (calls : ∀ c s, s.Running L q → c.MayBegin L s → g.EndsAt L c s) : g.Ends L may q where
  statement := fun s running => (calls .statement s running nofun).goes
  assignment := fun s running => (calls .assignment s running nofun).goes
  unary := fun s running => (calls .unary s running nofun).goes
  binary := fun minimum s running => (calls (.binary minimum) s running nofun).goes
  primary := fun s running => (calls .primary s running nofun).goes
  newExpression := fun s running more => (calls .newExpression s running fun _ => more).goes
  bindingTarget := fun s running => (calls .bindingTarget s running nofun).goes

/-- Every construct of a grammar that ends. -/
theorem Ends.parser_goes (ends : g.Ends L may q) (running : s.Running L q)
    (begins : c.MayBegin L s) : Parser.Goes L may (g.parser c) s fun _ _ => True := by
  cases c with
  | statement => exact ends.statement s running
  | assignment => exact ends.assignment s running
  | unary => exact ends.unary s running
  | binary minimum => exact ends.binary minimum s running
  | primary => exact ends.primary s running
  | newExpression => exact ends.newExpression s running (begins rfl)
  | bindingTarget => exact ends.bindingTarget s running

/-- Every construct of the grammar around one that ends behind the next token. -/
theorem around_goes (ends : g.Ends L may (s.position + 1)) (running : s.Running L s.position)
    (assignment : c = .statement → Parser.Ends L may s.position g.assignment)
    (begins : c.MayBegin L s) :
    Parser.Goes L may (g.around.parser c) s fun _ _ => True := by
  cases c with
  | statement => exact Parser.statement_ends ends (assignment rfl) s running
  | assignment => exact Parser.assignment_ends ends s running
  | unary => exact Parser.unary_ends ends s running
  | binary minimum => exact Parser.binary_ends ends minimum s running
  | primary => exact Parser.primary_ends ends s running
  | newExpression => exact (Parser.newExpression_moves ends).goes running (begins rfl)
  | bindingTarget => exact Parser.bindingTarget_ends ends s running

/-- **A call ends when the calls end that it may need.** -/
theorem endsAt_around (on : s.On L) (shallow : s.depth ≤ Parser.maxNesting)
    (begins : c.MayBegin L s) (calls : ∀ c' s', c.Needs L s c' s' → g.EndsAt L c' s') :
    g.around.EndsAt L c s := by
  have running : s.Running L s.position := ⟨on, Nat.le_refl _, shallow⟩
  have deeper : g.Ends L (fun _ => False) (s.position + 1) := by
    refine .of_endsAt fun c' s' running' begins' => calls c' s' ?_
    exact ⟨running'.on, running'.shallow, begins', .inl running'.reached⟩
  have assignment : c = .statement →
      Parser.Ends L (fun _ => False) s.position g.assignment := by
    rintro rfl s' running'
    refine (calls .assignment s' ⟨running'.on, running'.shallow, nofun, ?_⟩).goes
    rcases Nat.lt_or_eq_of_le running'.reached with later | same
    · exact .inl later
    · exact .inr ⟨same, Nat.one_pos⟩
  obtain ⟨tree, s', run, reads, _⟩ := (around_goes deeper running assignment begins).exists_ok
  exact ⟨tree, s', run, reads⟩

/-! ## §3. Budgets. -/

/-- **A budget that is ample:** it is more than twice the tokens that are left. -/
theorem endsAt_ofBudget {budget : Nat} (on : s.On L) (shallow : s.depth ≤ Parser.maxNesting)
    (begins : c.MayBegin L s) (ample : 2 * (L.size - s.position) + c.rank < budget) :
    (ofBudget budget).EndsAt L c s := by
  induction budget generalizing c s with
  | zero => exact absurd ample (Nat.not_lt_zero _)
  | succ budget ih =>
      -- Every call that is needed leaves fewer tokens, or as many for a lower rank.
      refine endsAt_around on shallow begins fun c' s' needs => ?_
      refine ih needs.on needs.shallow needs.begins ?_
      have inside := needs.on.inside
      have low := c'.rank_le
      rcases needs.later with later | ⟨same, lower⟩ <;> omega

/-- With every budget a grammar ends, unless the budget is spent. -/
theorem ofBudget_ends (L : Layout) (budget : Nat) :
    (ofBudget budget).Ends L (· = .budgetSpent) 0 := by
  induction budget with
  | zero =>
      exact ⟨fun _ => .throw rfl, fun _ => .throw rfl, fun _ => .throw rfl,
        fun _ _ => .throw rfl, fun _ => .throw rfl, fun _ running _ => .throw rfl running,
        fun _ => .throw rfl⟩
  | succ budget ih =>
      have later := ih.later (Nat.zero_le 1)
      exact ⟨Parser.statement_ends later ih.assignment, Parser.assignment_ends later,
        Parser.unary_ends later, Parser.binary_ends later, Parser.primary_ends later,
        fun _ running more => (Parser.newExpression_moves later).goes running more,
        Parser.bindingTarget_ends later⟩

end Grammar

/-! ## §4. Programs. -/

namespace Layout

open StackLint.Parser

variable {L : Layout} {may : Halt → Prop} {g : Grammar}

/-- The state in front of all tokens. -/
theorem running_start (L : Layout) : (ParserState.start L.tokens L.final).Running L 0 :=
  ⟨.start L, Nat.le_refl 0, Nat.zero_le _⟩

/-- Behind the statements of a program no token is left. -/
theorem program_goes (ends : Parser.Ends L may 0 g.statement) :
    Goes L may (statements g none []) (.start L.tokens L.final) fun _ s =>
      s.position = L.size ∧ s.depth = 0 := by
  refine (statements_goes ends none [] L.running_start).mono fun _ s reads stops => ?_
  have isEnd : s.current.isEnd = true := by
    have noWord : s.current.isWordIn [] = false := by
      unfold Token.isWordIn
      split <;> rfl
    rwa [noWord, Bool.or_false, Option.any_none, Bool.or_false] at stops
  rw [reads.on.current, L.isEnd_iff] at isEnd
  exact ⟨Nat.le_antisymm reads.on.inside isEnd, reads.depth⟩

/-- **The parser ends, whatever the tokens.**

* A call for one of the recursive constructs ends, and goes forward, when those calls
  do that are made behind its first token, or at that token for a construct of a lower
  rank.  What the grammar does elsewhere is left open: no other calls are made.
* With every budget a call goes forward, stays on the tokens and keeps to the nesting
  limit, whether it ends normally or because the budget is spent.  No loop stalls.
* So does the run of a whole program, which reads all tokens and leaves no construct
  open.
* A budget of more than twice the tokens is never spent. -/
theorem parser_terminates (L : Layout) :
    (∀ (g : Grammar) (c : Construct) (s : ParserState), s.On L → s.depth ≤ maxNesting →
        c.MayBegin L s → (∀ c' s', c.Needs L s c' s' → g.EndsAt L c' s') → g.around.EndsAt L c s)
      ∧ (∀ (budget : Nat) (c : Construct) (s : ParserState), s.On L → s.depth ≤ maxNesting →
        c.MayBegin L s → match ((Grammar.ofBudget budget).parser c).run s with
          | .ok _ s' => s.position ≤ s'.position ∧ s'.position ≤ L.size ∧ s'.depth = s.depth
          | .error reason s' => reason = .budgetSpent ∧ s.position ≤ s'.position
              ∧ s'.position ≤ L.size ∧ s'.depth ≤ maxNesting)
      ∧ (∀ budget : Nat,
        match (statements (.ofBudget budget) none []).run (.start L.tokens L.final) with
          | .ok _ s => s.position = L.size ∧ s.depth = 0
          | .error reason s => reason = .budgetSpent ∧ s.position ≤ L.size ∧ s.depth ≤ maxNesting)
      ∧ ∀ budget : Nat, 2 * L.size + 2 ≤ budget → ∃ trees s,
          (statements (.ofBudget budget) none []).run (.start L.tokens L.final) = .ok trees s
            ∧ s.position = L.size ∧ s.depth = 0 := by
  refine ⟨fun _ _ _ => Grammar.endsAt_around, ?_, ?_, ?_⟩
  · intro budget c s on shallow begins
    have goes := (Grammar.ofBudget_ends L budget).parser_goes ⟨on, Nat.zero_le _, shallow⟩ begins
    unfold Goes at goes
    split
    · next run =>
        rw [run] at goes
        exact ⟨goes.1.le, goes.1.on.inside, goes.1.depth⟩
    · next run =>
        rw [run] at goes
        exact ⟨goes.1, goes.2.le, goes.2.on.inside, goes.2.shallow⟩
  · intro budget
    have goes := program_goes (Grammar.ofBudget_ends L budget).statement
    unfold Goes at goes
    split
    · next run =>
        rw [run] at goes
        exact goes.2
    · next run =>
        rw [run] at goes
        exact ⟨goes.1, goes.2.on.inside, goes.2.shallow⟩
  · intro budget ample
    have ends : Parser.Ends L (fun _ => False) 0 (Grammar.ofBudget budget).statement := by
      intro s running
      refine (Grammar.endsAt_ofBudget (c := .statement) running.on running.shallow nofun ?_).goes
      show 2 * (L.size - s.position) + 1 < budget
      omega
    obtain ⟨trees, s, run, _, ends⟩ := (program_goes ends).exists_ok
    exact ⟨trees, s, run, ends⟩

end Layout

end StackLint

/-
  StackLint.Proofs.Print.Exhausts
  ───────────────────────────────
  **EXPRESSIONS THAT SPEND THE BUDGET.**

  A right operand of the power operator is one nested call deeper than its operator,
  but not one level of nesting deeper.  So a chain of powers can be longer than the
  budget of nested calls and still have a single level.
-/
import StackLint.Proofs.Print.Assigned

namespace StackLint

/-! ## §1. Running out. -/

namespace Parser

variable {α β : Type} {total depth : Nat} {before between : List Lexeme}

/-- Where the lexemes come next, the parser spends its budget. -/
def Exhausts (total depth : Nat) (before : List Lexeme) (p : Parser α) : Prop :=
  ∀ s, s.Sees total depth before → ∃ s', p.run s = .error .budgetSpent s'

namespace Exhausts

theorem spent : Exhausts total depth before (throw .budgetSpent : Parser α) :=
  fun s _ => ⟨s, rfl⟩

/-- A parser that spends the budget is the last one. -/
theorem bind {p : Parser α} {k : α → Parser β} (exhausts : Exhausts total depth before p) :
    Exhausts total depth before (p >>= k) := by
  intro s sees
  obtain ⟨s', run⟩ := exhausts s sees
  refine ⟨s', ?_⟩
  rw [EStateM.run_bind, run]

/-- The budget is spent behind what was read. -/
theorem behind {P : α → Prop} {p : Parser α} {k : α → Parser β}
    (first : Consumes total depth before p between P)
    (next : ∀ a, P a → Exhausts total depth between (k a)) :
    Exhausts total depth before (p >>= k) := by
  intro s sees
  obtain ⟨a, s', run, sees', holds⟩ := first s sees
  obtain ⟨s'', run'⟩ := next a holds s' sees'
  refine ⟨s'', ?_⟩
  rw [EStateM.run_bind, run]
  exact run'

/-- What is read off the state spends nothing. -/
theorem look {p : Parser α} (value : ParserState → α) (stays : ∀ s, p.run s = .ok (value s) s)
    {k : α → Parser β}
    (next : ∀ s, s.Sees total depth before → Exhausts total depth before (k (value s))) :
    Exhausts total depth before (p >>= k) := by
  intro s sees
  rw [run_look (stays s)]
  exact next s sees s sees

/-- The first round of a loop spends the budget. -/
theorem iterate {body : α → Parser (Round α β)} {a : α}
    (round : Exhausts total depth before (body a)) :
    Exhausts total depth before (iterate body a) := by
  refine .look id (fun _ => rfl) fun s _ => ?_
  rw [iterateFor]
  exact .look ParserState.position (fun _ => rfl) fun _ _ => round.bind

theorem nested {parse : Parser Tree} (shallow : depth < maxNesting)
    (inner : Exhausts total (depth + 1) before parse) :
    Exhausts total depth before (Parser.nested parse) := by
  intro s sees
  have atDepth := sees.depth
  obtain ⟨s', run⟩ :=
    inner { s with depth := s.depth + 1 } { sees with depth := by rw [atDepth] }
  refine ⟨s', ?_⟩
  show (if s.depth ≥ maxNesting then skipTooDeep else _ : Parser Tree).run s = _
  rw [if_neg (by omega)]
  show (parse >>= _).run { s with depth := s.depth + 1 } = _
  rw [EStateM.run_bind, run]

end Exhausts

end Parser

/-! ## §2. Powers. -/

/-- The expression `a ** a ** ... ** a` with the given number of operators. -/
def powers : (operators : Nat) → Shape
  | 0 => .mk () (.identifier "a")
  | operators + 1 => .mk () (.binary .pow (.mk () (.identifier "a")) (powers operators))

theorem isPlainName_a : IsPlainName (Text.ofString "a") where
  name := .of_flags (by decide) (by decide) (by decide)
  plain := by decide

theorem printable_powers (n : Nat) : Printable (powers n) := by
  have name : Printable (.mk () (.identifier "a")) := .identifier isPlainName_a
  induction n with
  | zero => exact name
  | succ n ih =>
      refine .binary (by decide) (by decide) name (by decide) ih ?_
      cases n with
      | zero => exact Nat.le_of_ble_eq_true rfl
      | succ n => exact Nat.le_refl 12

theorem levels_powers (n : Nat) : (powers n).levels = 1 := by
  induction n with
  | zero => rfl
  | succ n ih =>
      rw [powers, Node.levels_mk]
      show max 1 (powers n).levels = 1
      rw [ih, Nat.max_self]

theorem lexemes_powers_succ (n : Nat) (rest : List Lexeme) : (powers (n + 1)).lexemes ++ rest
    = .word (Text.ofString "a") :: .punct .pow :: ((powers n).lexemes ++ rest) := by
  rw [powers, Node.lexemes_mk]
  rfl

namespace Parser

variable {total depth budget n : Nat} {rest : List Lexeme}

/-- The name at the head of the chain is read within any budget. -/
theorem consumes_first (shallow : depth < maxNesting) :
    Consumes total depth (.word (Text.ofString "a") :: .punct .pow :: rest)
      (unary (.ofBudget budget)) (.punct .pow :: rest) fun _ => True := by
  have name : Printable (.mk () (.identifier "a")) := .identifier isPlainName_a
  have fits : Fits depth budget (.mk () (.identifier "a")) := ⟨Nat.zero_le _, shallow⟩
  have reads := (Legible.of_printable name).asOperand total depth budget (.punct .pow :: rest) fits
    (by decide) rfl
  rw [Node.lexemes_mk] at reads
  exact reads.mono fun _ _ => trivial

/-- **A chain of powers that is longer than the budget spends it.** -/
theorem exhausts_powers {minimum : Nat} (long : budget < n) (low : minimum ≤ 12)
    (shallow : depth < maxNesting) :
    Exhausts total depth ((powers n).lexemes ++ rest) (binary (.ofBudget budget) minimum) := by
  -- Every operator takes one call of the budget, and there are more operators than calls.
  induction n generalizing budget minimum with
  | zero => cases long
  | succ n ih =>
      rw [lexemes_powers_succ]
      refine .behind (consumes_first shallow) fun left _ => .iterate ?_
      refine .look id (fun _ => rfl) fun s sees => ?_
      have isPower : connective? s.noIn s.current = some (.binary .pow) := by
        rw [sees.noIn, sees.current.eq]
        rfl
      rw [id, isPower]
      dsimp only
      rw [if_neg (show ¬(Connective.binary .pow).precedence < minimum from Nat.not_lt_of_le low)]
      refine .behind (P := fun _ => True) (.skip) fun _ _ => .bind ?_
      cases budget with
      | zero => exact .spent
      | succ budget => exact ih (Nat.lt_of_succ_lt_succ long) (Nat.le_refl 12)

/-- A value spends the budget as its first operand does. -/
theorem exhausts_assignment {before : List Lexeme} (shallow : depth < maxNesting)
    (noArrow : NoArrow before)
    (exhausts : Exhausts total (depth + 1) before (binary (.ofBudget budget) 0)) :
    Exhausts total depth before (assignment (.ofBudget budget)) := by
  refine .nested shallow (.look id (fun _ => rfl) fun s sees => ?_)
  rw [id, noArrow _ sees.inRow, if_neg Bool.false_ne_true]
  exact .bind (.bind exhausts)

/-- **Nothing is left of the budget** behind the equals sign. -/
theorem exhausts_assigned (long : budget < n) (shallow : depth + 2 < maxNesting)
    (noArrow : firstOf rest ≠ .punct .arrow) :
    Exhausts total depth ((powers n).assigned.lexemes ++ rest)
      (assignment (.ofBudget (budget + 1))) := by
  have name : Printable (.mk () (.identifier "x")) := .identifier isPlainName_x
  have fits : Fits (depth + 1) (budget + 1) (.mk () (.identifier "x")) :=
    ⟨Nat.zero_le _, by show depth + 1 + 1 ≤ maxNesting; omega⟩
  have target : Consumes total (depth + 1)
      (.word (Text.ofString "x") :: .punct AssignOp.assign.punct :: ((powers n).lexemes ++ rest))
      (conditional (.ofBudget (budget + 1))) _ _ :=
    (Legible.of_printable name).asTerm.target rfl fits
  rw [lexemes_assigned]
  refine .nested (by omega) (.look id (fun _ => rfl) fun s sees => ?_)
  have noArrow' : NoArrow (.word (Text.ofString "x") :: .punct .assign :: ((powers n).lexemes ++ rest)) :=
    .of_word (by decide) nofun
  rw [id, noArrow' _ sees.inRow, if_neg Bool.false_ne_true]
  refine .behind target fun tree _ => .look ParserState.current (fun _ => rfl) fun s sees => ?_
  rw [sees.current.eq, firstOf_cons, assignOperator?_punct]
  refine .behind .skip fun _ _ => .bind (exhausts_assignment (by omega) ?_ ?_)
  · refine (printable_powers n).noArrow noArrow fun parens => ?_
    cases n <;> cases parens
  · exact exhausts_powers long (Nat.zero_le _) shallow

/-- The program of a long chain of powers spends the budget. -/
theorem exhausts_program (long : budget < n) :
    Exhausts total 0 ((powers n).assigned.lexemes ++ [.punct .semicolon])
      (statements (.ofBudget (budget + 3)) none []) := by
  have whole : Exhausts total 1 ((powers n).assigned.lexemes ++ [.punct .semicolon])
      (expressionStatement (.ofBudget (budget + 2))) :=
    .look ParserState.position (fun _ => rfl) fun _ _ =>
      .bind (.bind (exhausts_assigned long (by decide) (by decide)))
  have statement : Exhausts total 0 ((powers n).assigned.lexemes ++ [.punct .semicolon])
      (statement (.ofBudget (budget + 2))) := by
    refine .nested (by decide) fun s sees => ?_
    rw [statementBody_run (lexemes_statement (powers n) ▸ sees)]
    exact whole s sees
  refine .iterate (.look ParserState.current (fun _ => rfl) fun s sees => ?_)
  rw [lexemes_statement] at sees statement ⊢
  rw [sees.current.eq]
  exact .look ParserState.position (fun _ => rfl) fun _ _ => .bind statement

end Parser

/-- **A chain of powers that is longer than the budget of nested calls is too deep,** though
there is a single level of nesting: nothing is left of its program. -/
theorem parse_powers {budget n : Nat} (long : budget < n) :
    ∃ p, parseWithin (budget + 3)
          (Text.ofString "x = " ++ Text.spaced (powers n).lexemes ++ Text.ofString " ;") = .ok p
      ∧ p.complaints ≠ [] ∧ p.tree.shape = .mk () (.program []) := by
  obtain ⟨tokens, final, length, total, parsed, sees⟩ :=
    parse_assigned (budget + 3) (printable_powers n)
  obtain ⟨s, run⟩ := Parser.exhausts_program long _ sees
  refine ⟨_, parsed, ?_⟩
  rw [parseTokensWithin_eq_ofRun, run]
  refine ⟨List.append_ne_nil_of_right_ne_nil _ (List.cons_ne_nil _ _), ?_⟩
  exact Node.shape_mk _ _

end StackLint

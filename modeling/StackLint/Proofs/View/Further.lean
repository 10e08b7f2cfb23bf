/-
  StackLint.Proofs.View.Further
  ─────────────────────────────
  **THE SAME TOKENS FURTHER DOWN.**

  A parser that has read more tokens, and then sees the same ones in other places, goes
  on in the same way.  `Parser.Repeats` says so of two runs: it holds where two parsers
  commute with views that hide all places, and it composes, so two texts that begin
  differently can be compared from where they go on alike.
-/
import StackLint.Proofs.Parse.Ensures
import StackLint.Proofs.Parse.Rounds
import StackLint.Proofs.Token.Exchange
import StackLint.Proofs.View.Grammar
import StackLint.Proofs.View.Shift

namespace StackLint

/-! ## §1. States. -/

/-- Everything seems to stand at the same place, behind more tokens. -/
def View.behind (lead : Nat) : View :=
  { View.placeless with lead := lead }

/-- Apart from the places in the text the second state is the first one, behind more tokens. -/
def ParserState.Further (lead : Nat) (s s' : ParserState) : Prop :=
  s'.view .placeless = s.view (.behind lead)

namespace ParserState.Further

variable {lead : Nat} {s s' : ParserState}

theorem position (further : s.Further lead s') : s'.position = s.position + lead :=
  congrArg ParserState.position further

theorem total (further : s.Further lead s') : s'.total = s.total + lead :=
  congrArg ParserState.total further

theorem silent (further : s.Further lead s') (silent : s.complaints = []) : s'.complaints = [] := by
  have same := congrArg ParserState.complaints further
  change s'.complaints.map _ = s.complaints.map _ at same
  rw [silent] at same
  exact List.map_eq_nil_iff.mp same

/-- The same tokens are ahead. -/
theorem of_tokens {inner : List Token} {final : Token} {k : Nat} (ahead : s.ahead = inner)
    (ahead' : s'.ahead = inner.map (Token.shift k)) (isFinal : s.final = final)
    (isFinal' : s'.final = final.shift k) (position : s'.position = s.position + lead)
    (total : s'.total = s.total + lead) (silent : s.complaints = []) (silent' : s'.complaints = [])
    (noIn : s'.noIn = s.noIn) (depth : s'.depth = s.depth) : s.Further lead s' := by
  unfold ParserState.Further ParserState.view
  rw [ahead, ahead', isFinal, isFinal', position, total, silent, silent', noIn, depth, List.map_map]
  rfl

end ParserState.Further

namespace Parser

/-! ## §2. Runs. -/

variable {α γ : Type} {lead : Nat} {f : α → α} {h : γ → γ} {p p' : Parser α}
  {s s' : ParserState}

/-- **The second parser repeats what the first one does:** where the first one ends normally, so
does the second one, with a value that looks the same, further down in the text. -/
def Repeats (lead : Nat) (f : α → α) (p p' : Parser α) (s s' : ParserState) : Prop :=
  ∀ a s₁, p.run s = .ok a s₁ →
    ∃ a' s₁', p'.run s' = .ok a' s₁' ∧ f a' = f a ∧ s₁.Further lead s₁'

namespace Repeats

/-- Only the runs matter. -/
theorem of_runs {q q' : Parser α} {t t' : ParserState} (same : p.run s = q.run t)
    (same' : p'.run s' = q'.run t') (repeats : Repeats lead f q q' t t') :
    Repeats lead f p p' s s' := by
  intro a s₁ run
  rw [same] at run
  rw [same']
  exact repeats a s₁ run

theorem pure {a a' : α} (same : f a' = f a) (further : s.Further lead s') :
    Repeats lead f (pure a) (pure a') s s' := by
  rintro _ _ ⟨⟩
  exact ⟨a', s', rfl, same, further⟩

/-- What sees no places does the same further down. -/
theorem of_commutes {q : Parser α} (commutes : Commutes (.behind lead) f p q)
    (commutes' : Commutes .placeless f p' q) (further : s.Further lead s') :
    Repeats lead f p p' s s' := by
  intro a s₁ run
  have same := commutes s
  rw [run, ← further, commutes' s'] at same
  cases run' : p'.run s' with
  | error reason s₁' =>
      rw [run'] at same
      cases same
  | ok a' s₁' =>
      rw [run'] at same
      exact ⟨a', s₁', rfl, EStateM.Result.ok.inj same⟩

/-- One parser after another, the first of which ensures something. -/
theorem bind_ensures {k k' : α → Parser γ} {P : α → ParserState → Prop}
    (first : Repeats lead f p p' s s') (ensures : Ensures p s P)
    (next : ∀ a a' s₁ s₁', P a s₁ → f a' = f a → s₁.Further lead s₁' →
      Repeats lead h (k a) (k' a') s₁ s₁') :
    Repeats lead h (p >>= k) (p' >>= k') s s' := by
  intro c s₂ run
  rw [EStateM.run_bind] at run
  cases run₁ : p.run s with
  | error reason s₁ =>
      rw [run₁] at run
      cases run
  | ok a s₁ =>
      rw [run₁] at run
      obtain ⟨a', s₁', run₁', same, further⟩ := first a s₁ run₁
      rw [run_bind run₁']
      exact next a a' s₁ s₁' (ensures a s₁ run₁) same further c s₂ run

/-- **One parser after another.** -/
theorem bind {k k' : α → Parser γ} (first : Repeats lead f p p' s s')
    (next : ∀ a a' s₁ s₁', f a' = f a → s₁.Further lead s₁' →
      Repeats lead h (k a) (k' a') s₁ s₁') :
    Repeats lead h (p >>= k) (p' >>= k') s s' :=
  bind_ensures (P := fun _ _ => True) first (fun _ _ _ => trivial)
    fun a a' s₁ s₁' _ => next a a' s₁ s₁'

open Consumes (iterateFor_again iterateFor_finish iterateFor_mono)

/-- **A loop** whose later rounds see no places repeats what another one does when its first
round does. -/
theorem iterate {body body' : α → Parser (Round α γ)} {a : α}
    (first : Repeats lead (Round.map f h) (body a) (body' a) s s')
    (later : ∀ a, Commutes (.behind lead) (Round.map f h) (body a) (body (f a)))
    (later' : ∀ a, Commutes .placeless (Round.map f h) (body' a) (body (f a)))
    (position : s'.position ≤ s.position + lead)
    (enough : s.total + s'.position ≤ s'.total + s.position) :
    Repeats lead h (iterate body a) (iterate body' a) s s' := by
  intro b s₂ run
  change (iterateFor body (s.total - s.position + 1) a).run s = _ at run
  -- The further loop may have more rounds than the first one.
  suffices ends : ∃ b' s₂', (iterateFor body' (s.total - s.position + 1) a).run s' = .ok b' s₂'
      ∧ h b' = h b ∧ s₂.Further lead s₂' by
    obtain ⟨b', s₂', run', same⟩ := ends
    exact ⟨b', s₂', iterateFor_mono run' (by omega), same⟩
  cases firstRound_of_iterateFor run with
  | finish round =>
      obtain ⟨r', s₂', round', same, further⟩ := first _ _ round
      cases r' with
      | again a' => cases same
      | finish b' => exact ⟨b', s₂', iterateFor_finish round', Round.finish.inj same, further⟩
  | again a₁ s₁ round moves rest =>
      obtain ⟨r', s₁', round', same, further⟩ := first _ _ round
      cases r' with
      | finish b' => cases same
      | again a₁' =>
          have same : f a₁' = f a₁ := Round.again.inj same
          rw [iterateFor_again round' (by rw [further.position]; omega)]
          refine of_commutes (.iterateFor later _ a₁) ?_ further b s₂ rest
          rw [← same]
          exact .iterateFor later' _ a₁'

/-- One level deeper. -/
theorem nested {parse parse' : Parser Tree} (shallow : s.depth < maxNesting)
    (shallow' : s'.depth < maxNesting)
    (inner : Repeats lead (Node.view .placeless) parse parse' (s.atDepth (s.depth + 1))
      (s'.atDepth (s'.depth + 1))) :
    Repeats lead (Node.view .placeless) (nested parse) (nested parse') s s' := by
  refine of_runs (nested_shallow shallow) (nested_shallow shallow') ?_
  refine inner.bind fun tree tree' s₁ s₁' same further => ?_
  refine of_commutes (q := do
    modify fun s => { s with depth := s.depth - 1 }
    return tree.view .placeless) ?_ ?_ further
  · exact .bind (.modify fun _ => rfl) fun _ => .pure rfl
  · exact .bind (.modify fun _ => rfl) fun _ => .pure same.symm

end Repeats

/-! ## §3. Statements. -/

variable {g : Grammar}

/-- Reading one level deeper moves on when the reading does. -/
theorem nested_moves {parse : Parser Tree} (shallow : s.depth < maxNesting)
    (moves : Ensures parse (s.atDepth (s.depth + 1)) fun _ s₁ => s.position < s₁.position) :
    Ensures (nested parse) s fun _ s₁ => s.position < s₁.position := by
  intro tree s₁ run
  rw [nested_shallow shallow] at run
  refine Ensures.bind (Q := fun _ s₁ => s.position < s₁.position) moves
    (fun tree s₂ moved => ?_) tree s₁ run
  refine Ensures.bind (P := fun _ s₃ => s₃ = s₂.atDepth (s₂.depth - 1)) (.modify rfl) ?_
  rintro _ _ rfl
  exact .pure moved

/-- Whether statements follow is told by the end of the text. -/
theorem statementsRound_goesOn (more : s.current.isEnd = false) (read : List Tree) :
    (statementsRound g none [] read).run s = (do
      let statement ← g.statement
      if (← position) = s.position then
        let t ← advance
        let complaint := Complaint.unexpectedToken t.lexeme.value
        complainAt t.start complaint
        return .again (leaf t (.errorNode complaint) :: read)
      return .again (statement :: read) : Parser (Round (List Tree) (List Tree))).run s := by
  have goesOn : (s.current.isEnd || Option.any s.current.is none || s.current.isWordIn [])
      = false := by
    rw [more, Token.isWordIn]
    cases s.current.lexeme <;> rfl
  unfold statementsRound
  rw [run_current, goesOn, if_neg Bool.false_ne_true]
  rfl

/-- **Statements** are read as they are elsewhere when the first one is. -/
theorem Repeats.statements (commutes : ∀ v, g.Commutes v)
    (first : Repeats lead (Node.view .placeless) g.statement g.statement s s')
    (moves : Ensures g.statement s fun _ s₁ => s.position < s₁.position)
    (more : s.current.isEnd = false) (more' : s'.current.isEnd = false)
    (position : s'.position = s.position) (total : s'.total = s.total + lead) :
    Repeats lead (List.map (Node.view .placeless)) (statements g none []) (statements g none [])
      s s' := by
  have kept : ∀ w ∈ ([] : List Text), Reserved w := List.forall_mem_nil _
  rw [statements_eq]
  refine .iterate ?_ (statementsRound_commutes (commutes _) none kept)
    (statementsRound_commutes (commutes _) none kept) (by omega) (by omega)
  refine .of_runs (statementsRound_goesOn more []) (statementsRound_goesOn more' []) ?_
  refine first.bind_ensures moves fun statement statement' s₁ s₁' moved same further => ?_
  have place := further.position
  refine .of_runs (run_look rfl _) (run_look rfl _) ?_
  rw [if_neg (by omega), if_neg (by omega)]
  exact .pure (congrArg (fun tree => Round.again [tree]) same) further

end Parser

end StackLint

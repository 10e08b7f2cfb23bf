/-
  StackLint.Proofs.Parse.Rounds
  ─────────────────────────────
  **RUNS, STEP BY STEP.**

  How a parser built of several parts runs, when it is known how its parts do.
  `Parser.Loops body s a b s'` says that rounds of `body`, the first one with the value
  `a` in the state `s`, lead to the value `b` in the state `s'`.  It does not count the
  rounds: a loop that has rounds for all tokens has enough of them.
-/
import StackLint.Proofs.Print.Consumes

namespace StackLint

/-- The state with another number of open constructs. -/
def ParserState.atDepth (s : ParserState) (depth : Nat) : ParserState :=
  { s with depth := depth }

theorem ParserState.skip_skip (s : ParserState) (m n : Nat) :
    (s.skip m).skip n = s.skip (m + n) := by
  have taken : s.ahead.take (m + n) = s.ahead.take m ++ (s.ahead.drop m).take n :=
    List.take_add
  unfold ParserState.skip
  simp only [List.drop_drop, taken, List.length_append, List.getLast?_append, Nat.add_assoc]
  congr 1
  cases ((s.ahead.drop m).take n).getLast? with
  | none => rfl
  | some t => cases (s.ahead.take m).getLast? <;> rfl

namespace Parser

variable {α β : Type} {body : α → Parser (Round α β)} {a a' : α} {b : β}
  {s s' s₁ : ParserState}

/-! ## §1. One parser after another. -/

theorem run_bind {p : Parser α} {a : α} (first : p.run s = .ok a s₁) (k : α → Parser β) :
    (p >>= k).run s = (k a).run s₁ := by
  rw [EStateM.run_bind, first]

theorem discard_run {p : Parser α} {a : α} (run : p.run s = .ok a s₁) :
    (discard p).run s = .ok () s₁ := by
  show (Function.const α () <$> p).run s = _
  rw [← bind_pure_comp, run_bind run]
  rfl

/-- What is read off the state does not change the run. -/
theorem run_look {p : Parser α} {a : α} (stays : p.run s = .ok a s) (k : α → Parser β) :
    (p >>= k).run s = (k a).run s :=
  run_bind stays k

theorem run_current (k : Token → Parser β) : (current >>= k).run s = (k s.current).run s :=
  run_look rfl k

theorem run_peek (count : Nat) (k : Token → Parser β) :
    (peek count >>= k).run s = (k (s.peek count)).run s :=
  run_look rfl k

theorem current_of_ahead {t : Token} {rest : List Token} (ahead : s.ahead = t :: rest) :
    s.current = t := by
  unfold ParserState.current
  rw [ahead]
  rfl

theorem accept_yes {p : Punct} (isNext : s.current.lexeme = .punct p) :
    (accept p).run s = .ok true (s.skip 1) := by
  have found : s.current.isOneOf [p] = true := by
    rw [Token.isOneOf, isNext]
    exact List.contains_iff_mem.mpr List.mem_cons_self
  show (if s.current.isOneOf [p] then skip 1 >>= _ else _ : Parser Bool).run s = _
  rw [found]
  rfl

theorem accept_no {p : Punct} (other : s.current.lexeme ≠ .punct p) :
    (accept p).run s = .ok false s := by
  have found : s.current.isOneOf [p] = false := by
    unfold Token.isOneOf
    split
    · next q isPunct =>
        refine Bool.eq_false_iff.mpr fun listed => other ?_
        rw [isPunct, List.mem_singleton.mp (List.contains_iff_mem.mp listed)]
    · rfl
  show (if s.current.isOneOf [p] then skip 1 >>= _ else _ : Parser Bool).run s = _
  rw [found]
  rfl

/-- Where there is a level left, a construct is read one level deeper. -/
theorem nested_shallow {parse : Parser Tree} (shallow : s.depth < maxNesting) :
    (nested parse).run s = (do
      let tree ← parse
      modify fun s => { s with depth := s.depth - 1 }
      return tree : Parser Tree).run (s.atDepth (s.depth + 1)) := by
  show (if s.depth ≥ maxNesting then skipTooDeep else _ : Parser Tree).run s = _
  rw [if_neg (Nat.not_le.mpr shallow)]
  rfl

theorem nested_run {parse : Parser Tree} {tree : Tree} (shallow : s.depth < maxNesting)
    (run : parse.run (s.atDepth (s.depth + 1)) = .ok tree s₁) :
    (nested parse).run s = .ok tree (s₁.atDepth (s₁.depth - 1)) := by
  rw [nested_shallow shallow, run_bind run]
  rfl

/-! ## §2. Loops. -/

open Consumes (iterateFor_again iterateFor_finish)

/-- How the first round of a loop that ends has ended. -/
inductive FirstRound (body : α → Parser (Round α β)) (rounds : Nat) (a : α) (b : β)
    (s s₁ : ParserState) : Prop
  | finish (run : (body a).run s = .ok (.finish b) s₁)
  | again (a' : α) (s' : ParserState) (run : (body a).run s = .ok (.again a') s')
      (moves : s.position < s'.position) (later : (iterateFor body rounds a').run s' = .ok b s₁)

/-- A loop that ends has a first round, and goes on behind it unless it finishes. -/
theorem firstRound_of_iterateFor {rounds : Nat}
    (run : (iterateFor body (rounds + 1) a).run s = .ok b s₁) : FirstRound body rounds a b s s₁ := by
  cases round : (body a).run s with
  | error reason s' =>
      rw [iterateFor] at run
      change (body a >>= _).run s = _ at run
      rw [EStateM.run_bind, round] at run
      cases run
  | ok r s' =>
      cases r with
      | finish c =>
          rw [iterateFor_finish round] at run
          cases run
          exact .finish round
      | again a' =>
          by_cases moves : s.position < s'.position
          · rw [iterateFor_again round moves] at run
            exact .again a' s' round moves run
          · rw [iterateFor] at run
            change (body a >>= _).run s = _ at run
            rw [EStateM.run_bind, round] at run
            change (if s'.position ≤ s.position then throw Halt.stalled
              else iterateFor body rounds a').run s' = _ at run
            rw [if_pos (Nat.le_of_not_lt moves)] at run
            cases run

/-- **Rounds of a loop,** one behind the other, up to one that finishes. -/
inductive Loops (body : α → Parser (Round α β)) :
    ParserState → α → β → ParserState → Prop
  | finish {s s₁ : ParserState} {a : α} {b : β} (run : (body a).run s = .ok (.finish b) s₁)
      (le : s.position ≤ s₁.position) : Loops body s a b s₁
  | again {s s' s₁ : ParserState} {a a' : α} {b : β} (run : (body a).run s = .ok (.again a') s')
      (moves : s.position < s'.position) (later : Loops body s' a' b s₁) : Loops body s a b s₁

theorem Loops.le (loops : Loops body s a b s₁) : s.position ≤ s₁.position := by
  induction loops with
  | finish _ le => exact le
  | again _ moves _ ih => exact Nat.le_trans (Nat.le_of_lt moves) ih

/-- There are no more rounds than tokens. -/
theorem Loops.iterateFor (loops : Loops body s a b s₁) {rounds : Nat}
    (enough : s₁.position < s.position + rounds) : (iterateFor body rounds a).run s = .ok b s₁ := by
  induction loops generalizing rounds with
  | finish run le =>
      obtain ⟨fewer, rfl⟩ := Nat.exists_eq_add_of_le' (show 1 ≤ rounds by omega)
      exact iterateFor_finish run
  | @again s s' s₁ a a' b run moves later ih =>
      have le := later.le
      obtain ⟨fewer, rfl⟩ := Nat.exists_eq_add_of_le' (show 1 ≤ rounds by omega)
      rw [iterateFor_again run moves]
      exact ih (by omega)

/-- **A loop does its rounds.** -/
theorem Loops.iterate (loops : Loops body s a b s₁) (inside : s₁.position ≤ s.total) :
    (iterate body a).run s = .ok b s₁ := by
  have le := loops.le
  exact loops.iterateFor (show s₁.position < s.position + (s.total - s.position + 1) by omega)

end Parser

end StackLint

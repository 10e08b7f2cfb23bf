/-
  StackLint.Proofs.Token.Walk
  ───────────────────────────
  **THE MAIN LOOP OF THE SCANNER, STEP BY STEP.**

  `Scan.tokensFrom` counts down the code points that a lexeme or a comment has
  already taken.  Here the count is gone: a step drops them at once, and
  `Scan.Reaches` says which places of a text the loop comes to.
-/
import StackLint.Token.Scan

namespace StackLint

namespace Scan

/-! ## §1. Steps. -/

/-- Code points that were already read are passed over. -/
theorem tokensFrom_skip (memory : Memory) (skip offset : Nat) (t : Text) :
    tokensFrom memory skip offset t
      = tokensFrom memory 0 (offset + min skip t.length) (t.drop skip) := by
  induction t generalizing skip offset with
  | nil =>
      rw [List.drop_nil]
      cases skip <;> simp only [tokensFrom, List.length_nil, Nat.min_zero, Nat.add_zero]
  | cons c rest ih =>
      cases skip with
      | zero => rw [List.drop_zero, Nat.zero_min, Nat.add_zero]
      | succ skip =>
          rw [tokensFrom, ih, List.drop_succ_cons, List.length_cons, Nat.succ_min_succ]
          congr 1
          omega

/-- The end of the text is a token. -/
theorem tokensFrom_nil (memory : Memory) (offset : Nat) :
    tokensFrom memory 0 offset [] = .ok [⟨.endOfText, offset, offset, memory.newline⟩] := by
  rw [tokensFrom]

/-- A blank or a comment leaves only the memory of its newline. -/
theorem tokensFrom_trivia {memory : Memory} {offset extra : Nat} {newline : Bool}
    {c : CodePoint} {rest : Text} (h : trivia? c rest = some (extra, newline)) :
    tokensFrom memory 0 offset (c :: rest)
      = tokensFrom { memory with newline := memory.newline || newline } 0
          (offset + 1 + min extra rest.length) (rest.drop extra) := by
  rw [tokensFrom, h]
  exact tokensFrom_skip _ _ _ _

/-- The memory behind a lexeme. -/
def Found.memory (found : Found) : Memory :=
  ⟨found.braces, some found.lexeme, false⟩

/-- A lexeme is one token. -/
theorem tokensFrom_lexeme {memory : Memory} {offset : Nat} {found : Found}
    {c : CodePoint} {rest : Text} (h : trivia? c rest = none)
    (read : lexeme memory.braces memory.previous c rest = .ok found) :
    tokensFrom memory 0 offset (c :: rest)
      = (tokensFrom found.memory 0 (offset + 1 + min found.extra rest.length)
            (rest.drop found.extra)).map
          (⟨found.lexeme, offset, offset + found.extra + 1, memory.newline⟩ :: ·) := by
  rw [tokensFrom, h]
  simp only [read]
  show (tokensFrom found.memory found.extra (offset + 1) rest >>= fun tokens => pure _) = _
  rw [tokensFrom_skip]
  cases tokensFrom found.memory 0 (offset + 1 + min found.extra rest.length)
    (rest.drop found.extra) <;> rfl

/-- A lexeme that cannot be read ends the scan. -/
theorem tokensFrom_failure {memory : Memory} {offset : Nat} {failure : ScanFailure}
    {c : CodePoint} {rest : Text} (h : trivia? c rest = none)
    (read : lexeme memory.braces memory.previous c rest = .error failure) :
    tokensFrom memory 0 offset (c :: rest) = .error failure := by
  rw [tokensFrom, h]
  simp only [read]
  rfl

/-- **Induction along the main loop.**  Every step drops at least one code
point, so a property of all places holds if it goes back over a step. -/
theorem walk_induct {P : Memory → Nat → Text → Prop}
    (nil : ∀ memory offset, P memory offset [])
    (trivia : ∀ memory offset c rest extra newline, trivia? c rest = some (extra, newline) →
      P { memory with newline := memory.newline || newline }
        (offset + 1 + min extra rest.length) (rest.drop extra) →
      P memory offset (c :: rest))
    (failure : ∀ (memory : Memory) offset c rest failure, trivia? c rest = none →
      lexeme memory.braces memory.previous c rest = .error failure → P memory offset (c :: rest))
    (lexeme : ∀ (memory : Memory) offset c rest found, trivia? c rest = none →
      lexeme memory.braces memory.previous c rest = .ok found →
      P found.memory (offset + 1 + min found.extra rest.length) (rest.drop found.extra) →
      P memory offset (c :: rest))
    (memory : Memory) (offset : Nat) (t : Text) : P memory offset t := by
  induction h : t.length using Nat.strongRecOn generalizing memory offset t with
  | ind n ih =>
      cases t with
      | nil => exact nil memory offset
      | cons c rest =>
          rw [List.length_cons] at h
          have later (memory : Memory) (offset extra : Nat) : P memory offset (rest.drop extra) := by
            refine ih (rest.drop extra).length ?_ memory offset _ rfl
            rw [List.length_drop]
            omega
          cases trivial : trivia? c rest with
          | some skipped =>
              obtain ⟨extra, newline⟩ := skipped
              exact trivia memory offset c rest extra newline trivial (later _ _ extra)
          | none =>
              cases read : Scan.lexeme memory.braces memory.previous c rest with
              | error reason => exact failure memory offset c rest reason trivial read
              | ok found =>
                  exact lexeme memory offset c rest found trivial read (later _ _ found.extra)

/-! ## §2. Places. -/

/-- The loop comes from one place, with its memory and the text that is left,
to another. -/
inductive Reaches : Memory → Text → Memory → Text → Prop where
  | here {memory : Memory} {t : Text} : Reaches memory t memory t
  | trivia {memory memory' : Memory} {t' : Text} {c : CodePoint} {rest : Text} {extra : Nat}
      {newline : Bool} :
      trivia? c rest = some (extra, newline) →
      Reaches { memory with newline := memory.newline || newline } (rest.drop extra) memory' t' →
      Reaches memory (c :: rest) memory' t'
  | lexeme {memory memory' : Memory} {t' : Text} {c : CodePoint} {rest : Text} {found : Found} :
      trivia? c rest = none →
      Scan.lexeme memory.braces memory.previous c rest = .ok found →
      Reaches found.memory (rest.drop found.extra) memory' t' →
      Reaches memory (c :: rest) memory' t'

/-- **The loop fails exactly where it cannot read a lexeme.** -/
theorem tokensFrom_isOk_iff (memory : Memory) (offset : Nat) (t : Text) :
    (tokensFrom memory 0 offset t).isOk = true
      ↔ ∀ memory' c rest, Reaches memory t memory' (c :: rest) → trivia? c rest = none →
          (lexeme memory'.braces memory'.previous c rest).isOk = true := by
  induction memory, offset, t using walk_induct with
  | nil memory offset =>
      rw [tokensFrom_nil]
      refine iff_of_true rfl ?_
      intro memory' c rest reached
      cases reached
  | trivia memory offset c rest extra newline trivial ih =>
      rw [tokensFrom_trivia trivial, ih]
      constructor
      · intro later memory' d after reached
        cases reached with
        | here =>
            intro notTrivial
            rw [trivial] at notTrivial
            cases notTrivial
        | trivia skipped reached =>
            rw [trivial] at skipped
            cases skipped
            exact later memory' d after reached
        | lexeme notTrivial _ _ =>
            rw [trivial] at notTrivial
            cases notTrivial
      · intro all memory' d after reached
        exact all memory' d after (.trivia trivial reached)
  | failure memory offset c rest failure trivial read =>
      rw [tokensFrom_failure trivial read]
      refine iff_of_false Bool.false_ne_true ?_
      intro all
      have readHere := all memory c rest .here trivial
      rw [read] at readHere
      cases readHere
  | lexeme memory offset c rest found trivial read ih =>
      have same : (tokensFrom memory 0 offset (c :: rest)).isOk
          = (tokensFrom found.memory 0 (offset + 1 + min found.extra rest.length)
              (rest.drop found.extra)).isOk := by
        rw [tokensFrom_lexeme trivial read]
        cases tokensFrom found.memory 0 (offset + 1 + min found.extra rest.length)
          (rest.drop found.extra) <;> rfl
      rw [same, ih]
      constructor
      · intro later memory' d after reached
        cases reached with
        | here =>
            intro _
            rw [read]
            rfl
        | trivia skipped _ =>
            rw [trivial] at skipped
            cases skipped
        | lexeme _ sameRead reached =>
            rw [read] at sameRead
            cases sameRead
            exact later memory' d after reached
      · intro all memory' d after reached
        exact all memory' d after (.lexeme trivial read reached)

end Scan

end StackLint

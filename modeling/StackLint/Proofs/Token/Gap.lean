/-
  StackLint.Proofs.Token.Gap
  ──────────────────────────
  **READING A GAP ON ITS OWN.**

  A gap between two tokens is passed over wherever it stands.  Read as a text
  of its own it has no tokens, and a comma between two gaps is the one token
  there.
-/
import StackLint.Proofs.Token.Cut

namespace StackLint

namespace Scan

/-! ## §1. Comments. -/

theorem ClosedComment.ne_nil {body : Text} (h : ClosedComment body) : body ≠ [] := by
  cases h <;> exact List.cons_ne_nil _ _

/-- A closed comment is read up to its end, whatever follows. -/
theorem blockComment_append {body : Text} (h : ClosedComment body) (rest : Text) :
    blockComment (body ++ rest) = (body.length, body.contains (.scalar '\n')) := by
  induction h with
  | close => rfl
  | @char c body goesOn closed ih =>
      have head : (body ++ rest).head? = body.head? := by
        cases body with
        | nil => exact absurd rfl closed.ne_nil
        | cons d body => rfl
      rw [List.cons_append, blockComment, head, if_neg goesOn, ih]
      show (body.length + 1, body.contains (.scalar '\n') || c == .scalar '\n') = _
      rw [List.length_cons, List.contains_cons, Bool.or_comm]
      congr 2
      rw [Bool.eq_iff_iff, beq_iff_eq, beq_iff_eq]
      exact eq_comm

/-- A line comment is read up to its newline. -/
theorem runLength_line {body : Text} (h : .scalar '\n' ∉ body) (rest : Text) :
    runLength (· != (.scalar '\n')) (body ++ .scalar '\n' :: rest) = body.length := by
  unfold runLength
  rw [List.takeWhile_append_of_pos]
  · rw [List.takeWhile_cons, bne_self_eq_false, if_neg Bool.false_ne_true, List.append_nil]
  · intro c inside
    rw [bne_iff_ne]
    rintro rfl
    exact h inside

/-! ## §2. Gaps. -/

theorem trivia?_newline (rest : Text) : trivia? (.scalar '\n') rest = some (0, true) := by
  unfold trivia?
  rw [if_pos rfl]

theorem trivia?_blank {c : CodePoint} (h : c = .scalar '\n' ∨ isBlank c = true) (rest : Text) :
    trivia? c rest = some (0, c == .scalar '\n') := by
  unfold trivia?
  by_cases atNewline : c = .scalar '\n'
  · rw [if_pos atNewline, atNewline, beq_self_eq_true]
  · rw [if_neg atNewline, if_pos (h.resolve_left atNewline), beq_eq_false_iff_ne.mpr atNewline]

theorem trivia?_line (rest : Text) :
    trivia? (.scalar '/') (.scalar '/' :: rest)
      = some (1 + runLength (· != (.scalar '\n')) rest, false) := by
  unfold trivia?
  rw [if_neg (by decide), if_neg (by decide), if_pos rfl]
  simp only [if_true]

theorem trivia?_block (rest : Text) :
    trivia? (.scalar '/') (.scalar '*' :: rest)
      = some (1 + (blockComment rest).1, (blockComment rest).2) := by
  unfold trivia?
  rw [if_neg (by decide), if_neg (by decide), if_pos rfl]
  simp only [show CodePoint.scalar '*' ≠ .scalar '/' by decide, if_false, if_true]

/-- The memory behind a piece of a gap. -/
def Memory.behind (memory : Memory) (piece : Text) : Memory :=
  { memory with newline := memory.newline || piece.contains (.scalar '\n') }

theorem Memory.behind_append (memory : Memory) (piece rest : Text) :
    memory.behind (piece ++ rest) = (memory.behind piece).behind rest := by
  unfold Memory.behind
  rw [List.contains_append, Bool.or_assoc]

/-- The scanner passes over a piece, whatever follows. -/
def PassesOver (piece : Text) : Prop :=
  ∀ memory offset t, tokensFrom memory 0 offset (piece ++ t)
    = tokensFrom (memory.behind piece) 0 (offset + piece.length) t

theorem PassesOver.append {piece rest : Text} (h : PassesOver piece) (h' : PassesOver rest) :
    PassesOver (piece ++ rest) := by
  intro memory offset t
  rw [List.append_assoc, h, h', Memory.behind_append, List.length_append, Nat.add_assoc]

theorem passesOver_blank {c : CodePoint} (h : c = .scalar '\n' ∨ isBlank c = true) :
    PassesOver [c] := by
  intro memory offset t
  have newline : List.contains [c] (.scalar '\n') = (c == .scalar '\n') := by
    rw [List.contains_cons, List.contains_nil, Bool.or_false, Bool.eq_iff_iff, beq_iff_eq,
      beq_iff_eq]
    exact eq_comm
  unfold Memory.behind
  rw [newline, List.cons_append, tokensFrom_trivia (trivia?_blank h _), List.drop_zero,
    Nat.zero_min, Nat.add_zero]
  rfl

/-- A line comment is passed over in two steps, the second one for its
newline. -/
theorem passesOver_line {body : Text} (h : .scalar '\n' ∉ body) :
    PassesOver (.scalar '/' :: .scalar '/' :: (body ++ [.scalar '\n'])) := by
  intro memory offset t
  have width : runLength (· != (.scalar '\n')) (body ++ [.scalar '\n'] ++ t) = body.length := by
    rw [List.append_assoc]
    exact runLength_line h t
  have skipped : (CodePoint.scalar '/' :: (body ++ [.scalar '\n'] ++ t)).drop (1 + body.length)
      = .scalar '\n' :: t := by
    rw [List.append_assoc, Nat.add_comm, List.drop_succ_cons, List.drop_left]
    rfl
  have newline : List.contains
      (CodePoint.scalar '/' :: .scalar '/' :: (body ++ [CodePoint.scalar '\n'])) (.scalar '\n')
      = true := by
    simp
  unfold Memory.behind
  rw [newline, Bool.or_true, List.cons_append, List.cons_append,
    tokensFrom_trivia (trivia?_line _), width, skipped,
    tokensFrom_trivia (trivia?_newline t), List.drop_zero, Nat.zero_min]
  simp only [Bool.or_true]
  congr 1
  simp only [List.length_append, List.length_cons, List.length_nil]
  omega

theorem passesOver_block {body : Text} (h : ClosedComment body) :
    PassesOver (.scalar '/' :: .scalar '*' :: body) := by
  intro memory offset t
  have skipped : (CodePoint.scalar '*' :: (body ++ t)).drop (1 + body.length) = t := by
    rw [Nat.add_comm, List.drop_succ_cons, List.drop_left]
  unfold Memory.behind
  rw [contains_newline_cons (by decide), contains_newline_cons (by decide), List.cons_append,
    List.cons_append, tokensFrom_trivia (trivia?_block (body ++ t)), blockComment_append h, skipped]
  congr 1
  simp only [List.length_append, List.length_cons]
  omega

/-- **The scanner passes over a gap.** -/
theorem passesOver_gap {gap : Text} (h : Gap false gap) : PassesOver gap := by
  induction h with
  | nil =>
      intro memory offset t
      unfold Memory.behind
      rw [List.contains_nil, Bool.or_false]
      rfl
  | blank isBlank _ ih => exact (passesOver_blank isBlank).append ih
  | line oneLine _ ih =>
      have passes := (passesOver_line oneLine).append ih
      rw [List.cons_append, List.cons_append, List.append_assoc] at passes
      exact passes
  | block closed _ ih => exact (passesOver_block closed).append ih
  | openLine never => cases never
  | openBlock never => cases never

/-- What begins with no gap begins with a token. -/
theorem start_of_tokensFrom {memory : Memory} {offset : Nat} {d : CodePoint} {y : Text}
    {tokens : List Token} (solid : trivia? d y = none)
    (run : tokensFrom memory 0 offset (d :: y) = .ok tokens) :
    tokens.head?.map Token.start = some offset := by
  cases read : lexeme memory.braces memory.previous d y with
  | error failure =>
      rw [tokensFrom_failure solid read] at run
      cases run
  | ok found =>
      rw [tokensFrom_lexeme solid read] at run
      obtain ⟨others, _, rfl⟩ := map_eq_ok.mp run
      rfl

/-! ## §3. Gaps as texts. -/

/-- Characters with which blanks and comments begin. -/
def gapMarks : Text :=
  "\n \t\r\x0c\x0b\ufeff\u00a0/"

theorem Gap.mem_marks {gap : Text} (isGap : Gap false gap) : ∀ g ∈ gap.head?, g ∈ gapMarks := by
  intro g isHead
  cases isGap with
  | nil => cases isHead
  | blank blank _ =>
      cases isHead
      unfold isBlank at blank
      simp only [Bool.or_eq_true, beq_iff_eq] at blank
      rcases blank with rfl | (((((rfl | rfl) | rfl) | rfl) | rfl) | rfl) | rfl <;> decide
  | line _ _ | block _ _ =>
      cases isHead
      decide
  | openLine never => cases never
  | openBlock never => cases never

/-- A gap begins no line that names an interpreter. -/
theorem hashbangWidth_gap {gap : Text} (h : Gap false gap) {t : Text}
    (noHash : t.head? ≠ some (.scalar '#')) : hashbangWidth (gap ++ t) = 0 := by
  have noHash : (gap ++ t).head? ≠ some (.scalar '#') := by
    cases h with
    | nil => exact noHash
    | @blank c rest isBlank _ =>
        intro isHash
        rw [List.cons_append, List.head?_cons] at isHash
        cases Option.some.inj isHash
        exact absurd isBlank (by decide)
    | line | block =>
        rw [List.cons_append, List.head?_cons]
        decide
    | openLine never => cases never
    | openBlock never => cases never
  unfold hashbangWidth
  split
  · next c d rest whole =>
      rw [whole, List.head?_cons] at noHash
      rw [if_neg]
      rintro ⟨rfl, _⟩
      exact noHash rfl
  · rfl

/-- **A gap has no tokens.** -/
theorem tokenize_gap {gap : Text} (h : Gap false gap) :
    ∃ final : Token, tokenize gap = .ok [final] ∧ final.lexeme = .endOfText := by
  have run := passesOver_gap h .start 0 []
  have noHashbang := hashbangWidth_gap h (t := []) (by simp)
  rw [List.append_nil] at run noHashbang
  unfold tokenize
  rw [noHashbang, run, tokensFrom_nil]
  exact ⟨_, rfl, rfl⟩

/-- A comma is a lexeme of its own, wherever it stands. -/
theorem lexeme_comma (braces : List OpenBrace) (previous : Option Lexeme) (rest : Text) :
    lexeme braces previous (.scalar ',') rest = .ok ⟨.punct .comma, 0, braces⟩ := by
  have noName : nameWidth (.scalar ',' :: rest) = 0 := by
    rw [nameWidth, if_neg]
    decide
  have comma : punctuator braces (.scalar ',') rest = ⟨.punct .comma, 0, braces⟩ := rfl
  unfold lexeme nameOrPunctuator
  rw [noName, comma]
  rfl

/-- **A comma between two gaps** is the one token there. -/
theorem tokenize_gap_comma {gap behind : Text} (h : Gap false gap) (h' : Gap false behind) :
    ∃ comma final : Token, tokenize (gap ++ .scalar ',' :: behind) = .ok [comma, final]
      ∧ comma.lexeme = .punct .comma ∧ comma.start = gap.length
      ∧ final.lexeme = .endOfText := by
  have notTrivial : trivia? (.scalar ',') behind = none := rfl
  have rest := passesOver_gap h' (Found.memory ⟨.punct .comma, 0, []⟩) (gap.length + 1) []
  rw [List.append_nil, tokensFrom_nil] at rest
  unfold tokenize
  rw [hashbangWidth_gap h (by rw [List.head?_cons]; decide), passesOver_gap h, Nat.zero_add,
    tokensFrom_lexeme notTrivial (lexeme_comma _ _ _), List.drop_zero, Nat.zero_min, Nat.add_zero]
  show ∃ comma final : Token, (tokensFrom (Found.memory ⟨.punct .comma, 0, []⟩) 0 (gap.length + 1)
    behind).map _ = _ ∧ _
  rw [rest]
  exact ⟨_, _, rfl, rfl, rfl, rfl⟩

end Scan

end StackLint

/-
  StackLint.Proofs.Token.Comment
  ──────────────────────────────
  **COMMENTS STAY OUT OF THE WAY.**

  A comment stands in the gap in front of a token, or behind the last one.  What
  is put at the edge of a token is put into no comment: neither between its two
  ends nor, when nothing closes the comment, at its end.
-/
import StackLint.Proofs.Token.Seam

namespace StackLint

namespace Scan

/-! ## §1. Comments in gaps. -/

/-- A comment in a gap, with what follows it there.  It is open when what is put
behind it would belong to it: a comment on a line, or one that is never closed. -/
inductive Comment : (isOpen : Bool) → (comment rest : Text) → Prop where
  | line {body rest : Text} (oneLine : .scalar '\n' ∉ body)
      (ends : rest = [] ∨ rest.head? = some (.scalar '\n')) :
      Comment true (.scalar '/' :: .scalar '/' :: body) rest
  | block {body rest : Text} (closed : ClosedComment body) :
      Comment false (.scalar '/' :: .scalar '*' :: body) rest
  | unclosed {body : Text} (neverClosed : OpenComment body) :
      Comment true (.scalar '/' :: .scalar '*' :: body) []

theorem Comment.length_pos {isOpen : Bool} {comment rest : Text} (h : Comment isOpen comment rest) :
    0 < comment.length := by
  cases h <;> exact Nat.succ_pos _

/-- What begins like a closed comment is closed. -/
theorem ClosedComment.not_open {body rest : Text} (closed : ClosedComment body) :
    ¬ OpenComment (body ++ rest) := by
  induction closed with
  | close =>
      intro neverClosed
      cases neverClosed with
      | char goesOn _ => exact goesOn ⟨rfl, rfl⟩
  | char _ _ ih =>
      intro neverClosed
      cases neverClosed with
      | char _ neverClosed => exact ih neverClosed

/-- Between two tokens no comment is left open. -/
theorem Comment.not_gap {comment : Text} (h : Comment true comment []) : ¬ Gap false comment := by
  intro gap
  cases h with
  | line oneLine _ =>
      cases gap with
      | blank isBlank _ => exact absurd isBlank (by decide)
      | line _ _ =>
          exact oneLine (List.mem_append_right _ (List.mem_cons_self ..))
      | openLine never => cases never
  | unclosed neverClosed =>
      cases gap with
      | blank isBlank _ => exact absurd isBlank (by decide)
      | block closed _ => exact closed.not_open neverClosed
      | openBlock never => cases never

/-- Two texts of one line that end with the line. -/
theorem eq_of_line {body body' rest rest' : Text} (oneLine : .scalar '\n' ∉ body)
    (oneLine' : .scalar '\n' ∉ body')
    (same : body ++ .scalar '\n' :: rest = body' ++ .scalar '\n' :: rest') : rest = rest' := by
  have length := congrArg (runLength (· != (.scalar '\n'))) same
  rw [runLength_line oneLine, runLength_line oneLine'] at length
  exact (List.cons.inj (List.append_inj same length).2).2

/-- Two closed comments at the head of one text. -/
theorem eq_of_closed {body body' rest rest' : Text} (closed : ClosedComment body)
    (closed' : ClosedComment body') (same : body ++ rest = body' ++ rest') : rest = rest' := by
  have length := congrArg (fun t => (blockComment t).1) same
  rw [blockComment_append closed, blockComment_append closed'] at length
  exact (List.append_inj same length).2

/-- How a gap goes on that begins with a blank. -/
theorem Gap.of_blank {last : Bool} {c : CodePoint} {rest : Text}
    (isBlank : c = .scalar '\n' ∨ isBlank c = true) (whole : Gap last (c :: rest)) :
    Gap last rest := by
  cases whole with
  | blank _ gap => exact gap
  | line | block | openLine | openBlock => exact absurd isBlank (by decide)

/-- How a gap goes on that begins with a comment on a line. -/
theorem Gap.of_line {last : Bool} {body rest : Text} (oneLine : .scalar '\n' ∉ body)
    (whole : Gap last (.scalar '/' :: .scalar '/' :: (body ++ .scalar '\n' :: rest))) :
    Gap last rest := by
  generalize same : body ++ .scalar '\n' :: rest = t at whole
  cases whole with
  | blank isBlank _ => exact absurd isBlank (by decide)
  | line oneLine' gap =>
      rw [eq_of_line oneLine oneLine' same]
      exact gap
  | openLine _ oneLine' =>
      refine absurd ?_ oneLine'
      rw [← same]
      exact List.mem_append_right _ (List.mem_cons_self ..)

/-- How a gap goes on that begins with a closed comment. -/
theorem Gap.of_block {last : Bool} {body rest : Text} (closed : ClosedComment body)
    (whole : Gap last (.scalar '/' :: .scalar '*' :: (body ++ rest))) : Gap last rest := by
  generalize same : body ++ rest = t at whole
  cases whole with
  | blank isBlank _ => exact absurd isBlank (by decide)
  | block closed' gap =>
      rw [eq_of_closed closed closed' same]
      exact gap
  | openBlock _ neverClosed =>
      rw [← same] at neverClosed
      exact absurd neverClosed closed.not_open

/-- **A gap goes on as a gap** behind each gap that it begins with. -/
theorem Gap.of_append {last : Bool} {front rest : Text} (isFront : Gap false front)
    (whole : Gap last (front ++ rest)) : Gap last rest := by
  induction isFront with
  | nil => exact whole
  | blank isBlank _ ih => exact ih (whole.of_blank isBlank)
  | line oneLine _ ih =>
      rw [List.cons_append, List.cons_append, List.append_assoc] at whole
      exact ih (whole.of_line oneLine)
  | block closed _ ih =>
      rw [List.cons_append, List.cons_append, List.append_assoc] at whole
      exact ih (whole.of_block closed)
  | openLine never => cases never
  | openBlock never => cases never

end Scan

/-! ## §2. Comments of a layout. -/

namespace Layout

variable {L : Layout}

/-- Where the gap in front of the token `i` begins: behind the token before it, or
behind a line that names an interpreter. -/
def gapStart (L : Layout) : Nat → Nat
  | 0 => Scan.hashbangWidth L.text
  | i + 1 => L.stopBefore (i + 1)

theorem stopBefore_le_gapStart (L : Layout) (i : Nat) : L.stopBefore i ≤ L.gapStart i := by
  cases i with
  | zero => exact Nat.zero_le _
  | succ i => exact Nat.le_refl _

/-- The gap in front of a token. -/
theorem gap_front {i : Nat} (h : i < L.size) :
    Scan.Gap false (L.text.slice (L.gapStart i) (L.startAt i)) := by
  cases i with
  | zero =>
      have cut := L.cut
      have front := L.drop_eq_cons h
      rw [List.drop_zero] at front
      rw [front, List.cons_append] at cut
      exact (cut.head (by simp)).2.2.2.2.1
  | succ i => exact gap_slice (Nat.succ_pos i) h

/-- **A comment of the text**, from one offset up to another one. -/
inductive HasComment (L : Layout) (isOpen : Bool) : (start stop : Nat) → Prop where
  | mk {i : Nat} {front comment rest : Text} (inside : i ≤ L.size)
      (gap : L.text.slice (L.gapStart i) (L.startAt i) = front ++ (comment ++ rest))
      (isFront : Scan.Gap false front) (isComment : Scan.Comment isOpen comment rest) :
      HasComment L isOpen (L.gapStart i + front.length)
        (L.gapStart i + front.length + comment.length)

/-! ## §3. Edges of tokens. -/

/-- The offset is the start or the end of a token. -/
inductive Edge (L : Layout) : Nat → Prop where
  | start {i : Nat} (h : i < L.size) : Edge L (L.startAt i)
  | stop {i : Nat} (h : i < L.size) : Edge L (L.stopBefore (i + 1))

/-- **An edge of a token is not inside of a token.** -/
theorem Edge.not_in_token {place : Nat} (edge : L.Edge place) (k : Nat) :
    place ≤ L.startAt k ∨ L.stopBefore (k + 1) ≤ place := by
  cases edge with
  | @start i isToken =>
      by_cases before : i ≤ k
      · exact .inl (L.startAt_mono before)
      · exact .inr (Nat.le_trans (L.stopBefore_mono (by omega)) (L.stopBefore_le_startAt i))
  | @stop i isToken =>
      by_cases before : i < k
      · exact .inl (Nat.le_trans (L.stopBefore_mono before) (L.stopBefore_le_startAt k))
      · exact .inr (L.stopBefore_mono (by omega))

/-- **An edge of a token is not inside of a comment**, and not at the end of one that
is open. -/
theorem Edge.not_in_comment {place : Nat} (edge : L.Edge place) {isOpen : Bool} {start stop : Nat}
    (h : L.HasComment isOpen start stop) :
    place ≤ start ∨ (stop ≤ place ∧ (isOpen = true → stop < place)) := by
  obtain @⟨k, front, comment, rest, inside, gap, isFront, isComment⟩ := h
  have gapStart := L.stopBefore_le_gapStart k
  -- The comment ends at or in front of the token `k`.
  have whole : L.gapStart k + front.length + comment.length + rest.length = L.startAt k := by
    have positive := isComment.length_pos
    have length := congrArg List.length gap
    rw [List.length_append, List.length_append] at length
    have wide : L.gapStart k < L.startAt k := by
      refine Text.lt_of_slice (t := L.text) fun empty => ?_
      rw [empty, List.length_nil] at length
      omega
    rw [L.text.length_slice (Nat.le_of_lt wide) (L.startAt_le k)] at length
    omega
  cases edge with
  | @start i isToken =>
      rcases Nat.lt_trichotomy i k with before | rfl | behind
      · have le := L.startAt_le_stopBefore before
        omega
      · -- An open comment would have to reach up to the token.
        refine .inr ⟨by omega, ?_⟩
        rintro rfl
        cases rest with
        | nil =>
            rw [List.append_nil] at gap
            have isGap := L.gap_front isToken
            rw [gap] at isGap
            exact absurd (isFront.of_append isGap) isComment.not_gap
        | cons c rest =>
            rw [List.length_cons] at whole
            omega
      · have one : L.startAt k < L.stopBefore (k + 1) :=
          L.startAt_lt_stopBefore (Nat.lt_succ_self k) (by omega)
        have two : L.stopBefore (k + 1) ≤ L.stopBefore i := L.stopBefore_mono behind
        have three := L.stopBefore_le_startAt i
        omega
  | @stop i isToken =>
      by_cases before : i < k
      · have le : L.stopBefore (i + 1) ≤ L.stopBefore k := L.stopBefore_mono before
        omega
      · have one : L.startAt k < L.stopBefore (k + 1) :=
          L.startAt_lt_stopBefore (Nat.lt_succ_self k) (by omega)
        have two : L.stopBefore (k + 1) ≤ L.stopBefore (i + 1) := L.stopBefore_mono (by omega)
        omega

end Layout

end StackLint

/-
  StackLint.Proofs.Token.Layout
  ─────────────────────────────
  **WHERE THE TOKENS LIE.**

  A `Layout` is a text with its tokens.  Its laws are about indices: the token
  `i` begins at `startAt i`, the one before it ends at `stopBefore i`, and
  between them there is a gap.  Offsets grow with indices and never leave the
  text.
-/
import StackLint.Proofs.Token.Cut

namespace StackLint

namespace Scan

/-! ## §1. One cut after the other. -/

theorem Cut.ne_nil {pending : Bool} {offset : Nat} {t : Text} {tokens : List Token}
    (cut : Cut pending offset t tokens) : tokens ≠ [] := by
  cases cut <;> exact List.cons_ne_nil _ _

/-- A token that is not the last one. -/
theorem Cut.head {pending : Bool} {offset : Nat} {text : Text} {t : Token} {tokens : List Token}
    (cut : Cut pending offset (text.drop offset) (t :: tokens)) (more : tokens ≠ []) :
    t.lexeme ≠ .endOfText ∧ offset ≤ t.start ∧ t.start < t.stop ∧ t.stop ≤ text.length
      ∧ Gap false (text.slice offset t.start)
      ∧ (t.lexeme.isVerbatim = true → text.slice t.start t.stop = t.lexeme.value)
      ∧ Cut false t.stop (text.drop t.stop) tokens := by
  generalize whole : text.drop offset = left at cut
  cases cut with
  | last => exact absurd rfl more
  | @token _ _ gap spelling rest _ _ isGap nonempty spells start stop newline cut =>
      have length := congrArg List.length whole
      rw [List.length_drop, List.length_append, List.length_append] at length
      have positive := List.length_pos_iff.mpr nonempty
      -- Behind the gap the text goes on with the spelling, and behind that with the rest.
      have atStart : text.drop t.start = spelling ++ rest := by
        rw [start, ← List.drop_drop, whole, List.drop_left]
      have atStop : text.drop t.stop = rest := by
        rw [stop, ← List.drop_drop, atStart, List.drop_left]
      refine ⟨spells.1, by omega, by omega, by omega, ?_, ?_, ?_⟩
      · unfold Text.slice
        rw [whole, start, Nat.add_sub_cancel_left, List.take_left]
        exact isGap
      · intro verbatim
        unfold Text.slice
        rw [atStart, stop, Nat.add_sub_cancel_left, List.take_left]
        exact spells.2 verbatim
      · rw [atStop]
        exact cut

/-- The last token. -/
theorem Cut.single {pending : Bool} {offset : Nat} {text : Text} {t : Token}
    (cut : Cut pending offset (text.drop offset) [t]) (inside : offset ≤ text.length) :
    t.lexeme = .endOfText ∧ t.start = text.length ∧ t.stop = text.length := by
  generalize whole : text.drop offset = left at cut
  cases cut with
  | last _ isEnd start stop _ =>
      have length := congrArg List.length whole
      rw [List.length_drop] at length
      exact ⟨isEnd, by omega, by omega⟩
  | token _ _ _ _ _ _ cut => cases cut

end Scan

/-! ## §2. Layouts. -/

/-- A character that begins no token. -/
def Token.isStray (t : Token) : Bool :=
  match t.lexeme with
  | .stray _ => true
  | _ => false

/-- A text with its tokens, the end of the text apart. -/
structure Layout where
  text : Text
  tokens : List Token
  final : Token
  scanned : tokenize text = .ok (tokens ++ [final])

namespace Layout

/-- The token `i`; behind the last one there is only the end of the text. -/
def token (L : Layout) (i : Nat) : Token :=
  (L.tokens[i]?).getD L.final

/-- How many tokens there are. -/
def size (L : Layout) : Nat :=
  L.tokens.length

/-- Where the token `i` begins. -/
def startAt (L : Layout) (i : Nat) : Nat :=
  (L.token i).start

/-- Where the token before the token `i` ends. -/
def stopBefore (L : Layout) : Nat → Nat
  | 0 => 0
  | i + 1 => (L.token i).stop

/-- The tokens of every text that can be cut into tokens. -/
theorem exists_of_tokenize {text : Text} {tokens : List Token} (h : tokenize text = .ok tokens) :
    ∃ L : Layout, L.text = text ∧ tokens = L.tokens ++ [L.final] := by
  have split := List.dropLast_concat_getLast (Scan.cut_of_tokenize h).ne_nil
  rw [← split] at h
  exact ⟨⟨text, _, _, h⟩, rfl, split.symm⟩

/-- The text is cut from behind the line that names an interpreter. -/
theorem cut (L : Layout) :
    Scan.Cut false (Scan.hashbangWidth L.text) (L.text.drop (Scan.hashbangWidth L.text))
      (L.tokens ++ [L.final]) :=
  Scan.cut_of_tokenize L.scanned

theorem token_of_lt (L : Layout) {i : Nat} (h : i < L.size) :
    L.token i = L.tokens.get ⟨i, h⟩ := by
  unfold token
  rw [List.getElem?_eq_getElem h]
  rfl

theorem token_of_le (L : Layout) {i : Nat} (h : L.size ≤ i) : L.token i = L.final := by
  unfold token
  rw [List.getElem?_eq_none h]
  rfl

theorem drop_eq_cons (L : Layout) {i : Nat} (h : i < L.size) :
    L.tokens.drop i = L.token i :: L.tokens.drop (i + 1) := by
  rw [L.token_of_lt h]
  exact List.drop_eq_getElem_cons h

/-- The first one of the tokens that are left. -/
theorem head?_drop (L : Layout) (i : Nat) :
    (L.tokens.drop i ++ [L.final]).head? = some (L.token i) := by
  by_cases inside : i < L.size
  · rw [L.drop_eq_cons inside]
    rfl
  · have behind := Nat.le_of_not_lt inside
    rw [L.token_of_le behind, List.drop_eq_nil_of_le behind]
    rfl

/-- The tokens around the token `i`. -/
theorem scanned_split (L : Layout) {i : Nat} (h : i < L.size) :
    tokenize L.text = .ok (L.tokens.take i ++ L.token i :: (L.tokens.drop (i + 1) ++ [L.final])) := by
  rw [L.scanned, ← List.cons_append, ← L.drop_eq_cons h, ← List.append_assoc,
    List.take_append_drop]

/-- From every token on the text is cut. -/
theorem cut_from (L : Layout) {i : Nat} (h : i ≤ L.size) :
    ∃ offset, L.stopBefore i ≤ offset ∧ offset ≤ L.text.length
      ∧ (0 < i → offset = L.stopBefore i)
      ∧ Scan.Cut false offset (L.text.drop offset) (L.tokens.drop i ++ [L.final]) := by
  induction i with
  | zero =>
      exact ⟨_, Nat.zero_le _, Scan.hashbangWidth_le L.text, fun h => absurd h (Nat.lt_irrefl 0),
        L.cut⟩
  | succ i ih =>
      obtain ⟨offset, _, _, _, cut⟩ := ih (by omega)
      rw [L.drop_eq_cons h, List.cons_append] at cut
      obtain ⟨_, _, _, inside, _, _, next⟩ := cut.head (by simp)
      exact ⟨(L.token i).stop, Nat.le_refl _, inside, fun _ => rfl, next⟩

/-! ## §3. Laws. -/

/-- **A token in its place.** -/
theorem token_spec (L : Layout) {i : Nat} (h : i < L.size) :
    (L.token i).lexeme ≠ .endOfText ∧ L.stopBefore i ≤ L.startAt i
      ∧ L.startAt i < L.stopBefore (i + 1) ∧ L.stopBefore (i + 1) ≤ L.text.length
      ∧ (0 < i → Scan.Gap false (L.text.slice (L.stopBefore i) (L.startAt i)))
      ∧ ((L.token i).lexeme.isVerbatim = true →
          L.text.slice (L.startAt i) (L.stopBefore (i + 1)) = (L.token i).lexeme.value) := by
  obtain ⟨offset, behind, _, same, cut⟩ := L.cut_from (Nat.le_of_lt h)
  rw [L.drop_eq_cons h, List.cons_append] at cut
  obtain ⟨notEnd, start, nonempty, inside, gap, spelled, _⟩ := cut.head (by simp)
  refine ⟨notEnd, Nat.le_trans behind start, nonempty, inside, ?_, spelled⟩
  intro positive
  rw [← same positive]
  exact gap

/-- The end of the text. -/
theorem final_spec (L : Layout) :
    L.final.lexeme = .endOfText ∧ L.final.start = L.text.length ∧ L.final.stop = L.text.length := by
  obtain ⟨offset, _, inside, _, cut⟩ := L.cut_from (Nat.le_refl L.size)
  unfold size at cut
  rw [List.drop_length, List.nil_append] at cut
  exact cut.single inside

theorem isEnd_iff (L : Layout) (i : Nat) : (L.token i).isEnd = true ↔ L.size ≤ i := by
  unfold Token.isEnd
  rw [beq_iff_eq]
  constructor
  · intro isEnd
    by_cases h : i < L.size
    · exact absurd isEnd (L.token_spec h).1
    · omega
  · intro h
    rw [L.token_of_le h]
    exact L.final_spec.1

theorem startAt_of_le (L : Layout) {i : Nat} (h : L.size ≤ i) : L.startAt i = L.text.length := by
  unfold startAt
  rw [L.token_of_le h]
  exact L.final_spec.2.1

theorem startAt_le (L : Layout) (i : Nat) : L.startAt i ≤ L.text.length := by
  by_cases h : i < L.size
  · have spec := L.token_spec h
    omega
  · exact Nat.le_of_eq (L.startAt_of_le (Nat.le_of_not_lt h))

/-- Behind the last token the text ends. -/
theorem stopBefore_succ_of_le (L : Layout) {i : Nat} (h : L.size ≤ i) :
    L.stopBefore (i + 1) = L.text.length := by
  show (L.token i).stop = _
  rw [L.token_of_le h]
  exact L.final_spec.2.2

theorem stopBefore_le (L : Layout) (i : Nat) : L.stopBefore i ≤ L.text.length := by
  cases i with
  | zero => exact Nat.zero_le _
  | succ i =>
      by_cases h : i < L.size
      · exact (L.token_spec h).2.2.2.1
      · exact Nat.le_of_eq (L.stopBefore_succ_of_le (Nat.le_of_not_lt h))

theorem stopBefore_le_startAt (L : Layout) (i : Nat) : L.stopBefore i ≤ L.startAt i := by
  by_cases h : i < L.size
  · exact (L.token_spec h).2.1
  · rw [L.startAt_of_le (by omega)]
    exact L.stopBefore_le i

theorem startAt_le_stopBefore_succ (L : Layout) (i : Nat) :
    L.startAt i ≤ L.stopBefore (i + 1) := by
  by_cases h : i < L.size
  · exact Nat.le_of_lt (L.token_spec h).2.2.1
  · rw [L.stopBefore_succ_of_le (Nat.le_of_not_lt h)]
    exact L.startAt_le i

theorem stopBefore_mono (L : Layout) {i j : Nat} (h : i ≤ j) :
    L.stopBefore i ≤ L.stopBefore j := by
  induction h with
  | refl => exact Nat.le_refl _
  | @step j _ ih =>
      have one := L.stopBefore_le_startAt j
      have two := L.startAt_le_stopBefore_succ j
      exact Nat.le_trans ih (Nat.le_trans one two)

/-- A range of tokens begins before it ends. -/
theorem startAt_le_stopBefore (L : Layout) {i j : Nat} (h : i < j) :
    L.startAt i ≤ L.stopBefore j := by
  have first := L.startAt_le_stopBefore_succ i
  have later : L.stopBefore (i + 1) ≤ L.stopBefore j := L.stopBefore_mono h
  omega

theorem startAt_mono (L : Layout) {i j : Nat} (h : i ≤ j) : L.startAt i ≤ L.startAt j := by
  rcases Nat.lt_or_eq_of_le h with before | rfl
  · exact Nat.le_trans (L.startAt_le_stopBefore before) (L.stopBefore_le_startAt j)
  · exact Nat.le_refl _

/-- A token begins in front of the next one. -/
theorem startAt_lt_startAt (L : Layout) {i j : Nat} (h : i < j) (inside : i < L.size) :
    L.startAt i < L.startAt j := by
  have first := (L.token_spec inside).2.2.1
  have later : L.stopBefore (i + 1) ≤ L.stopBefore j := L.stopBefore_mono h
  exact Nat.lt_of_lt_of_le first (Nat.le_trans later (L.stopBefore_le_startAt j))

/-- Different tokens begin in different places. -/
theorem eq_of_startAt_eq (L : Layout) {i j : Nat} (inside : i < L.size) (inside' : j < L.size)
    (same : L.startAt i = L.startAt j) : i = j := by
  rcases Nat.lt_trichotomy i j with less | isSame | less
  · exact absurd same (Nat.ne_of_lt (L.startAt_lt_startAt less inside))
  · exact isSame
  · exact absurd same.symm (Nat.ne_of_lt (L.startAt_lt_startAt less inside'))

/-- A range of tokens in front of the end of the text has a width. -/
theorem startAt_lt_stopBefore (L : Layout) {i j : Nat} (h : i < j) (inside : j ≤ L.size) :
    L.startAt i < L.stopBefore j := by
  have first := (L.token_spec (Nat.lt_of_lt_of_le h inside)).2.2.1
  exact Nat.lt_of_lt_of_le first (L.stopBefore_mono h)

/-- The tokens in front of a token. -/
theorem stop_le_of_mem_take (L : Layout) {i : Nat} {t : Token} (inside : t ∈ L.tokens.take i) :
    t.stop ≤ L.stopBefore i := by
  obtain ⟨k, isToken⟩ := List.getElem?_of_mem inside
  rw [List.getElem?_take] at isToken
  split at isToken
  · next before =>
      have same : L.token k = t := by
        unfold token
        rw [isToken]
        rfl
      rw [← same]
      exact L.stopBefore_mono (i := k + 1) before
  · cases isToken

/-- Every token has a width. -/
theorem start_lt_stop_of_mem (L : Layout) {t : Token} (inside : t ∈ L.tokens) : t.start < t.stop := by
  obtain ⟨k, isToken⟩ := List.getElem?_of_mem inside
  have same : L.token k = t := by
    unfold token
    rw [isToken]
    rfl
  rw [← same]
  exact (L.token_spec (List.getElem?_eq_some_iff.mp isToken).1).2.2.1

/-- A token and those behind it. -/
theorem le_start_of_mem_drop (L : Layout) {i : Nat} {t : Token} (inside : t ∈ L.tokens.drop i ++ [L.final]) :
    L.startAt i ≤ t.start := by
  rcases List.mem_append.mp inside with inside | isLast
  · obtain ⟨k, isToken⟩ := List.getElem?_of_mem inside
    rw [List.getElem?_drop] at isToken
    have same : L.token (i + k) = t := by
      unfold token
      rw [isToken]
      rfl
    rw [← same]
    exact L.startAt_mono (Nat.le_add_right i k)
  · rw [List.mem_singleton.mp isLast, L.final_spec.2.1]
    exact L.startAt_le i

end Layout

end StackLint

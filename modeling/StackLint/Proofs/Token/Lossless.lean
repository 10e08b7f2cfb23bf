/-
  StackLint.Proofs.Token.Lossless
  ───────────────────────────────
  **NOTHING OF A TEXT IS LOST.**

  Every code point of a text lies in one of its tokens or in the gap in front of
  one.  Tokens are in order and do not overlap, and what stands between them is
  blank, a comment, or the line that names an interpreter.

  `Lossless` says so from the outside, by the offsets of the tokens alone.  The
  induction is along the tokens: behind each of them the rest of the text is cut.
-/
import StackLint.Proofs.Token.Layout

namespace StackLint

namespace Scan

/-! ## §1. Cuts by offsets. -/

variable {pending : Bool} {offset : Nat} {text : Text} {t : Token} {tokens : List Token}

/-- A slice of known width. -/
theorem slice_of_drop {left rest : Text} {start : Nat} (whole : text.drop offset = left ++ rest)
    (isStart : start = offset + left.length) : text.slice offset start = left := by
  unfold Text.slice
  rw [whole, isStart, Nat.add_sub_cancel_left, List.take_left]

/-- **The gap in front of the first token of a cut.** -/
theorem Cut.gap_head (cut : Cut pending offset (text.drop offset) (t :: tokens)) :
    Gap tokens.isEmpty (text.slice offset t.start)
      ∧ t.newlineBefore = (pending || (text.slice offset t.start).contains (.scalar '\n')) := by
  generalize whole : text.drop offset = left at cut
  cases cut with
  | last gap _ start _ newline =>
      rw [slice_of_drop (whole.trans (List.append_nil _).symm) start]
      exact ⟨gap, newline⟩
  | token gap _ _ start _ newline cut =>
      rw [slice_of_drop whole start, List.isEmpty_eq_false_iff.mpr cut.ne_nil]
      exact ⟨gap, newline⟩

/-- What is known of a token in front of the last one. -/
structure InPlace (text : Text) (t : Token) : Prop where
  notEnd : t.lexeme ≠ .endOfText
  nonempty : t.start < t.stop
  inside : t.stop ≤ text.length
  verbatim : t.lexeme.isVerbatim = true → t.lexeme.value = text.slice t.start t.stop

/-- **Behind every token but the last one the text is cut.** -/
theorem Cut.behind (before : List Token)
    (cut : Cut pending offset (text.drop offset) (before ++ t :: tokens)) (more : tokens ≠ []) :
    InPlace text t ∧ offset ≤ t.start ∧ Cut false t.stop (text.drop t.stop) tokens := by
  induction before generalizing pending offset with
  | nil =>
      obtain ⟨notEnd, le, nonempty, inside, _, verbatim, behind⟩ := cut.head more
      exact ⟨⟨notEnd, nonempty, inside, fun kept => (verbatim kept).symm⟩, le, behind⟩
  | cons u before ih =>
      have notLast : before ++ t :: tokens ≠ [] :=
        List.append_ne_nil_of_right_ne_nil _ (List.cons_ne_nil _ _)
      obtain ⟨_, le, nonempty, _, _, _, behind⟩ := cut.head notLast
      obtain ⟨place, later, rest⟩ := ih behind
      exact ⟨place, Nat.le_trans (Nat.le_trans le (Nat.le_of_lt nonempty)) later, rest⟩

/-- No token of a cut begins before it. -/
theorem Cut.le_start (cut : Cut pending offset (text.drop offset) tokens)
    (inside : offset ≤ text.length) : ∀ u ∈ tokens, offset ≤ u.start := by
  induction tokens generalizing pending offset with
  | nil => exact List.forall_mem_nil _
  | cons first tokens ih =>
      cases tokens with
      | nil =>
          refine List.forall_mem_singleton.mpr ?_
          rw [(cut.single inside).2.1]
          exact inside
      | cons next tokens =>
          obtain ⟨place, le, behind⟩ := cut.behind [] (List.cons_ne_nil _ _)
          have later := ih behind place.inside
          refine List.forall_mem_cons.mpr ⟨le, fun u isToken => ?_⟩
          exact Nat.le_trans le (Nat.le_trans (Nat.le_of_lt place.nonempty) (later u isToken))

/-- **The tokens of a cut do not overlap.** -/
theorem Cut.pairwise (cut : Cut pending offset (text.drop offset) tokens) :
    tokens.Pairwise fun u w => u.stop ≤ w.start := by
  induction tokens generalizing pending offset with
  | nil => exact .nil
  | cons first tokens ih =>
      cases tokens with
      | nil => exact List.pairwise_singleton ..
      | cons next tokens =>
          obtain ⟨place, _, behind⟩ := cut.behind [] (List.cons_ne_nil _ _)
          exact .cons (behind.le_start place.inside) (ih behind)

/-! ## §2. The head of a text. -/

/-- **What may stand in front of the first token:** a gap, and in front of it the
line that names an interpreter. -/
inductive Opening (last : Bool) : Text → Prop where
  | gap {gap : Text} : Gap last gap → Opening last gap
  | hashbang {body gap : Text} : .scalar '\n' ∉ body →
      (gap = [] ∨ gap.head? = some (.scalar '\n')) → Gap last gap →
      Opening last (.scalar '#' :: .scalar '!' :: (body ++ gap))

/-- The first line of a text, and what follows it. -/
theorem exists_line (t : Text) :
    ∃ body after, t = body ++ after ∧ .scalar '\n' ∉ body
      ∧ (after = [] ∨ after.head? = some (.scalar '\n'))
      ∧ runLength (· != (.scalar '\n')) t = body.length := by
  refine ⟨_, _, (List.takeWhile_append_dropWhile (p := (· != (CodePoint.scalar '\n')))).symm,
    ?_, ?_, rfl⟩
  · intro inside
    have stops := List.all_eq_true.mp List.all_takeWhile _ inside
    rw [bne_self_eq_false] at stops
    cases stops
  · have first := List.head?_dropWhile_not (· != (CodePoint.scalar '\n')) t
    cases behind : t.dropWhile (· != (CodePoint.scalar '\n')) with
    | nil => exact .inl rfl
    | cons e after =>
        rw [behind] at first
        right
        simpa using first

/-- A text begins with the line that names an interpreter, or its tokens are cut
from its first code point on. -/
theorem hashbangWidth_spec (text : Text) :
    hashbangWidth text = 0 ∨
      ∃ body after, text = .scalar '#' :: .scalar '!' :: (body ++ after) ∧ .scalar '\n' ∉ body
        ∧ (after = [] ∨ after.head? = some (.scalar '\n'))
        ∧ hashbangWidth text = body.length + 2 := by
  unfold hashbangWidth
  split
  · next c d rest =>
      split
      · next isHashbang =>
          obtain ⟨rfl, rfl⟩ := isHashbang
          obtain ⟨body, after, rfl, oneLine, ends, width⟩ := exists_line rest
          exact .inr ⟨body, after, rfl, oneLine, ends, by rw [width, Nat.add_comm]⟩
      · exact .inl rfl
  · exact .inl rfl

/-- **The head of a text.**  A gap behind the line that names an interpreter
begins with the newline of that line. -/
theorem opening_of_gap {last : Bool} {text : Text} {start : Nat}
    (le : hashbangWidth text ≤ start)
    (gap : Gap last (text.slice (hashbangWidth text) start)) :
    Opening last (text.take start)
      ∧ (text.take start).contains (.scalar '\n')
          = (text.slice (hashbangWidth text) start).contains (.scalar '\n') := by
  rcases hashbangWidth_spec text with none | ⟨body, after, rfl, oneLine, ends, width⟩
  · rw [none] at gap ⊢
    exact ⟨.gap gap, rfl⟩
  · rw [width] at le gap ⊢
    obtain ⟨more, rfl⟩ := Nat.exists_eq_add_of_le le
    have head :
        (CodePoint.scalar '#' :: .scalar '!' :: (body ++ after)).take (body.length + 2 + more)
          = .scalar '#' :: .scalar '!' :: (body ++ after.take more) := by
      rw [Nat.add_right_comm, List.take_succ_cons, List.take_succ_cons, List.take_length_add_append]
    have tail : Text.slice (.scalar '#' :: .scalar '!' :: (body ++ after)) (body.length + 2)
        (body.length + 2 + more) = after.take more := by
      unfold Text.slice
      rw [List.drop_succ_cons, List.drop_succ_cons, List.drop_left, Nat.add_sub_cancel_left]
    rw [tail] at gap ⊢
    rw [head]
    refine ⟨.hashbang oneLine ?_ gap, ?_⟩
    · cases more with
      | zero => exact .inl (List.take_zero ..)
      | succ more =>
          refine ends.imp (fun nothing => ?_) fun newline => ?_
          · rw [nothing, List.take_nil]
          · rw [List.head?_take, if_neg (Nat.succ_ne_zero more), newline]
    · have noNewline : body.contains (CodePoint.scalar '\n') = false := by
        rw [Bool.eq_false_iff]
        exact fun inside => oneLine (List.contains_iff_mem.mp inside)
      rw [contains_newline_cons (by decide), contains_newline_cons (by decide),
        List.contains_append, noNewline, Bool.false_or]

end Scan

/-! ## §3. Nothing is lost. -/

/-- **The tokens hold the whole text,** up to what stands between them. -/
structure Lossless (text : Text) (tokens : List Token) : Prop where
  /-- The last token, and no other one, is the end of the text, and all others have
  a width. -/
  ends : ∃ read final, tokens = read ++ [final] ∧ final.lexeme = .endOfText
    ∧ final.start = text.length ∧ final.stop = text.length
    ∧ ∀ t ∈ read, t.lexeme ≠ .endOfText ∧ t.start < t.stop
  /-- Tokens are in order and do not overlap. -/
  inOrder : tokens.Pairwise fun t u => t.stop ≤ u.start
  /-- In front of the first token there is a gap, and the line that names an
  interpreter may stand before it. -/
  opening : ∀ first after, tokens = first :: after →
    Scan.Opening after.isEmpty (text.take first.start)
      ∧ first.newlineBefore = (text.take first.start).contains (.scalar '\n')
  /-- In front of every other token there is a gap.  Only the last one may end inside
  a comment. -/
  between : ∀ before t u after, tokens = before ++ t :: u :: after →
    Scan.Gap after.isEmpty (text.slice t.stop u.start)
      ∧ u.newlineBefore = (text.slice t.stop u.start).contains (.scalar '\n')
  /-- Words, numbers, regular expressions, punctuators and stray characters are kept
  as they are written. -/
  verbatim : ∀ t ∈ tokens, t.lexeme.isVerbatim = true →
    t.lexeme.value = text.slice t.start t.stop

open Scan in
/-- **Nothing of a text is lost** when it is cut into tokens. -/
theorem tokenize_lossless {text : Text} {tokens : List Token} (run : tokenize text = .ok tokens) :
    Lossless text tokens := by
  have cut := cut_of_tokenize run
  have inside := hashbangWidth_le text
  obtain ⟨L, rfl, rfl⟩ := Layout.exists_of_tokenize run
  have inPlace : ∀ t ∈ L.tokens, InPlace L.text t := by
    intro t isToken
    obtain ⟨before, after, split⟩ := List.append_of_mem isToken
    rw [split, List.append_assoc, List.cons_append] at cut
    exact (cut.behind _ (List.append_ne_nil_of_right_ne_nil _ (List.cons_ne_nil _ _))).1
  refine ⟨?ends, cut.pairwise, ?opening, ?between, ?verbatim⟩
  case ends =>
    obtain ⟨isEnd, start, stop⟩ := L.final_spec
    exact ⟨_, _, rfl, isEnd, start, stop, fun t isToken =>
      ⟨(inPlace t isToken).notEnd, (inPlace t isToken).nonempty⟩⟩
  case opening =>
    intro first after split
    rw [split] at cut
    have isToken : first ∈ first :: after := List.mem_cons_self ..
    have le := cut.le_start inside first isToken
    obtain ⟨gap, newline⟩ := cut.gap_head
    obtain ⟨opening, same⟩ := opening_of_gap le gap
    exact ⟨opening, by rw [newline, same, Bool.false_or]⟩
  case between =>
    intro before t u after split
    rw [split] at cut
    obtain ⟨_, _, behind⟩ := cut.behind _ (List.cons_ne_nil _ _)
    exact behind.gap_head
  case verbatim =>
    intro t isToken kept
    rcases List.mem_append.mp isToken with isRead | isFinal
    · exact (inPlace t isRead).verbatim kept
    · rw [List.mem_singleton.mp isFinal, L.final_spec.1] at kept
      cases kept

/-- A text with a line that names an interpreter, a comment in front of a slash that
divides, and a comment that is never closed. -/
def commentedRatio : Text :=
  "#!deno\n/* a */ a\n/ \"b\" /* c"

/-- Its tokens. -/
def commentedRatioTokens : List Token :=
  [⟨.word "a", 15, 16, true⟩, ⟨.punct .slash, 17, 18, true⟩, ⟨.string .double "b", 19, 22, false⟩,
   ⟨.endOfText, 27, 27, false⟩]

theorem tokenize_lossless_commentedRatio :
    tokenize commentedRatio = .ok commentedRatioTokens
      ∧ Lossless commentedRatio commentedRatioTokens :=
  have run : tokenize commentedRatio = .ok commentedRatioTokens :=
    eq_ok_of_toOption (by decide +kernel)
  ⟨run, tokenize_lossless run⟩

end StackLint

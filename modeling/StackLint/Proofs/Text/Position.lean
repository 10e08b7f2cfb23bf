/-
  StackLint.Proofs.Text.Position
  ──────────────────────────────
  **POSITIONS LIE IN THE TEXT.**

  A line begins at offset zero and behind every newline, so the line of an
  offset is counted from one and is no greater than the number of lines.  The
  position of an offset depends on the text in front of it alone, and grows with
  the offset.
-/
import Mathlib.Data.List.TakeWhile
import StackLint.Text.Position

namespace StackLint

namespace Text

/-- Even the empty text has a line. -/
theorem lines_ne_nil (t : Text) : t.lines ≠ [] := by
  cases t with
  | nil => exact List.cons_ne_nil _ _
  | cons c rest =>
      rw [lines]
      split
      · exact List.cons_ne_nil _ _
      · split
        · exact List.cons_ne_nil _ _
        · exact List.cons_ne_nil _ _

theorem length_lines_cons (c : CodePoint) (rest : Text) :
    (lines (c :: rest)).length = (lines rest).length + if c = '\n' then 1 else 0 := by
  rw [lines]
  split
  · rfl
  · cases same : lines rest with
    | nil => exact absurd same rest.lines_ne_nil
    | cons line others => rfl

/-- There are as many lines as places where one begins. -/
theorem length_lineStartsFrom (t : Text) (offset : Nat) :
    (t.lineStartsFrom offset).length + 1 = t.lines.length := by
  induction t generalizing offset with
  | nil => rfl
  | cons c rest ih =>
      rw [length_lines_cons, ← ih (offset + 1), lineStartsFrom]
      split
      · rfl
      · rfl

theorem length_lineStarts (t : Text) : t.lineStarts.length = t.lines.length :=
  length_lineStartsFrom t 0

/-- The lines that begin within the first `count` characters. -/
theorem takeWhile_lineStartsFrom (t : Text) (offset count : Nat) :
    (t.lineStartsFrom offset).takeWhile (· ≤ offset + count)
      = lineStartsFrom offset (t.take count) := by
  induction t generalizing offset count with
  | nil => rw [List.take_nil, lineStartsFrom, List.takeWhile_nil]
  | cons c rest ih =>
      cases count with
      | zero =>
          -- All the other lines begin behind the first character.
          have behind := ih (offset + 1) 0
          rw [List.take_zero] at behind ⊢
          show (lineStartsFrom offset (c :: rest)).takeWhile (· ≤ offset) = []
          rw [lineStartsFrom]
          by_cases isNewline : c = '\n'
          · rw [if_pos isNewline, List.takeWhile_cons_of_neg (by simp)]
          · rw [if_neg isNewline]
            cases starts : lineStartsFrom (offset + 1) rest with
            | nil => rfl
            | cons start others =>
                have far : offset + 1 < start := by
                  rw [starts] at behind
                  by_cases near : start ≤ offset + 1
                  · rw [List.takeWhile_cons_of_pos (by simpa using near)] at behind
                    cases behind
                  · omega
                rw [List.takeWhile_cons_of_neg (by simp; omega)]
      | succ count =>
          have next := ih (offset + 1) count
          have place : offset + (count + 1) = offset + 1 + count := by omega
          rw [List.take_succ_cons, lineStartsFrom, lineStartsFrom, place]
          by_cases isNewline : c = '\n'
          · rw [if_pos isNewline, if_pos isNewline, List.takeWhile_cons_of_pos (by simp), next]
          · rw [if_neg isNewline, if_neg isNewline, next]

/-- The lines that begin at or before an offset are those of the text in front of
it. -/
theorem takeWhile_lineStarts (t : Text) (offset : Nat) :
    t.lineStarts.takeWhile (· ≤ offset) = lineStarts (t.take offset) := by
  have later := t.takeWhile_lineStartsFrom 0 offset
  rw [Nat.zero_add] at later
  unfold lineStarts
  rw [List.takeWhile_cons_of_pos (by simp), later]

theorem lineStartsFrom_append (s t : Text) (offset : Nat) :
    lineStartsFrom offset (s ++ t)
      = s.lineStartsFrom offset ++ t.lineStartsFrom (offset + s.length) := by
  induction s generalizing offset with
  | nil => rfl
  | cons c rest ih =>
      have place : offset + (rest.length + 1) = offset + 1 + rest.length := by omega
      rw [List.cons_append, lineStartsFrom, lineStartsFrom, ih, List.length_cons, place]
      by_cases isNewline : c = '\n'
      · rw [if_pos isNewline, if_pos isNewline, List.cons_append]
      · rw [if_neg isNewline, if_neg isNewline]

end Text

namespace Position

theorem ofOffset_line_pos (t : Text) (offset : Nat) : 1 ≤ (ofOffset t.lineStarts offset).line := by
  unfold ofOffset Text.lineStarts
  simp only
  rw [List.takeWhile_cons_of_pos (by simp)]
  exact Nat.le_add_left 1 _

theorem ofOffset_line_le (t : Text) (offset : Nat) :
    (ofOffset t.lineStarts offset).line ≤ t.lines.length := by
  rw [← t.length_lineStarts]
  exact (List.takeWhile_sublist _).length_le

theorem ofOffset_column_pos (starts : List Nat) (offset : Nat) :
    1 ≤ (ofOffset starts offset).column :=
  Nat.le_add_left 1 _

/-- Only the text in front of an offset matters to its position. -/
theorem ofOffset_congr {t t' : Text} {offset : Nat} (same : t.take offset = t'.take offset) :
    ofOffset t.lineStarts offset = ofOffset t'.lineStarts offset := by
  unfold ofOffset lineStartOf
  rw [t.takeWhile_lineStarts, t'.takeWhile_lineStarts, same]

/-- **Positions grow with offsets.** -/
theorem ofOffset_lt (t : Text) {offset offset' : Nat} (less : offset < offset')
    (inside : offset' ≤ t.length) :
    (ofOffset t.lineStarts offset).line < (ofOffset t.lineStarts offset').line
      ∨ ((ofOffset t.lineStarts offset).line = (ofOffset t.lineStarts offset').line
        ∧ (ofOffset t.lineStarts offset).column < (ofOffset t.lineStarts offset').column) := by
  obtain ⟨between, split⟩ : ∃ between : Text, t.take offset' = t.take offset ++ between := by
    have prefixes := List.take_prefix_take_left (l := t) (Nat.le_of_lt less)
    obtain ⟨between, same⟩ := prefixes
    exact ⟨between, same.symm⟩
  have starts : Text.lineStarts (t.take offset')
      = Text.lineStarts (t.take offset) ++ between.lineStartsFrom offset := by
    unfold Text.lineStarts
    rw [split, Text.lineStartsFrom_append, List.length_take, Nat.zero_add,
      Nat.min_eq_left (by omega), List.cons_append]
  unfold ofOffset lineStartOf
  rw [t.takeWhile_lineStarts, t.takeWhile_lineStarts, starts]
  simp only [List.length_append]
  by_cases sameLine : between.lineStartsFrom offset = []
  · -- On one line the columns count from the same place.
    right
    rw [sameLine, List.append_nil]
    have first : (Text.lineStarts (t.take offset)).getLast?.getD 0 ≤ offset := by
      cases last : (Text.lineStarts (t.take offset)).getLast? with
      | none => exact Nat.zero_le _
      | some start =>
          have isStart := List.mem_of_getLast? last
          rw [← t.takeWhile_lineStarts] at isStart
          simpa using List.mem_takeWhile_imp isStart
    refine ⟨by simp, ?_⟩
    omega
  · left
    have positive := List.length_pos_iff.mpr sameLine
    omega

/-- **A position is that of one offset alone,** also when the text behind it has
been changed. -/
theorem ofOffset_inj {t t' : Text} {offset offset' : Nat} (inside : offset ≤ t.length)
    (inside' : offset' ≤ t'.length) (common : t.take offset = t'.take offset)
    (same : ofOffset t.lineStarts offset = ofOffset t'.lineStarts offset') :
    offset = offset' := by
  have differ {t : Text} {o o' : Nat} (less : o < o') (inside : o' ≤ t.length) :
      ofOffset t.lineStarts o ≠ ofOffset t.lineStarts o' := by
    intro same
    have grows := ofOffset_lt t less inside
    rw [same] at grows
    omega
  rcases Nat.lt_trichotomy offset offset' with less | equal | greater
  · rw [ofOffset_congr common] at same
    exact absurd same (differ less inside')
  · exact equal
  · -- The other offset lies in the part that the texts have in common.
    have earlier : t'.take offset' = t.take offset' := by
      have shorter := congrArg (List.take offset') common
      rw [List.take_take, List.take_take, Nat.min_eq_left (Nat.le_of_lt greater)] at shorter
      exact shorter.symm
    rw [ofOffset_congr earlier] at same
    exact absurd same.symm (differ greater inside)

end Position

end StackLint

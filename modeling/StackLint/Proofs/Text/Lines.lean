/-
  StackLint.Proofs.Text.Lines
  ───────────────────────────
  **THE LINES OF A TEXT AND THE POSITIONS IN IT.**

  The lines of a text, with newlines between them, are the text again, and no
  line has a newline in it.  So a text that is put together from lines can be
  taken apart again: a newline between two texts is a border between their
  lines.

  The table of line starts is sorted, so halving it finds the line of an
  offset.  That line is the one behind as many newlines as are in front of the
  offset, and its start and the column add up to the offset again; so positions
  grow with offsets.  The line in the table is the line that the text is cut
  into, and its indentation is its longest run of blanks.
-/
import Mathlib.Data.List.GetD
import StackLint.Proofs.Text.Position
import StackLint.Source

namespace StackLint

namespace Text

/-! ## §1. Lines. -/

/-- The first character of a text belongs to its first line, unless it ends
it. -/
theorem lines_cons_of_ne {c : CodePoint} (other : c ≠ .scalar '\n') (rest : Text) :
    ∃ line others, lines rest = line :: others ∧ lines (c :: rest) = (c :: line) :: others := by
  obtain ⟨line, others, isLines⟩ := List.exists_cons_of_ne_nil (lines_ne_nil rest)
  refine ⟨line, others, isLines, ?_⟩
  rw [lines, if_neg other, isLines]

theorem newline_notMem_of_mem_lines {t line : Text} (inside : line ∈ t.lines) :
    .scalar '\n' ∉ line := by
  induction t generalizing line with
  | nil =>
      rw [List.mem_singleton.mp inside]
      exact List.not_mem_nil
  | cons c rest ih =>
      by_cases isNewline : c = .scalar '\n'
      · rw [lines, if_pos isNewline] at inside
        rcases List.mem_cons.mp inside with rfl | later
        · exact List.not_mem_nil
        · exact ih later
      · obtain ⟨first, others, isLines, whole⟩ := lines_cons_of_ne isNewline rest
        rw [isLines] at ih
        rw [whole] at inside
        rcases List.mem_cons.mp inside with rfl | later
        · rw [List.mem_cons, not_or]
          exact ⟨Ne.symm isNewline, ih List.mem_cons_self⟩
        · exact ih (List.mem_cons_of_mem first later)

theorem lines_eq_singleton {t : Text} (oneLine : .scalar '\n' ∉ t) : t.lines = [t] := by
  induction t with
  | nil => rfl
  | cons c rest ih =>
      rw [List.mem_cons, not_or] at oneLine
      rw [lines, if_neg (Ne.symm oneLine.1), ih oneLine.2]

/-! ## §2. Texts from lines. -/

/-- A newline is a border between lines. -/
theorem lines_append_newline (s t : Text) :
    lines (s ++ .scalar '\n' :: t) = s.lines ++ t.lines := by
  induction s with
  | nil =>
      show lines (.scalar '\n' :: t) = [] :: t.lines
      rw [lines, if_pos (Eq.refl (CodePoint.scalar '\n'))]
  | cons c rest ih =>
      rw [List.cons_append]
      by_cases isNewline : c = .scalar '\n'
      · rw [lines, if_pos isNewline, ih, lines, if_pos isNewline, List.cons_append]
      · obtain ⟨line, others, isLines, whole⟩ := lines_cons_of_ne isNewline rest
        rw [lines, if_neg isNewline, ih, isLines, whole, List.cons_append, List.cons_append]

theorem join_cons_cons (separator part next : Text) (parts : List Text) :
    join separator (part :: next :: parts) = part ++ (separator ++ join separator (next :: parts)) :=
  List.intercalate_cons_cons.trans (List.append_assoc _ _ _)

/-- The lines of texts with newlines between them. -/
theorem lines_join (part : Text) (parts : List Text) :
    lines (join "\n" (part :: parts)) = (part :: parts).flatMap lines := by
  induction parts generalizing part with
  | nil =>
      show lines (List.intercalate _ [part]) = _
      rw [List.intercalate_singleton, List.flatMap_singleton]
  | cons next parts ih =>
      rw [join_cons_cons, List.flatMap_cons, ← ih next]
      exact lines_append_newline part _

/-- Texts without newlines are lines as they are. -/
theorem flatMap_lines_eq_self {parts : List Text} (oneLine : ∀ part ∈ parts, .scalar '\n' ∉ part) :
    parts.flatMap lines = parts := by
  induction parts with
  | nil => rfl
  | cons part parts ih =>
      rw [List.flatMap_cons, lines_eq_singleton (oneLine part List.mem_cons_self),
        ih fun other inside => oneLine other (List.mem_cons_of_mem part inside)]
      rfl

/-- **The lines of a text are the text.** -/
theorem join_lines (t : Text) : join "\n" t.lines = t := by
  induction t with
  | nil => rfl
  | cons c rest ih =>
      by_cases isNewline : c = .scalar '\n'
      · obtain ⟨line, others, isLines⟩ := List.exists_cons_of_ne_nil (lines_ne_nil rest)
        rw [lines, if_pos isNewline, isLines, join_cons_cons, ← isLines, ih, isNewline]
        rfl
      · obtain ⟨line, others, isLines, whole⟩ := lines_cons_of_ne isNewline rest
        rw [isLines] at ih
        rw [whole]
        cases others with
        | nil => exact congrArg (c :: ·) ih
        | cons next others =>
            rw [join_cons_cons] at ih ⊢
            rw [List.cons_append, ih]

theorem lines_injective {s t : Text} (same : s.lines = t.lines) : s = t := by
  rw [← s.join_lines, ← t.join_lines, same]

/-! ## §3. The table of line starts. -/

theorem mem_lineStartsFrom {t : Text} {offset start : Nat}
    (inside : start ∈ t.lineStartsFrom offset) : offset < start ∧ start ≤ offset + t.length := by
  induction t generalizing offset with
  | nil => cases inside
  | cons c rest ih =>
      have later (inside : start ∈ lineStartsFrom (offset + 1) rest) :
          offset < start ∧ start ≤ offset + (c :: rest).length := by
        have bounds := ih inside
        rw [List.length_cons]
        omega
      rw [lineStartsFrom] at inside
      split at inside
      · rcases List.mem_cons.mp inside with rfl | inside
        · rw [List.length_cons]
          omega
        · exact later inside
      · exact later inside

theorem lineStartsFrom_sorted (t : Text) (offset : Nat) :
    (t.lineStartsFrom offset).Pairwise (· < ·) := by
  induction t generalizing offset with
  | nil => exact .nil
  | cons c rest ih =>
      rw [lineStartsFrom]
      split
      · exact .cons (fun start inside => (mem_lineStartsFrom inside).1) (ih (offset + 1))
      · exact ih (offset + 1)

/-- **The table is sorted.** -/
theorem lineStarts_sorted (t : Text) : t.lineStarts.Pairwise (· < ·) :=
  .cons (fun _ inside => (mem_lineStartsFrom inside).1) (t.lineStartsFrom_sorted 0)

/-- A line begins behind each newline. -/
theorem length_lineStartsFrom_eq_count (t : Text) (offset : Nat) :
    (t.lineStartsFrom offset).length = t.count (.scalar '\n') := by
  induction t generalizing offset with
  | nil => rfl
  | cons c rest ih =>
      rw [lineStartsFrom, List.count_cons, ← ih (offset + 1)]
      by_cases isNewline : c = .scalar '\n'
      · rw [if_pos isNewline, if_pos (beq_iff_eq.mpr isNewline), List.length_cons]
      · rw [if_neg isNewline, if_neg (fun same => isNewline (beq_iff_eq.mp same))]
        rfl

theorem length_lineStarts_eq_count (t : Text) :
    t.lineStarts.length = t.count (.scalar '\n') + 1 := by
  rw [lineStarts, List.length_cons, length_lineStartsFrom_eq_count]

/-- Behind the start of the last line is no newline. -/
theorem newline_notMem_lastLine {t : Text} {start : Nat}
    (last : t.lineStarts.getLast? = some start) : .scalar '\n' ∉ t.drop start := by
  intro inside
  have within : start ≤ t.length := by
    rcases List.mem_cons.mp (List.mem_of_getLast? last) with rfl | later
    · exact Nat.zero_le _
    · have bounds := mem_lineStartsFrom later
      omega
  -- The line behind that newline would be a later one.
  have split : t.lineStarts = lineStarts (t.take start) ++ lineStartsFrom start (t.drop start) := by
    have cut := lineStartsFrom_append (t.take start) (t.drop start) 0
    rw [List.take_append_drop, List.length_take, Nat.min_eq_left within, Nat.zero_add] at cut
    unfold lineStarts
    rw [cut, List.cons_append]
  have some_ : lineStartsFrom start (t.drop start) ≠ [] := by
    intro none_
    have count := length_lineStartsFrom_eq_count (t.drop start) start
    rw [none_] at count
    exact absurd count.symm (Nat.ne_of_gt (List.count_pos_iff.mpr inside))
  rw [split, List.getLast?_append, List.getLast?_eq_some_getLast some_, Option.some_or] at last
  have later := mem_lineStartsFrom (List.getLast_mem some_)
  have same := Option.some.inj last
  omega

/-- **The line of an offset.**  Behind as many newlines as are in front of the offset, the
last line begins that begins in front of it. -/
theorem exists_lineStart (t : Text) (offset : Nat) :
    ∃ start, lineStartOf t.lineStarts offset = start ∧ start ≤ offset
      ∧ t.lineStarts[(t.take offset).count (.scalar '\n')]? = some start
      ∧ .scalar '\n' ∉ t.slice start offset := by
  -- The table up to the offset is the table of the text in front of it.
  have before := t.takeWhile_lineStarts offset
  obtain ⟨start, last⟩ : ∃ start, (lineStarts (t.take offset)).getLast? = some start :=
    ⟨_, List.getLast?_cons⟩
  refine ⟨start, ?_, ?_, ?_, ?_⟩
  · rw [lineStartOf, before, last, Option.getD_some]
  · have inside := List.mem_of_getLast? last
    rw [← before] at inside
    simpa using List.mem_takeWhile_imp inside
  · obtain ⟨further, whole⟩ := List.takeWhile_prefix (l := t.lineStarts) (· ≤ offset)
    have count := length_lineStarts_eq_count (t.take offset)
    rw [List.getLast?_eq_getElem?, count, Nat.add_sub_cancel] at last
    rw [← whole, before, List.getElem?_append_left (by omega), last]
  · have lastLine := newline_notMem_lastLine last
    rwa [List.drop_take] at lastLine

/-- From every start in the table, a line reaches up to the next newline. -/
theorem map_lineStartsFrom (t : Text) (offset : Nat) :
    (offset :: t.lineStartsFrom offset).map
      (fun start => (t.drop (start - offset)).takeWhile (· ≠ .scalar '\n')) = t.lines := by
  induction t generalizing offset with
  | nil => rw [lineStartsFrom, List.map_singleton, List.drop_nil, List.takeWhile_nil, lines]
  | cons c rest ih =>
      have later : (lineStartsFrom (offset + 1) rest).map
            (fun start => ((c :: rest).drop (start - offset)).takeWhile (· ≠ .scalar '\n'))
          = (lineStartsFrom (offset + 1) rest).map
            (fun start => (rest.drop (start - (offset + 1))).takeWhile (· ≠ .scalar '\n')) := by
        refine List.map_congr_left fun start inside => ?_
        have behind : start - offset = start - (offset + 1) + 1 := by
          have bounds := mem_lineStartsFrom inside
          omega
        rw [behind, List.drop_succ_cons]
      have next := ih (offset + 1)
      rw [List.map_cons, Nat.sub_self, List.drop_zero] at next
      rw [List.map_cons, Nat.sub_self, List.drop_zero, lineStartsFrom]
      by_cases isNewline : c = .scalar '\n'
      · rw [List.takeWhile_cons_of_neg (by simp [isNewline]), if_pos isNewline, lines,
          if_pos isNewline, ← next, List.map_cons, later, Nat.add_sub_cancel_left,
          List.drop_succ_cons, List.drop_zero]
      · obtain ⟨line, others, isLines, whole⟩ := lines_cons_of_ne isNewline rest
        rw [isLines] at next
        obtain ⟨first, rest_⟩ := List.cons.inj next
        rw [List.takeWhile_cons_of_pos (by simp [isNewline]), if_neg isNewline, later, first, rest_,
          whole]

/-- **The table lists the lines that the text is cut into.** -/
theorem lines_eq_map_lineStarts (t : Text) :
    t.lines = t.lineStarts.map fun start => (t.drop start).takeWhile (· ≠ .scalar '\n') :=
  (t.map_lineStartsFrom 0).symm

end Text

/-! ## §4. Searching the table. -/

/-- How many entries of a sorted table are at most `offset`, found by halving: it
is known that there are at least `low` and at most `high`. -/
def halvingSearch (starts : List Nat) (offset low high : Nat) : Nat :=
  if low < high then
    let middle := (low + high) / 2
    if offset < starts.getD middle 0 then halvingSearch starts offset low middle
    else halvingSearch starts offset (middle + 1) high
  else low
termination_by high - low

/-- The entries up to `offset` are those in front. -/
theorem getElem_le_iff_of_sorted {starts : List Nat} (sorted : starts.Pairwise (· < ·))
    (offset : Nat) {i : Nat} (inside : i < starts.length) :
    starts[i] ≤ offset ↔ i < (starts.takeWhile (· ≤ offset)).length := by
  induction starts generalizing i with
  | nil => cases inside
  | cons start starts ih =>
      obtain ⟨least, sorted⟩ := List.pairwise_cons.mp sorted
      by_cases near : start ≤ offset
      · rw [List.takeWhile_cons_of_pos (by simpa using near), List.length_cons]
        cases i with
        | zero => exact iff_of_true near (Nat.succ_pos _)
        | succ i =>
            rw [List.getElem_cons_succ, ih sorted (Nat.lt_of_succ_lt_succ inside)]
            exact Nat.succ_lt_succ_iff.symm
      · rw [List.takeWhile_cons_of_neg (by simpa using near)]
        refine iff_of_false ?_ (Nat.not_lt_zero i)
        cases i with
        | zero => exact near
        | succ i =>
            have further := least _ (List.getElem_mem (Nat.lt_of_succ_lt_succ inside))
            rw [List.getElem_cons_succ]
            omega

theorem halvingSearch_eq {starts : List Nat} (sorted : starts.Pairwise (· < ·))
    {offset low high : Nat} (atLeast : low ≤ (starts.takeWhile (· ≤ offset)).length)
    (atMost : (starts.takeWhile (· ≤ offset)).length ≤ high) (inside : high ≤ starts.length) :
    halvingSearch starts offset low high = (starts.takeWhile (· ≤ offset)).length := by
  fun_induction halvingSearch starts offset low high with
  | case1 low high open_ middle less ih =>
      have isEntry : middle < starts.length := by omega
      rw [List.getD_eq_getElem _ _ isEntry] at less
      have behind := getElem_le_iff_of_sorted sorted offset isEntry
      exact ih atLeast (by omega) (by omega)
  | case2 low high open_ middle notLess ih =>
      have isEntry : middle < starts.length := by omega
      rw [List.getD_eq_getElem _ _ isEntry] at notLess
      have before := getElem_le_iff_of_sorted sorted offset isEntry
      exact ih (by omega) atMost inside
  | case3 low high closed => omega

/-! ## §5. Runs. -/

/-- The longest run of characters of one kind at the head of a text. -/
structure Text.IsLongestRun (kind : CodePoint → Prop) (t run : Text) : Prop where
  atHead : run <+: t
  ofKind : ∀ c ∈ run, kind c
  longest : ∀ other : Text, other <+: t → (∀ c ∈ other, kind c) → other <+: run

theorem Text.isLongestRun_takeWhile (kind : CodePoint → Prop) [DecidablePred kind] (t : Text) :
    IsLongestRun kind t (t.takeWhile (kind ·)) where
  atHead := List.takeWhile_prefix _
  ofKind := by
    intro c inside
    simpa using List.mem_takeWhile_imp inside
  longest := by
    rintro other ⟨rest, rfl⟩ isKind
    rw [List.takeWhile_append_of_pos (by simpa using isKind)]
    exact List.prefix_append _ _

/-! ## §6. Sources. -/

/-- A space or a tab. -/
def CodePoint.IsBlank (c : CodePoint) : Prop :=
  c = .scalar ' ' ∨ c = .scalar '\t'

instance : DecidablePred CodePoint.IsBlank :=
  fun _ => inferInstanceAs (Decidable (_ ∨ _))

/-- The indentation of a text is that of its first line. -/
theorem Text.indent_eq_takeWhile (t : Text) :
    t.indent = (t.takeWhile (· ≠ .scalar '\n')).takeWhile (CodePoint.IsBlank ·) := by
  unfold indent
  rw [List.takeWhile_takeWhile]
  congr 1
  funext c
  rw [← Bool.decide_or, decide_eq_decide]
  refine ⟨fun isBlank => ?_, fun both => of_decide_eq_true both.1⟩
  rcases isBlank with rfl | rfl
  · decide
  · decide

namespace Source

/-- **Where an offset lies,** as a position and the indentation of its line say
it. -/
structure Locates (s : Source) (offset : Nat) (p : Position) (indent : Text) : Prop where
  /-- The lines before end with the newlines before. -/
  counted : p.line = (s.text.take offset).count (.scalar '\n') + 1
  /-- Halving the table finds the line. -/
  searched : p.line = halvingSearch s.lineStarts offset 0 s.lineStarts.length
  /-- The line begins in the table, the column says how far behind, and no
  newline is in between. -/
  onLine : ∃ start line, s.lineStarts[p.line - 1]? = some start ∧ start ≤ offset
    ∧ start + p.column = offset + 1 ∧ .scalar '\n' ∉ s.text.slice start offset
    ∧ s.text.lines[p.line - 1]? = some line ∧ line <+: s.text.drop start
    ∧ line.IsLongestRun CodePoint.IsBlank indent

/-- An offset inside the text lies where its position says. -/
theorem ofOffset_locates (s : Source) (o : Nat) :
    s.Locates o (Position.ofOffset s.lineStarts o)
      (Text.indent (s.text.drop (lineStartOf s.lineStarts o))) := by
  rw [s.lineStarts_eq]
  obtain ⟨start, isStart, reached, entry, lastLine⟩ := s.text.exists_lineStart o
  have counted : (Position.ofOffset s.text.lineStarts o).line
      = (s.text.take o).count (.scalar '\n') + 1 := by
    rw [Position.ofOffset, Text.takeWhile_lineStarts, Text.length_lineStarts_eq_count]
  constructor
  case counted => exact counted
  case searched =>
    rw [s.lineStarts_eq]
    exact (halvingSearch_eq s.text.lineStarts_sorted (Nat.zero_le _)
      (List.takeWhile_sublist _).length_le le_rfl).symm
  case onLine =>
    rw [counted, Nat.add_sub_cancel]
    refine ⟨start, (s.text.drop start).takeWhile (· ≠ .scalar '\n'), ?_, reached, ?_, lastLine, ?_,
      List.takeWhile_prefix _, ?_⟩
    · rw [s.lineStarts_eq, entry]
    · show start + (o - lineStartOf s.text.lineStarts o + 1) = o + 1
      rw [isStart]
      omega
    · rw [Text.lines_eq_map_lineStarts, List.getElem?_map, entry, Option.map_some]
    · rw [isStart, Text.indent_eq_takeWhile]
      exact Text.isLongestRun_takeWhile _ _

/-- **Offsets and positions are inverse.**  The position of any offset locates
the nearest one inside the text, and positions grow with the offsets inside the
text. -/
theorem position_inverse (s : Source) :
    (∀ offset : Int, ∃ o : Nat, (o : Int) = max 0 (min offset s.text.length)
        ∧ s.Locates o (s.position offset) (s.lineIndent offset))
      ∧ ∀ o o' : Int, 0 ≤ o → o < o' → o' ≤ s.text.length →
          Prod.Lex (· < ·) (· < ·) ((s.position o).line, (s.position o).column)
            ((s.position o').line, (s.position o').column) := by
  constructor
  · intro offset
    refine ⟨s.clamp offset, ?_, s.ofOffset_locates _⟩
    unfold clamp clampOffset
    omega
  · intro o o' notNegative less inside
    have clamped {offset : Int} (notNegative : 0 ≤ offset) (inside : offset ≤ s.text.length) :
        s.clamp offset = offset.toNat := by
      unfold clamp clampOffset
      omega
    have before : o.toNat < o'.toNat := by omega
    have grows := Position.ofOffset_lt s.text before (by omega)
    unfold position
    rw [clamped notNegative (by omega), clamped (by omega) inside, s.lineStarts_eq, Prod.lex_def]
    exact grows

/-- An offset behind the end of a text lies behind the last character of its
second line, which begins with a tab. -/
theorem position_inverse_indented :
    ∃ s, ofText ⟨.here, ["f"]⟩ "a\n\tb" = .ok s ∧ s.position 9 = ⟨2, 3⟩ ∧ s.lineIndent 9 = "\t"
      ∧ (∀ offset : Int, ∃ o : Nat, (o : Int) = max 0 (min offset s.text.length)
          ∧ s.Locates o (s.position offset) (s.lineIndent offset))
      ∧ ∀ o o' : Int, 0 ≤ o → o < o' → o' ≤ s.text.length →
          Prod.Lex (· < ·) (· < ·) ((s.position o).line, (s.position o).column)
            ((s.position o').line, (s.position o').column) :=
  ⟨_, rfl, by decide, by decide, position_inverse _⟩

end Source

end StackLint

/-
  StackLint.Proofs.Fixing.Diff
  ────────────────────────────
  **WHAT A DIFF SHOWS, AND WHICH CHANGES HAVE THE SAME ONE.**

  Two texts share the lines in front of the changed region and those behind it,
  and the region begins and ends with lines that differ, unless there is nothing
  to compare.  Under whatever names the texts are shown, the header is the last
  line of the diff with an `@` in front, so header and body can be read off it:
  where the number of lines changes, the old text and the diff give the new
  one.

  Where it does not change, the diff tells which lines become which, in order, and
  where the first and the last of them stand, but not where those in between do: a
  line that is left out of the region has neither a number nor a line of its own.
-/
import Mathlib
import StackLint.Fixing.Diff
import StackLint.Proofs.Text.Lines

namespace StackLint

/-! ## §1. The region. -/

/-- Lists begin with what they share, and then differ. -/
theorem commonHead_spec [DecidableEq α] (as bs : List α) :
    ∃ shared as' bs', as = shared ++ as' ∧ bs = shared ++ bs' ∧ commonHead as bs = shared.length
      ∧ (as' ≠ [] → bs' ≠ [] → as'.head? ≠ bs'.head?) := by
  induction as generalizing bs with
  | nil => exact ⟨[], [], bs, rfl, rfl, rfl, fun some_ => absurd rfl some_⟩
  | cons a as ih =>
      cases bs with
      | nil => exact ⟨[], a :: as, [], rfl, rfl, rfl, fun _ some_ => absurd rfl some_⟩
      | cons b bs =>
          rw [commonHead]
          by_cases same : a = b
          · obtain ⟨shared, as', bs', rfl, rfl, count, differ⟩ := ih bs
            exact ⟨a :: shared, as', bs', rfl, by rw [same]; rfl,
              by rw [if_pos same, count, List.length_cons], differ⟩
          · refine ⟨[], a :: as, b :: bs, rfl, rfl, by rw [if_neg same]; rfl, fun _ _ => ?_⟩
            rw [List.head?_cons, List.head?_cons]
            exact fun equal => same (Option.some.inj equal)

namespace ChangedRegion

/-- **A region fits two lists of lines:** they share all in front of it and all
behind it, and nothing more can be left out at its ends. -/
structure Fits (r : ChangedRegion) (head tail old new : List Text) : Prop where
  before : r.before = head.length
  old : old = head ++ (r.removed ++ tail)
  new : new = head ++ (r.added ++ tail)
  first : r.removed ≠ [] → r.added ≠ [] → r.removed.head? ≠ r.added.head?
  last : r.removed ≠ [] → r.added ≠ [] → r.removed.getLast? ≠ r.added.getLast?

theorem between_fits (old new : List Text) :
    ∃ head tail, (between old new).Fits head tail old new := by
  obtain ⟨head, old', new', isOld, isNew, isHead, first⟩ := commonHead_spec old new
  obtain ⟨tail, removed, added, isOld', isNew', isTail, last⟩ :=
    commonHead_spec old'.reverse new'.reverse
  have oldEnd : old' = removed.reverse ++ tail.reverse := by
    rw [← List.reverse_append, ← isOld', List.reverse_reverse]
  have newEnd : new' = added.reverse ++ tail.reverse := by
    rw [← List.reverse_append, ← isNew', List.reverse_reverse]
  have region : between old new = ⟨head.length, removed.reverse, added.reverse⟩ := by
    unfold between
    simp only [isHead]
    rw [isOld, isNew, List.drop_left, List.drop_left, isTail, oldEnd, newEnd]
    simp
  refine ⟨head, tail.reverse, ?_⟩
  rw [region]
  constructor
  case before => rfl
  case old => rw [isOld, oldEnd]
  case new => rw [isNew, newEnd]
  case first =>
    intro some_ some'
    have differ := first (by rw [oldEnd]; exact List.append_ne_nil_of_left_ne_nil some_ _)
      (by rw [newEnd]; exact List.append_ne_nil_of_left_ne_nil some' _)
    rwa [oldEnd, newEnd, List.head?_append_of_ne_nil _ some_,
      List.head?_append_of_ne_nil _ some'] at differ
  case last =>
    intro some_ some'
    rw [List.getLast?_reverse, List.getLast?_reverse]
    exact last (fun none_ => some_ (by rw [none_]; rfl)) (fun none_ => some' (by rw [none_]; rfl))

/-- Two regions of one text at the same place and of the same extent are of the same
lines. -/
theorem Fits.same_lines {r r' : ChangedRegion} {head head' tail tail' old new new' : List Text}
    (fits : r.Fits head tail old new) (fits' : r'.Fits head' tail' old new')
    (before : r.before = r'.before) (extent : r.removed.length = r'.removed.length) :
    head = head' ∧ r.removed = r'.removed ∧ tail = tail' := by
  have heads : head.length = head'.length := by
    rw [← fits.before, ← fits'.before, before]
  obtain ⟨sameHead, others⟩ := List.append_inj (fits.old.symm.trans fits'.old) heads
  obtain ⟨sameLines, sameTail⟩ := List.append_inj others extent
  exact ⟨sameHead, sameLines, sameTail⟩

/-! ## §2. Headers and bodies. -/

theorem removal_injective {line line' : Text} (same : removal line = removal line') :
    line = line' :=
  List.append_cancel_left same

theorem addition_injective {line line' : Text} (same : addition line = addition line') :
    line = line' :=
  List.append_cancel_left same

/-- A region that changes the number of lines shows all of them. -/
theorem body_of_ne {r : ChangedRegion} (uneven : r.removed.length ≠ r.added.length) :
    r.body = r.removed.map removal ++ r.added.map addition := by
  rw [body, if_neg uneven]

/-- A region that keeps it shows the lines that differ. -/
theorem body_of_eq {r : ChangedRegion} (even : r.removed.length = r.added.length) :
    r.body = ((r.removed.zip r.added).filter fun pair => pair.1 ≠ pair.2).flatMap
      fun pair => [removal pair.1, addition pair.2] := by
  rw [body, if_pos even]
  induction r.removed.zip r.added with
  | nil => rfl
  | cons pair pairs ih =>
      obtain ⟨was, becomes⟩ := pair
      rw [List.flatMap_cons, ih]
      show (if was = becomes then [] else [removal was, addition becomes]) ++ _ = _
      by_cases same : was = becomes
      · rw [if_pos same, List.filter_cons_of_neg (by simpa using same), List.nil_append]
      · rw [if_neg same, List.filter_cons_of_pos (by simpa using same), List.flatMap_cons]

end ChangedRegion

/-! ## §3. Reading a diff. -/

/-- What is in front of the first marked item, and what is behind it, can be read
off a list. -/
theorem append_marked_inj (marked : α → Prop) {front front' rest rest' : List α} {mark mark' : α}
    (isMark : marked mark) (isMark' : marked mark') (plain : ∀ a ∈ front, ¬ marked a)
    (plain' : ∀ a ∈ front', ¬ marked a) (same : front ++ mark :: rest = front' ++ mark' :: rest') :
    front = front' ∧ mark = mark' ∧ rest = rest' := by
  induction front generalizing front' with
  | nil =>
      cases front' with
      | nil => exact ⟨rfl, List.cons.inj same⟩
      | cons a front' =>
          have isFirst : mark = a := (List.cons.inj same).1
          exact absurd (isFirst ▸ isMark) (plain' a List.mem_cons_self)
  | cons a front ih =>
      cases front' with
      | nil =>
          have isFirst : a = mark' := (List.cons.inj same).1
          exact absurd (isFirst ▸ isMark') (plain a List.mem_cons_self)
      | cons b front' =>
          obtain ⟨rfl, later⟩ := List.cons.inj same
          obtain ⟨rfl, others⟩ := ih (fun c inside => plain c (List.mem_cons_of_mem a inside))
            (fun c inside => plain' c (List.mem_cons_of_mem a inside)) later
          exact ⟨rfl, others⟩

/-- A numeral has digits only. -/
theorem Text.isAsciiDigit_of_mem_ofNat {n : Nat} {c : CodePoint} (inside : c ∈ Text.ofNat n) :
    c.isAsciiDigit = true := by
  obtain ⟨digit, isDigit, rfl⟩ := List.mem_map.mp inside
  have digits : (toString n).toList = Nat.toDigits 10 n := String.toList_ofList
  rw [digits] at isDigit
  have bounds := Char.isDigit_iff_toNat.mp
    (Nat.isDigit_of_mem_toDigits (by decide) (by decide) isDigit)
  unfold CodePoint.isAsciiDigit
  rw [Bool.and_eq_true, decide_eq_true_iff, decide_eq_true_iff]
  exact bounds

theorem Text.ofNat_injective {m n : Nat} (same : Text.ofNat m = Text.ofNat n) : m = n :=
  Nat.repr_injective (Text.ofString_injective same)

/-- A numeral in front of something else can be read off a text. -/
theorem Text.ofNat_append_inj {m n : Nat} {c d : CodePoint} {rest rest' : Text}
    (noDigit : c.isAsciiDigit = false) (noDigit' : d.isAsciiDigit = false)
    (same : Text.ofNat m ++ c :: rest = Text.ofNat n ++ d :: rest') : m = n ∧ rest = rest' := by
  have digits {n : Nat} : ∀ e ∈ Text.ofNat n, ¬ e.isAsciiDigit = false := by
    intro e inside
    rw [isAsciiDigit_of_mem_ofNat inside]
    decide
  obtain ⟨numeral, _, others⟩ := append_marked_inj (CodePoint.isAsciiDigit · = false)
    noDigit noDigit' digits digits same
  exact ⟨ofNat_injective numeral, others⟩

namespace ChangedRegion

theorem header_eq (r : ChangedRegion) :
    r.header = Text.ofString "@@ -" ++ (Text.ofNat (r.before + 1) ++ .scalar ',' ::
      (Text.ofNat r.removed.length ++ .scalar ' ' :: .scalar '+' ::
        (Text.ofNat (r.before + 1) ++ .scalar ',' ::
          (Text.ofNat r.added.length ++ .scalar ' ' :: Text.ofString "@@")))) := by
  simp [header, extent, Text.ofString]

/-- **The header says where the region begins and how many lines it has.** -/
theorem extents_of_header {r r' : ChangedRegion} (same : r.header = r'.header) :
    r.before = r'.before ∧ r.removed.length = r'.removed.length
      ∧ r.added.length = r'.added.length := by
  rw [header_eq, header_eq] at same
  obtain ⟨before, same⟩ := Text.ofNat_append_inj rfl rfl (List.append_cancel_left same)
  obtain ⟨removed, same⟩ := Text.ofNat_append_inj rfl rfl same
  obtain ⟨_, same⟩ := Text.ofNat_append_inj rfl rfl (List.cons.inj same).2
  obtain ⟨added, _⟩ := Text.ofNat_append_inj rfl rfl same
  exact ⟨Nat.succ.inj before, removed, added⟩

theorem newline_notMem_header (r : ChangedRegion) : .scalar '\n' ∉ r.header := by
  intro inside
  have digits (n : Nat) : CodePoint.scalar '\n' ∉ Text.ofNat n := by
    intro inside
    exact absurd (Text.isAsciiDigit_of_mem_ofNat inside) (by decide)
  rw [header_eq] at inside
  simp [digits, Text.ofString] at inside

/-- A line of the body is that of the region with its sign. -/
theorem exists_of_mem_body {r : ChangedRegion} {shown : Text} (inside : shown ∈ r.body) :
    (∃ line ∈ r.removed, shown = removal line) ∨ ∃ line ∈ r.added, shown = addition line := by
  by_cases even : r.removed.length = r.added.length
  · rw [body_of_eq even] at inside
    obtain ⟨⟨was, becomes⟩, isPair, inside⟩ := List.mem_flatMap.mp inside
    have both := List.of_mem_zip (List.mem_filter.mp isPair).1
    rcases List.mem_cons.mp inside with rfl | inside
    · exact .inl ⟨was, both.1, rfl⟩
    · rw [List.mem_singleton.mp inside]
      exact .inr ⟨becomes, both.2, rfl⟩
  · rw [body_of_ne even] at inside
    rcases List.mem_append.mp inside with inside | inside
    · obtain ⟨line, isLine, rfl⟩ := List.mem_map.mp inside
      exact .inl ⟨line, isLine, rfl⟩
    · obtain ⟨line, isLine, rfl⟩ := List.mem_map.mp inside
      exact .inr ⟨line, isLine, rfl⟩

end ChangedRegion

/-- The lines in front of the header of a diff are those of its two names; the
last line is empty. -/
theorem lines_diff {old new : Text} (differ : old ≠ new) (oldName newName : Text) :
    (diff old new oldName newName).lines
      = (Text.lines ("--- " ++ oldName) ++ Text.lines ("+++ " ++ newName))
        ++ (ChangedRegion.between old.lines new.lines).header
          :: ((ChangedRegion.between old.lines new.lines).body ++ [[]]) := by
  obtain ⟨head, tail, fits⟩ := ChangedRegion.between_fits old.lines new.lines
  generalize region : ChangedRegion.between old.lines new.lines = r at fits ⊢
  have isBody : ∀ shown ∈ r.body, .scalar '\n' ∉ shown := by
    intro shown inside
    have whole {line : Text} (isLine : line ∈ old.lines ∨ line ∈ new.lines) :
        .scalar '\n' ∉ line :=
      isLine.elim Text.newline_notMem_of_mem_lines Text.newline_notMem_of_mem_lines
    rcases ChangedRegion.exists_of_mem_body inside with ⟨line, isLine, rfl⟩ | ⟨line, isLine, rfl⟩
    · have plain := whole (.inl (fits.old ▸ List.mem_append_right _ (List.mem_append_left _ isLine)))
      simpa [ChangedRegion.removal, Text.ofString] using plain
    · have plain := whole (.inr (fits.new ▸ List.mem_append_right _ (List.mem_append_left _ isLine)))
      simpa [ChangedRegion.addition, Text.ofString] using plain
  unfold diff
  rw [if_neg differ]
  simp only [region]
  refine (Text.lines_append_newline _ []).trans ?_
  rw [Text.lines_join, List.flatMap_cons, List.flatMap_cons, List.flatMap_cons,
    Text.lines_eq_singleton r.newline_notMem_header, Text.flatMap_lines_eq_self isBody, Text.lines,
    List.append_assoc, List.append_assoc, List.append_assoc, List.append_assoc, List.singleton_append]

/-- **Header and body can be read off a diff,** whatever names are in front of
them. -/
theorem header_body_of_diff {old new old' new' oldName newName oldName' newName' : Text}
    (differ : old ≠ new) (differ' : old' ≠ new')
    (same : diff old new oldName newName = diff old' new' oldName' newName') :
    (ChangedRegion.between old.lines new.lines).header
        = (ChangedRegion.between old'.lines new'.lines).header
      ∧ (ChangedRegion.between old.lines new.lines).body
        = (ChangedRegion.between old'.lines new'.lines).body := by
  -- Read from its end, the first line with the mark is the header.
  have isHeader (r : ChangedRegion) : r.header.head? = some (.scalar '@') := rfl
  have isPlain (r : ChangedRegion) :
      ∀ shown ∈ [] :: r.body.reverse, ¬ shown.head? = some (CodePoint.scalar '@') := by
    intro shown inside
    rcases List.mem_cons.mp inside with rfl | inside
    · intro marked
      cases marked
    · intro marked
      rcases ChangedRegion.exists_of_mem_body (List.mem_reverse.mp inside) with
        ⟨line, _, rfl⟩ | ⟨line, _, rfl⟩
      · exact absurd (Option.some.inj marked) (by decide)
      · exact absurd (Option.some.inj marked) (by decide)
  have backward := congrArg (fun t => (Text.lines t).reverse) same
  simp only [lines_diff differ, lines_diff differ', List.reverse_append, List.reverse_cons,
    List.reverse_nil, List.append_assoc, List.nil_append, List.singleton_append] at backward
  obtain ⟨body, header, _⟩ := append_marked_inj (fun shown => shown.head? = some (.scalar '@'))
    (isHeader _) (isHeader _) (isPlain _) (isPlain _) backward
  exact ⟨header, List.reverse_injective (List.cons.inj body).2⟩

/-! ## §4. Diffs. -/

theorem diff_self (text oldName newName : Text) : diff text text oldName newName = [] := by
  rw [diff, if_pos rfl]

theorem diff_ne_nil {old new : Text} (differ : old ≠ new) (oldName newName : Text) :
    diff old new oldName newName ≠ [] := by
  rw [diff, if_neg differ]
  exact List.append_ne_nil_of_right_ne_nil _ (List.cons_ne_nil _ _)

/-- Where the number of lines changes, there is one text that a diff leads to. -/
theorem new_of_uneven_diff {old new new' oldName newName oldName' newName' : Text}
    (uneven : (ChangedRegion.between old.lines new.lines).removed.length
      ≠ (ChangedRegion.between old.lines new.lines).added.length)
    (same : diff old new' oldName' newName' = diff old new oldName newName) : new' = new := by
  obtain ⟨head, tail, fits⟩ := ChangedRegion.between_fits old.lines new.lines
  have differ : old ≠ new := by
    rintro rfl
    have both := fits.old.symm.trans fits.new
    exact uneven (congrArg List.length (List.append_cancel_right (List.append_cancel_left both)))
  have differ' : old ≠ new' := by
    rintro rfl
    rw [diff_self] at same
    exact diff_ne_nil differ oldName newName same.symm
  obtain ⟨head', tail', fits'⟩ := ChangedRegion.between_fits old.lines new'.lines
  obtain ⟨header, body⟩ := header_body_of_diff differ' differ same
  obtain ⟨before, removed, added⟩ := ChangedRegion.extents_of_header header
  obtain ⟨sameHead, sameLines, sameTail⟩ := fits'.same_lines fits before removed
  rw [ChangedRegion.body_of_ne uneven, ChangedRegion.body_of_ne (by rwa [removed, added])] at body
  have additions := List.append_inj_right body (by rw [List.length_map, List.length_map, removed])
  have sameAdded := (List.map_inj_right fun _ _ => ChangedRegion.addition_injective).mp additions
  apply Text.lines_injective
  rw [fits.new, fits'.new, sameHead, sameAdded, sameTail]

/-- **What a diff shows of a change,** in terms of the lines that two texts share
at their heads and at their tails, and of the lines in between. -/
structure ShowsChange (old new oldName newName : Text) (head removed added tail : List Text) :
    Prop where
  old_lines : old.lines = head ++ removed ++ tail
  new_lines : new.lines = head ++ added ++ tail
  ends_differ : removed ≠ [] → added ≠ [] →
    removed.head? ≠ added.head? ∧ removed.getLast? ≠ added.getLast?
  /-- All lines are shown where their number changes, and otherwise those that
  differ from the ones in the same place. -/
  shown : ∃ body : List Text, diff old new oldName newName
      = Text.join "\n" (("--- " ++ oldName) :: ("+++ " ++ newName)
          :: ("@@ -" ++ Text.ofNat (head.length + 1) ++ "," ++ Text.ofNat removed.length
              ++ " +" ++ Text.ofNat (head.length + 1) ++ "," ++ Text.ofNat added.length ++ " @@")
          :: body) ++ "\n"
    ∧ (removed.length ≠ added.length →
        body = removed.map (Text.ofString "- " ++ ·) ++ added.map (Text.ofString "+ " ++ ·))
    ∧ (removed.length = added.length →
        body = ((removed.zip added).filter fun pair => pair.1 ≠ pair.2).flatMap
          fun pair => [Text.ofString "- " ++ pair.1, Text.ofString "+ " ++ pair.2])
  /-- Where the number of lines changes, the old text and the diff determine the
  new text. -/
  determined : removed.length ≠ added.length → ∀ new' oldName' newName',
    diff old new' oldName' newName' = diff old new oldName newName → new' = new

/-- **Diffs show exactly the region that changes.** -/
theorem diff_showsChange {old new : Text} (differ : old ≠ new) (oldName newName : Text) :
    ∃ head removed added tail, ShowsChange old new oldName newName head removed added tail := by
  obtain ⟨head, tail, fits⟩ := ChangedRegion.between_fits old.lines new.lines
  refine ⟨head, (ChangedRegion.between old.lines new.lines).removed,
    (ChangedRegion.between old.lines new.lines).added, tail, ?_⟩
  constructor
  case old_lines => exact fits.old.trans (List.append_assoc _ _ _).symm
  case new_lines => exact fits.new.trans (List.append_assoc _ _ _).symm
  case ends_differ => exact fun some_ some' => ⟨fits.first some_ some', fits.last some_ some'⟩
  case shown =>
    refine ⟨_, ?_, ChangedRegion.body_of_ne, ChangedRegion.body_of_eq⟩
    rw [diff, if_neg differ, ← fits.before]
    simp [ChangedRegion.header, ChangedRegion.extent]
  case determined =>
    intro uneven new' oldName' newName' same
    exact new_of_uneven_diff uneven same

/-- A line that is put among lines like it counts as added behind them. -/
theorem diff_showsChange_repeated :
    ("a\na\nb" : Text) ≠ "a\na\na\nb"
      ∧ diff "a\na\nb" "a\na\na\nb" "old" "new" = "--- old\n+++ new\n@@ -3,0 +3,1 @@\n+ a\n"
      ∧ ∃ head removed added tail,
          ShowsChange "a\na\nb" "a\na\na\nb" "old" "new" head removed added tail := by
  have differ : ("a\na\nb" : Text) ≠ "a\na\na\nb" := by decide
  exact ⟨differ, by decide, diff_showsChange differ "old" "new"⟩

/-! ## §5. Changed lines. -/

/-- The lines that differ from the ones in the same place, each with what it
becomes and with its number; the first line has number `n`. -/
def changedLines (n : Nat) (old new : List Text) : List ((Text × Text) × Nat) :=
  ((old.zip new).zipIdx n).filter fun change => change.1.1 ≠ change.1.2

theorem changedLines_self (n : Nat) (lines : List Text) : changedLines n lines lines = [] := by
  induction lines generalizing n with
  | nil => rfl
  | cons line lines ih =>
      unfold changedLines at ih ⊢
      rw [List.zip_cons_cons, List.zipIdx_cons, List.filter_cons_of_neg (by simp), ih]

theorem changedLines_append {n : Nat} {old old' new new' : List Text}
    (even : old.length = new.length) :
    changedLines n (old ++ old') (new ++ new')
      = changedLines n old new ++ changedLines (n + old.length) old' new' := by
  unfold changedLines
  rw [List.zip_append even, List.zipIdx_append, List.filter_append, List.length_zip, ← even,
    Nat.min_self]

/-- Without their numbers, the changed lines are the pairs of lines that
differ. -/
theorem changedLines_map_fst (n : Nat) (old new : List Text) :
    (changedLines n old new).map Prod.fst
      = (old.zip new).filter fun pair => pair.1 ≠ pair.2 := by
  conv_rhs => rw [← List.zipIdx_map_fst n (old.zip new), List.filter_map]
  rfl

/-- Texts of equally many lines without changed ones are equal. -/
theorem eq_of_changedLines_eq_nil {n : Nat} {old new : List Text}
    (even : old.length = new.length) (none_ : changedLines n old new = []) : old = new := by
  induction old generalizing n new with
  | nil => exact (List.length_eq_zero_iff.mp even.symm).symm
  | cons line old ih =>
      cases new with
      | nil => cases even
      | cons line' new =>
          unfold changedLines at ih none_
          rw [List.zip_cons_cons, List.zipIdx_cons] at none_
          by_cases same : line = line'
          · rw [List.filter_cons_of_neg (by simpa using same)] at none_
            rw [same, ih (Nat.succ.inj even) none_]
          · rw [List.filter_cons_of_pos (by simpa using same)] at none_
            cases none_

/-- Lines whose first ones differ: that is the first change. -/
theorem head?_changedLines {n : Nat} {old new : List Text} (even : old.length = new.length)
    (some_ : old ≠ []) (differ : old.head? ≠ new.head?) :
    (changedLines n old new).head?.map Prod.snd = some n := by
  cases old with
  | nil => exact absurd rfl some_
  | cons line old =>
      cases new with
      | nil => cases even
      | cons line' new =>
          have other : line ≠ line' := fun same => differ (by rw [same]; rfl)
          unfold changedLines
          rw [List.zip_cons_cons, List.zipIdx_cons, List.filter_cons_of_pos (by simpa using other)]
          rfl

/-- Lines whose last ones differ: that is the last change. -/
theorem getLast?_changedLines {n : Nat} {old new : List Text} (even : old.length = new.length)
    (some_ : old ≠ []) (differ : old.getLast? ≠ new.getLast?) :
    (changedLines n old new).getLast?.map Prod.snd = some (n + old.length - 1) := by
  rcases old.eq_nil_or_concat' with rfl | ⟨old, line, rfl⟩
  · exact absurd rfl some_
  · rcases new.eq_nil_or_concat' with rfl | ⟨new, line', rfl⟩
    · simp at even
    · have other : line ≠ line' := by
        rintro rfl
        exact differ (by rw [List.getLast?_concat, List.getLast?_concat])
      have front : old.length = new.length := by simpa using even
      have last : changedLines (n + old.length) [line] [line'] = [((line, line'), n + old.length)] := by
        unfold changedLines
        rw [List.zip_cons_cons, List.zipIdx_cons, List.filter_cons_of_pos (by simpa using other)]
        rfl
      rw [changedLines_append front, last, List.getLast?_concat, List.length_append]
      rfl

/-! ## §6. Regions that keep the number of lines. -/

namespace ChangedRegion
variable {r : ChangedRegion} {head tail old new : List Text}

/-- A region keeps the number of lines when the texts have equally many. -/
theorem Fits.even_iff (fits : r.Fits head tail old new) :
    r.removed.length = r.added.length ↔ old.length = new.length := by
  rw [fits.old, fits.new]
  simp only [List.length_append]
  omega

/-- The changed lines are those of the region. -/
theorem Fits.changedLines_eq (fits : r.Fits head tail old new)
    (even : r.removed.length = r.added.length) :
    changedLines 0 old new = changedLines r.before r.removed r.added := by
  rw [fits.old, fits.new, changedLines_append rfl, changedLines_append even, changedLines_self,
    changedLines_self, List.nil_append, List.append_nil, Nat.zero_add, fits.before]

/-- The region of texts that differ has lines. -/
theorem Fits.removed_ne_nil (fits : r.Fits head tail old new)
    (even : r.removed.length = r.added.length) (differ : old ≠ new) : r.removed ≠ [] := by
  intro none_
  have none' : r.added = [] := by
    rw [none_] at even
    exact List.length_eq_zero_iff.mp even.symm
  apply differ
  rw [fits.old, fits.new, none_, none']

/-- **The first changed line is where the region begins.** -/
theorem Fits.head?_changedLines (fits : r.Fits head tail old new)
    (even : r.removed.length = r.added.length) (differ : old ≠ new) :
    (changedLines 0 old new).head?.map Prod.snd = some r.before := by
  have some_ := fits.removed_ne_nil even differ
  have some' : r.added ≠ [] := List.ne_nil_of_length_pos (even ▸ List.length_pos_iff.mpr some_)
  rw [fits.changedLines_eq even]
  exact StackLint.head?_changedLines even some_ (fits.first some_ some')

/-- **The last changed line is where it ends.** -/
theorem Fits.getLast?_changedLines (fits : r.Fits head tail old new)
    (even : r.removed.length = r.added.length) (differ : old ≠ new) :
    (changedLines 0 old new).getLast?.map Prod.snd = some (r.before + r.removed.length - 1) := by
  have some_ := fits.removed_ne_nil even differ
  have some' : r.added ≠ [] := List.ne_nil_of_length_pos (even ▸ List.length_pos_iff.mpr some_)
  rw [fits.changedLines_eq even]
  exact StackLint.getLast?_changedLines even some_ (fits.last some_ some')

/-- The body shows the changed lines without their numbers. -/
theorem Fits.body_eq (fits : r.Fits head tail old new) (even : r.removed.length = r.added.length) :
    r.body = ((changedLines 0 old new).map Prod.fst).flatMap
      fun pair => [removal pair.1, addition pair.2] := by
  rw [fits.changedLines_eq even, changedLines_map_fst, body_of_eq even]

/-- From a line-by-line body the lines can be read. -/
theorem eq_of_shown {pairs pairs' : List (Text × Text)}
    (same : pairs.flatMap (fun pair => [removal pair.1, addition pair.2])
      = pairs'.flatMap fun pair => [removal pair.1, addition pair.2]) : pairs = pairs' := by
  induction pairs generalizing pairs' with
  | nil =>
      cases pairs' with
      | nil => rfl
      | cons pair pairs' => cases same
  | cons pair pairs ih =>
      cases pairs' with
      | nil => cases same
      | cons pair' pairs' =>
          obtain ⟨was, later⟩ := List.cons.inj same
          obtain ⟨becomes, others⟩ := List.cons.inj later
          rw [Prod.ext (removal_injective was) (addition_injective becomes), ih others]

theorem header_congr {r r' : ChangedRegion} (before : r.before = r'.before)
    (removed : r.removed.length = r'.removed.length) (added : r.added.length = r'.added.length) :
    r.header = r'.header := by
  unfold header extent
  rw [before, removed, added]

end ChangedRegion

/-! ## §7. Equal diffs. -/

/-- **A line-by-line comparison shows the same of two changes** that keep the
number of lines: the changed lines with what becomes of them, in order, and the
numbers of the first and of the last one. -/
structure ComparesAlike (old new new' : List Text) : Prop where
  even : old.length = new.length
  even' : old.length = new'.length
  pairs : (changedLines 0 old new).map Prod.fst = (changedLines 0 old new').map Prod.fst
  first : (changedLines 0 old new).head?.map Prod.snd = (changedLines 0 old new').head?.map Prod.snd
  last : (changedLines 0 old new).getLast?.map Prod.snd
    = (changedLines 0 old new').getLast?.map Prod.snd

theorem ComparesAlike.symm {old new new' : List Text} (alike : ComparesAlike old new new') :
    ComparesAlike old new' new :=
  ⟨alike.even', alike.even, alike.pairs.symm, alike.first.symm, alike.last.symm⟩

/-- Only what changes nothing compares like what changes nothing. -/
theorem ComparesAlike.eq_of_unchanged {lines new : List Text}
    (alike : ComparesAlike lines lines new) : lines = new := by
  refine eq_of_changedLines_eq_nil (n := 0) alike.even' ?_
  have none_ := alike.pairs
  rw [changedLines_self] at none_
  exact List.map_eq_nil_iff.mp none_.symm

/-- Changes with the same diff compare alike, if they are not the same. -/
theorem comparesAlike_of_diff {old new new' oldName newName : Text} (differ : old ≠ new)
    (differ' : old ≠ new') (same : diff old new oldName newName = diff old new' oldName newName) :
    new = new' ∨ ComparesAlike old.lines new.lines new'.lines := by
  obtain ⟨head, tail, fits⟩ := ChangedRegion.between_fits old.lines new.lines
  obtain ⟨head', tail', fits'⟩ := ChangedRegion.between_fits old.lines new'.lines
  obtain ⟨header, body⟩ := header_body_of_diff differ differ' same
  obtain ⟨before, removed, added⟩ := ChangedRegion.extents_of_header header
  have differs := mt Text.lines_injective differ
  have differs' := mt Text.lines_injective differ'
  by_cases even : (ChangedRegion.between old.lines new.lines).removed.length
      = (ChangedRegion.between old.lines new.lines).added.length
  · have even' := removed.symm.trans (even.trans added)
    rw [fits.body_eq even, fits'.body_eq even'] at body
    right
    constructor
    case even => exact fits.even_iff.mp even
    case even' => exact fits'.even_iff.mp even'
    case pairs => exact ChangedRegion.eq_of_shown body
    case first => rw [fits.head?_changedLines even differs, fits'.head?_changedLines even' differs',
      before]
    case last => rw [fits.getLast?_changedLines even differs,
      fits'.getLast?_changedLines even' differs', before, removed]
  · exact .inl (new_of_uneven_diff even same.symm).symm

/-- Changes that compare alike have the same diff. -/
theorem diff_of_comparesAlike {old new new' : Text} (differ : old ≠ new) (differ' : old ≠ new')
    (alike : ComparesAlike old.lines new.lines new'.lines) (oldName newName : Text) :
    diff old new oldName newName = diff old new' oldName newName := by
  obtain ⟨head, tail, fits⟩ := ChangedRegion.between_fits old.lines new.lines
  obtain ⟨head', tail', fits'⟩ := ChangedRegion.between_fits old.lines new'.lines
  have differs := mt Text.lines_injective differ
  have differs' := mt Text.lines_injective differ'
  have even := fits.even_iff.mpr alike.even
  have even' := fits'.even_iff.mpr alike.even'
  have before : (ChangedRegion.between old.lines new.lines).before
      = (ChangedRegion.between old.lines new'.lines).before := by
    have first := alike.first
    rw [fits.head?_changedLines even differs, fits'.head?_changedLines even' differs'] at first
    exact Option.some.inj first
  have removed : (ChangedRegion.between old.lines new.lines).removed.length
      = (ChangedRegion.between old.lines new'.lines).removed.length := by
    have last := alike.last
    rw [fits.getLast?_changedLines even differs, fits'.getLast?_changedLines even' differs',
      before] at last
    have some_ := List.length_pos_iff.mpr (fits.removed_ne_nil even differs)
    have some' := List.length_pos_iff.mpr (fits'.removed_ne_nil even' differs')
    have same := Option.some.inj last
    omega
  have added := even.symm.trans (removed.trans even')
  have body : (ChangedRegion.between old.lines new.lines).body
      = (ChangedRegion.between old.lines new'.lines).body := by
    rw [fits.body_eq even, fits'.body_eq even', alike.pairs]
  have header := ChangedRegion.header_congr before removed added
  rw [diff, diff, if_neg differ, if_neg differ']
  simp only [header, body]

/-- **A diff identifies the change but for the places of lines inside a region that
keeps their number.** -/
theorem diff_eq_diff_iff (old new new' oldName newName : Text) :
    diff old new oldName newName = diff old new' oldName newName
      ↔ new = new' ∨ ComparesAlike old.lines new.lines new'.lines := by
  by_cases unchanged : old = new
  · subst unchanged
    rw [diff_self]
    constructor
    · intro same
      by_contra other
      exact diff_ne_nil (fun equal => other (.inl equal)) oldName newName same.symm
    · rintro (rfl | alike)
      · exact (diff_self old oldName newName).symm
      · rw [Text.lines_injective alike.eq_of_unchanged, diff_self]
  by_cases unchanged' : old = new'
  · subst unchanged'
    rw [diff_self]
    constructor
    · intro same
      exact absurd same (diff_ne_nil unchanged oldName newName)
    · rintro (rfl | alike)
      · exact absurd rfl unchanged
      · exact absurd (Text.lines_injective alike.symm.eq_of_unchanged) unchanged
  constructor
  · exact comparesAlike_of_diff unchanged unchanged'
  · rintro (rfl | alike)
    · rfl
    · exact diff_of_comparesAlike unchanged unchanged' alike oldName newName

/-- **Not every diff identifies the change:** of four lines alike, the first, the
last and one in between are changed. -/
theorem not_diff_injective :
    diff "a\na\na\na" "b\nb\na\nb" "a" "b" = diff "a\na\na\na" "b\na\nb\nb" "a" "b"
      ∧ ¬ ∀ old new new' oldName newName : Text,
          diff old new oldName newName = diff old new' oldName newName → new = new' := by
  have same : diff "a\na\na\na" "b\nb\na\nb" "a" "b"
      = diff "a\na\na\na" "b\na\nb\nb" "a" "b" := by decide +kernel
  refine ⟨same, ?_⟩
  intro all
  exact absurd (all _ _ _ _ _ same) (by decide)

end StackLint

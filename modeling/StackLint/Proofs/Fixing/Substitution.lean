/-
  StackLint.Proofs.Fixing.Substitution
  ────────────────────────────────────
  **SPLICING FIXES ONE BY ONE IS SUBSTITUTING THEM AT ONCE.**

  `Fix.applyAll` splices its fixes into the text one after the other, from the
  end to the beginning.  When no two of them overlap, the text it ends with is
  the simultaneous substitution: what the fixes leave alone, interleaved with
  their new code from left to right.  The order in which the fixes are listed
  is then of no account.
-/
import Mathlib
import StackLint.Fixing.Run

namespace StackLint

namespace Fix

/-! ## §1. Simultaneous substitution. -/

/-- The order from left to right: earlier ranges first, and of two that begin
at one offset the narrower one. -/
def standsBefore (f g : Fix) : Bool :=
  f.start < g.start || (f.start == g.start && f.stop ≤ g.stop)

/-- The fixes from left to right. -/
def leftToRight (fixes : List Fix) : List Fix :=
  fixes.mergeSort standsBefore

/-- What follows `cursor` in `content`, with the new code of the fixes in the
place of their ranges. -/
def interleave (content : Text) : (cursor : Nat) → List Fix → Text
  | cursor, [] => content.drop cursor
  | cursor, f :: fs =>
      content.slice cursor f.start ++ f.newCode ++ interleave content f.stop fs

/-- The text with all fixes substituted at once. -/
def substitution (fixes : List Fix) (content : Text) : Text :=
  interleave content 0 (leftToRight fixes)

/-! ## §2. Fixes that do not overlap. -/

/-- Overlapping has no direction. -/
theorem overlaps_comm (f g : Fix) : f.overlaps g = g.overlaps f := by
  unfold overlaps isInsertion
  rw [Bool.eq_iff_iff]
  by_cases hf : f.start = f.stop <;> by_cases hg : g.start = g.stop <;>
    simp [hf, hg] <;> omega

/-- Of two fixes in order that do not overlap, the one ends before the other
begins, and they are not insertions at one place. -/
theorem apart_of_standsBefore {f g : Fix} (before : f.standsBefore g = true)
    (apart : f.overlaps g = false) : f.stop ≤ g.start ∧ f.start + f.stop < g.start + g.stop := by
  have hf := f.start_le_stop
  have hg := g.start_le_stop
  simp only [standsBefore, Bool.or_eq_true, Bool.and_eq_true, decide_eq_true_eq,
    beq_iff_eq] at before
  unfold overlaps isInsertion at apart
  by_cases hfi : f.start = f.stop <;> by_cases hgi : g.start = g.stop <;>
    simp [hfi, hgi] at apart <;> omega

/-- Every fix overlaps itself if it is an insertion, and otherwise too. -/
theorem overlaps_self (f : Fix) : f.overlaps f = true := by
  have hf := f.start_le_stop
  unfold overlaps isInsertion
  by_cases hfi : f.start = f.stop
  · simp [hfi]
  · simp [hfi]
    omega

theorem standsBefore_trans (f g h : Fix) (fg : f.standsBefore g = true)
    (gh : g.standsBefore h = true) : f.standsBefore h = true := by
  simp only [standsBefore, Bool.or_eq_true, Bool.and_eq_true, decide_eq_true_eq,
    beq_iff_eq] at *
  omega

theorem standsBefore_total (f g : Fix) : (f.standsBefore g || g.standsBefore f) = true := by
  simp only [standsBefore, Bool.or_eq_true, Bool.and_eq_true, decide_eq_true_eq, beq_iff_eq]
  omega

/-- Fixes are applied against the order from left to right. -/
theorem appliesBefore_eq (f g : Fix) : f.appliesBefore g = g.standsBefore f := by
  unfold appliesBefore standsBefore
  rfl

/-! ## §3. Sorting. -/

/-- The pairs of different members of a list do not overlap. -/
def Apart (fixes : List Fix) : Prop :=
  fixes.Pairwise fun f g => f.overlaps g = false

/-- Listing the fixes otherwise does not make them overlap. -/
theorem Apart.perm {fixes others : List Fix} (apart : Apart fixes) (same : fixes.Perm others) :
    Apart others := by
  have symm : ∀ {f g : Fix}, f.overlaps g = false → g.overlaps f = false := by
    intro f g hfg
    rw [overlaps_comm g f]
    exact hfg
  exact same.pairwise apart symm

theorem leftToRight_perm (fixes : List Fix) : (leftToRight fixes).Perm fixes :=
  List.mergeSort_perm fixes standsBefore

/-- Sorted fixes that do not overlap follow one another in the text. -/
theorem Apart.leftToRight_follow {fixes : List Fix} (apart : Apart fixes) :
    (leftToRight fixes).Pairwise fun f g =>
      f.stop ≤ g.start ∧ f.start + f.stop < g.start + g.stop := by
  have sorted : (leftToRight fixes).Pairwise fun f g => f.standsBefore g = true :=
    List.pairwise_mergeSort standsBefore_trans standsBefore_total fixes
  have apart' : Apart (leftToRight fixes) := apart.perm (leftToRight_perm fixes).symm
  exact (sorted.and apart').imp fun h => apart_of_standsBefore h.1 h.2

/-- Two lists of the same fixes, each member of which follows the one before,
are equal. -/
theorem eq_of_follow {xs ys : List Fix} (same : xs.Perm ys)
    (hx : xs.Pairwise fun f g => f.start + f.stop < g.start + g.stop)
    (hy : ys.Pairwise fun f g => f.start + f.stop < g.start + g.stop) : xs = ys := by
  refine List.Perm.eq_of_pairwise ?_ hx hy same
  intro f g _ _ hfg hgf
  omega

/-- From left to right there is one way to list fixes that do not overlap. -/
theorem Apart.leftToRight_congr {fixes others : List Fix} (apart : Apart fixes)
    (same : fixes.Perm others) : leftToRight fixes = leftToRight others := by
  -- The sum of both ends grows strictly, so the two lists cannot differ.
  refine eq_of_follow ?_ (apart.leftToRight_follow.imp And.right)
    ((apart.perm same).leftToRight_follow.imp And.right)
  have toOthers : (leftToRight fixes).Perm others := (leftToRight_perm fixes).trans same
  exact toOthers.trans (leftToRight_perm others).symm

/-- The order in which fixes are applied is the order from right to left. -/
theorem Apart.applied_order {fixes : List Fix} (apart : Apart fixes) :
    fixes.mergeSort appliesBefore = (leftToRight fixes).reverse := by
  have sorted : (fixes.mergeSort appliesBefore).Pairwise fun f g => f.appliesBefore g = true := by
    refine List.pairwise_mergeSort ?_ ?_ fixes
    · intro f g h fg gh
      rw [appliesBefore_eq] at *
      exact standsBefore_trans h g f gh fg
    · intro f g
      rw [appliesBefore_eq, appliesBefore_eq]
      exact standsBefore_total g f
  have same : (fixes.mergeSort appliesBefore).reverse.Perm (leftToRight fixes) :=
    (List.reverse_perm _).trans ((List.mergeSort_perm fixes _).trans (leftToRight_perm fixes).symm)
  -- Read backwards, the order of application follows the text as well.
  have backwards : (fixes.mergeSort appliesBefore).reverse.Pairwise fun f g =>
      f.start + f.stop < g.start + g.stop := by
    have apart' : Apart (fixes.mergeSort appliesBefore) :=
      apart.perm (List.mergeSort_perm fixes _).symm
    rw [List.pairwise_reverse]
    refine (sorted.and apart').imp ?_
    intro f g h
    rw [appliesBefore_eq, overlaps_comm] at h
    exact (apart_of_standsBefore h.1 h.2).2
  rw [← eq_of_follow same backwards (apart.leftToRight_follow.imp And.right),
    List.reverse_reverse]

/-! ## §4. Splicing. -/

/-- What stands before `start`, cut at an earlier place. -/
theorem take_append_slice (content : Text) {cursor start : Nat} (h : cursor ≤ start) :
    content.take cursor ++ content.slice cursor start = content.take start := by
  have whole := List.take_append_drop cursor (content.take start)
  rw [List.take_take, Nat.min_eq_left h, List.drop_take] at whole
  exact whole

/-- **One splice.**  A fix that ends inside a text that is intact up to there
replaces its range. -/
theorem apply_of_intact (f : Fix) {content rest : Text} (inside : f.stop ≤ content.length) :
    f.apply (content.take f.stop ++ rest) = content.take f.start ++ f.newCode ++ rest := by
  have hlen : (content.take f.stop).length = f.stop := by
    rw [List.length_take]
    omega
  unfold apply
  rw [List.take_append_of_le_length (by rw [hlen]; exact f.start_le_stop), List.take_take,
    Nat.min_eq_left f.start_le_stop, List.drop_append_of_le_length (by omega),
    List.drop_eq_nil_of_le (by omega), List.nil_append]

/-- **All splices.**  Applying fixes that follow one another, the last one
first, leaves what precedes them and interleaves the rest. -/
theorem foldr_apply_eq (content : Text) (fixes : List Fix) :
    ∀ cursor, cursor ≤ content.length →
      (∀ f ∈ fixes, cursor ≤ f.start ∧ f.stop ≤ content.length) →
      (fixes.Pairwise fun f g => f.stop ≤ g.start) →
      fixes.foldr (fun f text => f.apply text) content
        = content.take cursor ++ interleave content cursor fixes := by
  induction fixes with
  | nil =>
      intro cursor _ _ _
      simp only [List.foldr_nil, interleave, List.take_append_drop]
  | cons f fs ih =>
      intro cursor _ inside follow
      obtain ⟨after, follow⟩ := List.pairwise_cons.mp follow
      have hf := inside f List.mem_cons_self
      -- the later fixes leave the text intact up to the end of this one
      have rest := ih f.stop hf.2
        (fun g hg => ⟨after g hg, (inside g (List.mem_cons_of_mem f hg)).2⟩) follow
      rw [List.foldr_cons, rest, apply_of_intact f hf.2, interleave,
        ← take_append_slice content hf.1]
      simp only [List.append_assoc]

/-! ## §5. The result. -/

/-- Applying fixes that lie in the text and do not overlap substitutes them. -/
theorem Apart.applyAll_eq {fixes : List Fix} {content : Text} (apart : Apart fixes)
    (inside : ∀ f ∈ fixes, f.stop ≤ content.length) :
    applyAll fixes content = substitution fixes content := by
  unfold applyAll substitution
  rw [apart.applied_order, List.foldl_reverse]
  have spliced := foldr_apply_eq content (leftToRight fixes) 0 (Nat.zero_le _)
    (fun f hf => ⟨Nat.zero_le _, inside f ((leftToRight_perm fixes).mem_iff.mp hf)⟩)
    (apart.leftToRight_follow.imp And.left)
  rw [spliced, List.take_zero, List.nil_append]

/-- **Applying fixes that lie in the text and do not overlap substitutes them
all at once.**  From left to right each ends before the next one begins, so an
insertion at the start of a replaced range comes before the replacement and one
at its end after it; and the text is the same however the fixes are listed. -/
theorem applyAll_eq_substitution (fixes : List Fix) (content : Text)
    (inside : ∀ f ∈ fixes, f.stop ≤ content.length) (apart : Apart fixes) :
    applyAll fixes content = substitution fixes content
      ∧ (leftToRight fixes).Perm fixes
      ∧ ((leftToRight fixes).Pairwise fun f g => f.standsBefore g = true ∧ f.stop ≤ g.start)
      ∧ ∀ others : List Fix, others.Perm fixes →
          applyAll others content = applyAll fixes content := by
  have whole := apart.applyAll_eq inside
  refine ⟨whole, leftToRight_perm fixes, ?_, ?_⟩
  · have sorted : (leftToRight fixes).Pairwise fun f g => f.standsBefore g = true :=
      List.pairwise_mergeSort standsBefore_trans standsBefore_total fixes
    exact (sorted.and apart.leftToRight_follow).imp fun h => ⟨h.1, h.2.1⟩
  · intro others same
    have insideToo : ∀ f ∈ others, f.stop ≤ content.length :=
      fun f hf => inside f (same.mem_iff.mp hf)
    rw [whole, (apart.perm same.symm).applyAll_eq insideToo]
    unfold substitution
    rw [apart.leftToRight_congr same.symm]

/-- In `abcd`, a replacement of `bc` with an insertion at either end, listed
from the middle. -/
theorem applyAll_abcd :
    let fix (start stop : Nat) (h : start ≤ stop) (newCode : Text) : Fix :=
      { oldCode := (Text.ofString "abcd").slice start stop, newCode, confidence := .high,
        description := [], start, stop, start_le_stop := h }
    let fixes := [fix 1 3 (by decide) "y", fix 3 3 (by decide) "z", fix 1 1 (by decide) "x"]
    (∀ f ∈ fixes, f.stop ≤ (Text.ofString "abcd").length) ∧ Apart fixes
      ∧ applyAll fixes "abcd" = substitution fixes "abcd"
      ∧ substitution fixes "abcd" = Text.ofString "axyzd" := by
  intro fix fixes
  have inside : ∀ f ∈ fixes, f.stop ≤ (Text.ofString "abcd").length := by decide
  have apart : Apart fixes := by
    unfold Apart
    decide
  refine ⟨inside, apart, (applyAll_eq_substitution fixes "abcd" inside apart).1, ?_⟩
  cbv

end Fix

end StackLint

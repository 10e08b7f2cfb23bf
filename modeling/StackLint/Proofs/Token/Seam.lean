/-
  StackLint.Proofs.Token.Seam
  ───────────────────────────
  **WHERE CODE IS REPLACED OR INSERTED.**

  A site is a range of tokens, or a point at one end of a token.  Behind the last
  member of an object there is at most a comma and the closing brace; the text
  up to that brace can be cut into tokens by itself, and a comma in it is a
  token of the whole text.
-/
import StackLint.Proofs.Token.Gap
import StackLint.Proofs.Token.Layout

namespace StackLint

/-! ## §1. Sites. -/

/-- Where code can be replaced: the tokens from `i` up to `j`, or a point in
front of a token or behind one.  The end of the text counts as no token here. -/
inductive Layout.Site (L : Layout) : Nat → Nat → Prop where
  | tokens {i j : Nat} (h : i < j) (inside : j ≤ L.size) : Site L (L.startAt i) (L.stopBefore j)
  | front {i : Nat} (h : i < L.size) : Site L (L.startAt i) (L.startAt i)
  | behind {j : Nat} (h : 0 < j) (inside : j ≤ L.size) : Site L (L.stopBefore j) (L.stopBefore j)

namespace Layout.Site

variable {L : Layout} {start stop : Nat}

theorem le (site : L.Site start stop) : start ≤ stop := by
  cases site with
  | tokens h _ => exact L.startAt_le_stopBefore h
  | front | behind => exact Nat.le_refl _

/-- What has a width begins with a token. -/
theorem exists_startAt (site : L.Site start stop) (wide : start < stop) :
    ∃ k < L.size, start = L.startAt k := by
  cases site with
  | @tokens i _ h inside => exact ⟨i, Nat.lt_of_lt_of_le h inside, rfl⟩
  | front | behind => exact absurd wide (Nat.lt_irrefl _)

theorem stop_le (site : L.Site start stop) : stop ≤ L.text.length := by
  cases site with
  | tokens | behind => exact L.stopBefore_le _
  | front => exact L.startAt_le _

end Layout.Site

/-! ## §2. Slices. -/

namespace Text

theorem length_slice (t : Text) {start stop : Nat} (h : start ≤ stop) (inside : stop ≤ t.length) :
    (t.slice start stop).length = stop - start := by
  unfold slice
  rw [List.length_take, List.length_drop]
  omega

theorem slice_self (t : Text) {start stop : Nat} (h : stop ≤ start) : t.slice start stop = [] := by
  unfold slice
  rw [Nat.sub_eq_zero_of_le h]
  exact List.take_zero ..

theorem lt_of_slice {t : Text} {start stop : Nat} (h : t.slice start stop ≠ []) : start < stop :=
  Nat.lt_of_not_le fun le => h (t.slice_self le)

/-- From where a slice begins the text goes on with it. -/
theorem drop_eq_of_slice {t old : Text} {start stop : Nat} (h : start ≤ stop)
    (isOld : t.slice start stop = old) : t.drop start = old ++ t.drop stop := by
  unfold slice at isOld
  have split := List.take_append_drop (stop - start) (t.drop start)
  rw [isOld, List.drop_drop, Nat.add_sub_cancel' h] at split
  exact split.symm

/-- The width of what stands between two places. -/
theorem stop_eq_of_drop {t old : Text} {start stop : Nat} (h : start ≤ stop)
    (inside : stop ≤ t.length) (left : t.drop start = old ++ t.drop stop) :
    stop = start + old.length := by
  have length := congrArg List.length left
  rw [List.length_append, List.length_drop, List.length_drop] at length
  omega

/-- Two slices that touch. -/
theorem slice_append_slice (t : Text) {start mid stop : Nat} (h : start ≤ mid) (h' : mid ≤ stop) :
    t.slice start mid ++ t.slice mid stop = t.slice start stop := by
  unfold slice
  have split : stop - start = (mid - start) + (stop - mid) := by omega
  have behind : t.drop mid = (t.drop start).drop (mid - start) := by
    rw [List.drop_drop]
    congr 1
    omega
  rw [split, List.take_add, behind]

end Text

/-! ## §3. Seams. -/

namespace Layout

variable {L : Layout}

/-- From the token `i` up to `j` there is at most the punctuator `p`. -/
def AtMost (L : Layout) (p : Punct) (i j : Nat) : Prop :=
  j = i ∨ (j = i + 1 ∧ (L.token i).is p = true)

theorem AtMost.le {p : Punct} {i j : Nat} (h : L.AtMost p i j) : i ≤ j := by
  rcases h with rfl | ⟨rfl, _⟩
  · exact Nat.le_refl _
  · exact Nat.le_succ _

theorem lt_size_of_is {i : Nat} {p : Punct} (h : (L.token i).is p = true) : i < L.size := by
  refine Nat.lt_of_not_le fun behind => ?_
  rw [L.token_of_le behind] at h
  unfold Token.is at h
  rw [L.final_spec.1] at h
  cases h

/-- A punctuator of one character. -/
theorem slice_of_is {i : Nat} {p : Punct} {c : CodePoint} (h : (L.token i).is p = true)
    (single : p.text = [c]) :
    L.stopBefore (i + 1) = L.startAt i + 1
      ∧ L.text.slice (L.startAt i) (L.stopBefore (i + 1)) = [c] := by
  obtain ⟨_, _, nonempty, inside, _, spelled⟩ := L.token_spec (lt_size_of_is h)
  unfold Token.is at h
  rw [beq_iff_eq.mp h] at spelled
  have spelled : L.text.slice (L.startAt i) (L.stopBefore (i + 1)) = [c] :=
    (spelled rfl).trans single
  have length := L.text.length_slice (Nat.le_of_lt nonempty) inside
  rw [spelled, List.length_singleton] at length
  exact ⟨by omega, spelled⟩

theorem getElem?_of_is {i : Nat} {p : Punct} {c : CodePoint} (h : (L.token i).is p = true)
    (single : p.text = [c]) : L.text[L.startAt i]? = some c := by
  obtain ⟨_, spelled⟩ := slice_of_is h single
  unfold Text.slice at spelled
  have head := congrArg List.head? spelled
  rw [List.head?_cons, List.head?_take] at head
  split at head
  · cases head
  · rw [List.head?_drop] at head
    exact head

theorem gap_slice {i : Nat} (h : 0 < i) (inside : i < L.size) :
    Scan.Gap false (L.text.slice (L.stopBefore i) (L.startAt i)) :=
  (L.token_spec inside).2.2.2.2.1 h

/-- Without a comma the seam is a gap. -/
theorem gap_of_atMost {k j : Nat} (h : 0 < k) (brace : L.AtMost .closeBrace k j) :
    Scan.Gap false (L.text.slice (L.stopBefore k) (L.stopBefore j - 1)) := by
  rcases brace with rfl | ⟨rfl, isBrace⟩
  · rw [Text.slice_self _ (by omega)]
    exact .nil
  · rw [(slice_of_is isBrace rfl).1, Nat.add_sub_cancel]
    exact gap_slice h (lt_size_of_is isBrace)

/-- Up to the brace behind it, a comma stands between two gaps. -/
theorem slice_comma {k : Nat} (h : 0 < k) (comma : (L.token k).is .comma = true)
    (brace : (L.token (k + 1)).is .closeBrace = true) :
    ∃ gap behind, Scan.Gap false gap ∧ Scan.Gap false behind
      ∧ L.text.slice (L.stopBefore k) (L.stopBefore (k + 2) - 1) = gap ++ .scalar ',' :: behind
      ∧ L.stopBefore k + gap.length + 1 = L.stopBefore (k + 1) := by
  obtain ⟨stop, spelled⟩ := slice_of_is comma (c := .scalar ',') rfl
  have one := L.stopBefore_le_startAt k
  have two := L.stopBefore_le_startAt (k + 1)
  refine ⟨_, _, gap_slice h (lt_size_of_is comma), gap_slice (Nat.succ_pos k) (lt_size_of_is brace),
    ?_, ?_⟩
  · rw [(slice_of_is brace rfl).1, Nat.add_sub_cancel, ← List.singleton_append, ← spelled,
      Text.slice_append_slice _ (by omega) two, Text.slice_append_slice _ one (by omega)]
  · rw [Text.length_slice _ one (L.startAt_le k)]
    omega

/-- **The seam of an object can be cut into tokens**, and a comma in it is the token `k` of the
whole text.  In front of a brace a comma is always found. -/
theorem tokenize_seam {k m j : Nat} (h : 0 < k) (comma : L.AtMost .comma k m)
    (brace : L.AtMost .closeBrace m j) :
    ∃ tokens, tokenize (L.text.slice (L.stopBefore k) (L.stopBefore j - 1)) = .ok tokens
      ∧ (∀ t, tokens.find? (·.is .comma) = some t →
          (L.token k).is .comma = true ∧ m = k + 1
            ∧ L.stopBefore k + t.start + 1 = L.stopBefore (k + 1))
      ∧ (tokens.find? (·.is .comma) = none → m < j → m = k) := by
  -- A seam that is a gap has no token, so no comma is found.
  have noComma (bare : m < j → m = k) : Scan.Gap false
        (L.text.slice (L.stopBefore k) (L.stopBefore j - 1)) →
      ∃ tokens, tokenize (L.text.slice (L.stopBefore k) (L.stopBefore j - 1)) = .ok tokens
        ∧ (∀ t, tokens.find? (·.is .comma) = some t →
            (L.token k).is .comma = true ∧ m = k + 1
              ∧ L.stopBefore k + t.start + 1 = L.stopBefore (k + 1))
        ∧ (tokens.find? (·.is .comma) = none → m < j → m = k) := by
    intro gap
    obtain ⟨final, run, isEnd⟩ := Scan.tokenize_gap gap
    refine ⟨_, run, ?_, fun _ => bare⟩
    intro t found
    have isComma := List.find?_some found
    rw [List.mem_singleton.mp (List.mem_of_find?_eq_some found)] at isComma
    unfold Token.is at isComma
    rw [isEnd] at isComma
    cases isComma
  rcases comma with rfl | ⟨rfl, isComma⟩
  · exact noComma (fun _ => rfl) (gap_of_atMost h brace)
  · rcases brace with rfl | ⟨rfl, isBrace⟩
    · -- Without a brace the comma itself is cut off.
      refine noComma (fun never => absurd never (Nat.lt_irrefl _)) ?_
      rw [(slice_of_is isComma rfl).1, Nat.add_sub_cancel]
      exact gap_slice h (lt_size_of_is isComma)
    · obtain ⟨gap, behind, isGap, isGap', whole, stop⟩ := slice_comma h isComma isBrace
      obtain ⟨comma, final, run, lexeme, start, _⟩ := Scan.tokenize_gap_comma isGap isGap'
      rw [whole]
      have first : comma.is .comma = true := by
        unfold Token.is
        rw [lexeme]
        rfl
      refine ⟨_, run, ?_, ?_⟩
      · intro t found
        simp only [List.find?_cons, first, Option.some.injEq] at found
        subst found
        rw [start]
        exact ⟨isComma, rfl, stop⟩
      · intro never
        simp only [List.find?_cons, first, reduceCtorEq] at never

end Layout

end StackLint

/-
  StackLint.Proofs.Fixing.Selection
  ─────────────────────────────────
  **EVERY OFFER IS SORTED OUT ONCE.**

  Offers are rejected or selected, and the selected ones are accepted or
  skipped.  No offer is lost or counted twice on the way, no two accepted ones
  overlap, and whatever is skipped for an overlap gives way to an accepted
  offer of higher confidence, or of equal confidence and an earlier place.

  The greedy choice is a fold; `Resolution.Settles` is what it preserves.
-/
import StackLint.Fixing.Selection
import StackLint.Proofs.Fixing.Substitution

namespace StackLint

/-! ## §1. Offers. -/

namespace FixOffer

/-- The offers are the violations that carry a fix, with their places. -/
theorem mem_ofViolations {violations : List Violation} {o : FixOffer} :
    o ∈ ofViolations violations
      ↔ violations[o.place]? = some o.violation ∧ o.violation.fix = some o.fix := by
  unfold ofViolations
  simp only [List.mem_filterMap, Prod.exists, List.mem_zipIdx_iff_getElem?, Option.map_eq_some_iff]
  constructor
  · rintro ⟨violation, place, found, fix, carried, rfl⟩
    exact ⟨found, carried⟩
  · rintro ⟨found, carried⟩
    exact ⟨o.violation, o.place, found, o.fix, carried, rfl⟩

/-- Offers are made in the order of their places. -/
theorem ofViolations_places (violations : List Violation) :
    (ofViolations violations).Pairwise fun a b => a.place < b.place := by
  unfold ofViolations
  have increasing : violations.zipIdx.Pairwise fun a b => a.2 < b.2 := by
    rw [← List.pairwise_map (f := Prod.snd) (R := (· < ·)), List.zipIdx_map_snd]
    exact List.pairwise_lt_range'
  refine List.Pairwise.filterMap _ ?_ increasing
  intro a b hab o ho o' ho'
  obtain ⟨f, _, rfl⟩ := Option.map_eq_some_iff.mp ho
  obtain ⟨g, _, rfl⟩ := Option.map_eq_some_iff.mp ho'
  exact hab

/-- No offer is made twice. -/
theorem ofViolations_nodup (violations : List Violation) : (ofViolations violations).Nodup := by
  refine (ofViolations_places violations).imp ?_
  rintro a b before rfl
  exact Nat.lt_irrefl _ before

/-- How often an offer is made. -/
theorem count_ofViolations (violations : List Violation) (o : FixOffer) :
    (ofViolations violations).count o
      = if violations[o.place]? = some o.violation ∧ o.violation.fix = some o.fix then 1 else 0 := by
  rw [(ofViolations_nodup violations).count]
  simp only [mem_ofViolations]

/-- Two fixes that make the very same change overlap. -/
theorem overlaps_of_sameChange {f g : Fix} (same : f.sameChange g = true) :
    f.overlaps g = true := by
  simp only [Fix.sameChange, Bool.and_eq_true, beq_iff_eq] at same
  obtain ⟨⟨starts, stops⟩, _⟩ := same
  have atSelf := Fix.overlaps_self f
  unfold Fix.overlaps Fix.isInsertion at *
  rw [← starts, ← stops]
  exact atSelf

/-- Offers conflict when their fixes overlap. -/
theorem conflictWith?_isSome (o a : FixOffer) :
    (o.conflictWith? a).isSome = o.fix.overlaps a.fix := by
  unfold conflictWith?
  by_cases same : o.fix.sameChange a.fix = true
  · rw [if_pos same, overlaps_of_sameChange same]
    rfl
  · rw [if_neg same]
    cases o.fix.overlaps a.fix <;> rfl

end FixOffer

/-! ## §2. Rejection. -/

/-- The offer is skipped because it is in the way of another one. -/
def SkipReason.isConflict : SkipReason → Bool
  | .duplicate _ | .overlap _ => true
  | .belowMinimum _ _ | .unconfirmed _ | .declined => false

/-- Rejection has other reasons than a conflict. -/
theorem FixOffer.rejection_not_conflict {options : FixOptions} {answers : Option Answers}
    {o : FixOffer} {reason : SkipReason} (h : o.rejection? options answers = some reason) :
    reason.isConflict = false := by
  unfold FixOffer.rejection? at h
  split at h
  · cases h
    rfl
  · split at h
    · split at h
      · cases h
        rfl
      · split at h
        · cases h
        · cases h
          rfl
    · cases h

/-- The rejected offers, without the reasons. -/
theorem rejectedOffers_map_offer (options : FixOptions) (answers : Option Answers)
    (offers : List FixOffer) :
    (rejectedOffers options answers offers).map SkippedFix.offer
      = offers.filter fun o => !(o.rejection? options answers).isNone := by
  unfold rejectedOffers
  induction offers with
  | nil => rfl
  | cons o os ih =>
      rw [List.filterMap_cons, List.filter_cons]
      cases h : o.rejection? options answers with
      | none => exact ih
      | some reason =>
          show o :: List.map _ _ = o :: List.filter _ _
          rw [ih]

/-- Every offer is either selected or rejected. -/
theorem selected_append_rejected (options : FixOptions) (answers : Option Answers)
    (offers : List FixOffer) :
    (selectedOffers options answers offers
      ++ (rejectedOffers options answers offers).map SkippedFix.offer).Perm offers := by
  rw [rejectedOffers_map_offer]
  exact List.filter_append_perm _ offers

/-! ## §3. Answers. -/

namespace Confirm

variable {confirm : Confirm} {offers front rest : List FixOffer} {o : FixOffer}

/-- An offer has the answer that was given after those about the offers in front of it. -/
theorem lookup_askFrom {before : List Violation} {told : List (FixOffer × Bool)}
    (asked : confirm.askFrom before offers = some told) (distinct : offers.Nodup)
    (isNext : offers = front ++ o :: rest) :
    ∃ answer, confirm (before ++ front.map FixOffer.violation) o.violation = some answer
      ∧ told.lookup o = some answer := by
  induction offers generalizing before told front with
  | nil => exact absurd isNext.symm (List.append_ne_nil_of_right_ne_nil _ (List.cons_ne_nil _ _))
  | cons first offers ih =>
      simp only [askFrom, bind, Option.bind_eq_some_iff, pure, Option.some.injEq] at asked
      obtain ⟨answer, isAnswer, others, askedOthers, rfl⟩ := asked
      obtain ⟨fresh, distinct⟩ := List.nodup_cons.mp distinct
      cases front with
      | nil =>
          obtain ⟨rfl, rfl⟩ := List.cons.inj isNext
          exact ⟨answer, by simpa using isAnswer, List.lookup_cons_self⟩
      | cons _ front =>
          rw [List.cons_append, List.cons.injEq] at isNext
          obtain ⟨rfl, isNext⟩ := isNext
          obtain ⟨answer', isAnswer', found⟩ := ih askedOthers distinct isNext
          have other : (o == first) = false := by
            rw [beq_eq_false_iff_ne]
            rintro rfl
            exact fresh (isNext ▸ List.mem_append_right _ (List.mem_cons_self ..))
          refine ⟨answer', by simpa using isAnswer', ?_⟩
          rw [List.lookup_cons, other]
          exact found

/-- **Each offer that somebody is asked about has its own answer.** -/
theorem answers?_apply {answers : Answers} (asked : confirm.answers? offers = some answers)
    (distinct : offers.Nodup) (isNext : offers = front ++ o :: rest) :
    confirm (front.map FixOffer.violation) o.violation = some (answers o) := by
  obtain ⟨told, isTold, rfl⟩ := Option.map_eq_some_iff.mp asked
  obtain ⟨answer, isAnswer, found⟩ := lookup_askFrom isTold distinct isNext
  simpa [found] using isAnswer

/-- Somebody who always answers gives answers about all offers. -/
theorem exists_answers?_ofFunction (mayApply : Violation → Bool) (offers : List FixOffer) :
    ∃ answers, (ofFunction mayApply).answers? offers = some answers := by
  have asked (before : List Violation) :
      ∃ told, (ofFunction mayApply).askFrom before offers = some told := by
    induction offers generalizing before with
    | nil => exact ⟨[], rfl⟩
    | cons o offers ih =>
        obtain ⟨told, isTold⟩ := ih (before ++ [o.violation])
        exact ⟨(o, mayApply o.violation) :: told, by simp [askFrom, ofFunction, isTold]⟩
  obtain ⟨told, isTold⟩ := asked []
  exact ⟨_, Option.map_eq_some_iff.mpr ⟨told, isTold, rfl⟩⟩

end Confirm

variable {options : FixOptions} {mayApply : Option (Violation → Bool)} {violations : List Violation}
  {answers : Option Answers}

theorem exists_answersFor?_ofFunction (options : FixOptions)
    (mayApply : Option (Violation → Bool)) (offers : List FixOffer) :
    ∃ answers, answersFor? options (mayApply.map Confirm.ofFunction) offers = some answers := by
  cases mayApply with
  | none => exact ⟨none, rfl⟩
  | some mayApply =>
      obtain ⟨answers, asked⟩ :=
        Confirm.exists_answers?_ofFunction mayApply (askedOffers options offers)
      exact ⟨some answers, Option.map_eq_some_iff.mpr ⟨answers, asked, rfl⟩⟩

/-- Offers are rejected by what a function says about their violations. -/
theorem FixOffer.rejection?_ofFunction {o : FixOffer}
    (asked : answersFor? options (mayApply.map Confirm.ofFunction) (ofViolations violations)
      = some answers) (offered : o ∈ ofViolations violations) :
    o.rejection? options answers
      = o.rejection? options (mayApply.map fun mayApply o => mayApply o.violation) := by
  cases mayApply with
  | none =>
      cases asked
      rfl
  | some mayApply =>
      obtain ⟨told, isTold, rfl⟩ := Option.map_eq_some_iff.mp asked
      unfold rejection?
      -- Only about offers that somebody is asked about it matters what was said.
      by_cases isAsked : o.isTrusted options = true ∧ o.needsConfirmation options = true
      · have inside : o ∈ askedOffers options (ofViolations violations) := by
          refine List.mem_filter.mpr ⟨offered, ?_⟩
          rw [isAsked.1, isAsked.2]
          rfl
        have places := (ofViolations_places violations).filter
          fun o => o.isTrusted options && o.needsConfirmation options
        obtain ⟨front, rest, isNext⟩ := List.append_of_mem inside
        have own := Confirm.answers?_apply isTold
          (places.imp fun less same => Nat.ne_of_lt less (congrArg FixOffer.place same)) isNext
        have same : told o = mayApply o.violation := (Option.some.inj own).symm
        simp only [Option.map_some, same]
      · rw [not_and, Bool.not_eq_true] at isAsked
        by_cases trusted : o.isTrusted options = true
        · rw [isAsked trusted]
          rfl
        · rw [Bool.not_eq_true] at trusted
          rw [trusted]
          rfl

/-! ## §4. The greedy choice. -/

namespace Resolution

/-- All offers that were sorted out, accepted or not. -/
def offers (r : Resolution) : List FixOffer :=
  r.accepted ++ r.skipped.map SkippedFix.offer

/-- **The invariant of the choice.**  The offers `seen` so far are accepted or
skipped, the accepted ones are in the order in which they were seen and do not
overlap, and each skipped one conflicts with an accepted one seen before it. -/
structure Settles (r : Resolution) (seen : List FixOffer) : Prop where
  inOrder : r.accepted.Sublist seen
  complete : r.offers.Perm seen
  apart : r.accepted.Pairwise fun a b => a.fix.overlaps b.fix = false
  outranked : ∀ k ∈ r.skipped, ∃ a ∈ r.accepted,
    k.offer.conflictWith? a = some k.reason ∧ [a, k.offer].Sublist seen

/-- An offer without a conflict is accepted. -/
theorem Settles.accept {seen : List FixOffer} {r : Resolution} (h : r.Settles seen)
    {o : FixOffer} (free : r.accepted.findSome? o.conflictWith? = none) :
    ({ r with accepted := r.accepted ++ [o] } : Resolution).Settles (seen ++ [o]) where
  inOrder := h.inOrder.append (List.Sublist.refl [o])
  complete := by
    unfold offers
    show (r.accepted ++ [o] ++ r.skipped.map SkippedFix.offer).Perm (seen ++ [o])
    rw [List.append_assoc]
    -- The new offer stands in front of the skipped ones instead of behind them.
    have later : ([o] ++ r.skipped.map SkippedFix.offer).Perm
        (r.skipped.map SkippedFix.offer ++ [o]) := List.perm_append_comm
    refine (later.append_left r.accepted).trans ?_
    rw [← List.append_assoc]
    exact h.complete.append_right [o]
  apart := by
    show (r.accepted ++ [o]).Pairwise _
    rw [List.pairwise_append]
    refine ⟨h.apart, List.pairwise_singleton _ _, ?_⟩
    intro a ha b hb
    rw [List.mem_singleton] at hb
    subst hb
    have noConflict : b.conflictWith? a = none := List.findSome?_eq_none_iff.mp free a ha
    rw [Fix.overlaps_comm, ← FixOffer.conflictWith?_isSome, noConflict]
    rfl
  outranked := by
    intro k hk
    obtain ⟨a, ha, conflict, before⟩ := h.outranked k hk
    exact ⟨a, List.mem_append_left [o] ha, conflict,
      before.trans (List.sublist_append_left seen [o])⟩

/-- An offer with a conflict is skipped. -/
theorem Settles.skip {seen : List FixOffer} {r : Resolution} (h : r.Settles seen)
    {o : FixOffer} {reason : SkipReason}
    (taken : r.accepted.findSome? o.conflictWith? = some reason) :
    ({ r with skipped := r.skipped ++ [⟨o, reason⟩] } : Resolution).Settles (seen ++ [o]) where
  inOrder := h.inOrder.trans (List.sublist_append_left seen [o])
  complete := by
    unfold offers
    show (r.accepted ++ (r.skipped ++ [SkippedFix.mk o reason]).map SkippedFix.offer).Perm (seen ++ [o])
    rw [List.map_append, ← List.append_assoc]
    exact h.complete.append_right [o]
  apart := h.apart
  outranked := by
    intro k hk
    rcases List.mem_append.mp hk with old | new
    · obtain ⟨a, ha, conflict, before⟩ := h.outranked k old
      exact ⟨a, ha, conflict, before.trans (List.sublist_append_left seen [o])⟩
    · rw [List.mem_singleton] at new
      subst new
      obtain ⟨a, ha, conflict⟩ := List.exists_of_findSome?_eq_some taken
      have seenBefore : [a].Sublist seen :=
        List.singleton_sublist.mpr (h.inOrder.subset ha)
      exact ⟨a, ha, conflict, seenBefore.append (List.Sublist.refl [o])⟩

/-- **One step.**  Sorting out one more offer keeps the invariant. -/
theorem Settles.add {seen : List FixOffer} {r : Resolution} (h : r.Settles seen)
    (o : FixOffer) : (r.add o).Settles (seen ++ [o]) := by
  unfold Resolution.add
  split
  · next free => exact h.accept free
  · next taken => exact h.skip taken

/-- **The whole run.**  Sorting out offers one by one keeps the invariant. -/
theorem Settles.foldl {seen : List FixOffer} {r : Resolution} (h : r.Settles seen)
    (later : List FixOffer) : (later.foldl Resolution.add r).Settles (seen ++ later) := by
  induction later generalizing seen r with
  | nil =>
      rw [List.append_nil]
      exact h
  | cons o os ih =>
      have rest := ih (h.add o)
      rw [List.append_assoc] at rest
      exact rest

theorem settles_nil : (⟨[], []⟩ : Resolution).Settles [] where
  inOrder := List.Sublist.refl []
  complete := List.Perm.refl []
  apart := List.Pairwise.nil
  outranked := by
    intro k hk
    cases hk

/-! ## §4. The order of the choice. -/

/-- The order in which offers are sorted out. -/
def byConfidence (offers : List FixOffer) : List FixOffer :=
  offers.mergeSort fun a b => b.fix.confidence.rank ≤ a.fix.confidence.rank

theorem byConfidence_perm (offers : List FixOffer) : (byConfidence offers).Perm offers :=
  List.mergeSort_perm offers _

theorem ofOffers_settles (offers : List FixOffer) :
    (ofOffers offers).Settles (byConfidence offers) := by
  have run := settles_nil.foldl (byConfidence offers)
  rw [List.nil_append] at run
  exact run

/-- Higher confidence goes first. -/
theorem byConfidence_pairwise (offers : List FixOffer) :
    (byConfidence offers).Pairwise fun a b => b.fix.confidence.rank ≤ a.fix.confidence.rank := by
  have sorted : (byConfidence offers).Pairwise fun a b =>
      decide (b.fix.confidence.rank ≤ a.fix.confidence.rank) = true := by
    refine List.pairwise_mergeSort ?_ ?_ offers
    · intro a b c hab hbc
      rw [decide_eq_true_eq] at *
      omega
    · intro a b
      rw [Bool.or_eq_true, decide_eq_true_eq, decide_eq_true_eq]
      omega
  exact sorted.imp fun h => of_decide_eq_true h

/-- Among offers of one confidence the order is the one they are made in. -/
theorem byConfidence_filter (offers : List FixOffer) (rank : Nat) :
    (byConfidence offers).filter (fun o => o.fix.confidence.rank == rank)
      = offers.filter fun o => o.fix.confidence.rank == rank := by
  -- Offers of one confidence are in order as they are, and a stable sort keeps them so.
  have equals : (offers.filter fun o => o.fix.confidence.rank == rank).Pairwise fun a b =>
      decide (b.fix.confidence.rank ≤ a.fix.confidence.rank) = true := by
    rw [List.pairwise_filter]
    refine List.pairwise_of_forall ?_
    intro a b ha hb
    rw [beq_iff_eq] at ha hb
    rw [decide_eq_true_eq]
    omega
  have kept : (offers.filter fun o => o.fix.confidence.rank == rank).Sublist
      (byConfidence offers) := by
    refine List.sublist_mergeSort ?_ ?_ equals List.filter_sublist
    · intro a b c hab hbc
      rw [decide_eq_true_eq] at *
      omega
    · intro a b
      rw [Bool.or_eq_true, decide_eq_true_eq, decide_eq_true_eq]
      omega
  have keptFiltered := kept.filter fun o => o.fix.confidence.rank == rank
  rw [List.filter_filter] at keptFiltered
  simp only [Bool.and_self] at keptFiltered
  refine (keptFiltered.eq_of_length ?_).symm
  exact (((byConfidence_perm offers).filter _).length_eq).symm

/-- **Who goes first.**  Of two offers the one sorted out first has a higher
confidence, or the same and an earlier place. -/
theorem byConfidence_first {offers : List FixOffer}
    (places : offers.Pairwise fun a b => a.place < b.place) {a b : FixOffer}
    (first : [a, b].Sublist (byConfidence offers)) :
    b.fix.confidence.rank < a.fix.confidence.rank
      ∨ (b.fix.confidence.rank = a.fix.confidence.rank ∧ a.place < b.place) := by
  have ranked : b.fix.confidence.rank ≤ a.fix.confidence.rank :=
    List.pairwise_iff_forall_sublist.mp (byConfidence_pairwise offers) first
  by_cases tie : b.fix.confidence.rank = a.fix.confidence.rank
  · -- Equals keep their order, which is the order of their places.
    right
    have among := first.filter fun o => o.fix.confidence.rank == a.fix.confidence.rank
    simp only [List.filter_cons, tie, beq_self_eq_true, if_true, List.filter_nil] at among
    rw [byConfidence_filter] at among
    exact ⟨tie, List.pairwise_iff_forall_sublist.mp places (among.trans List.filter_sublist)⟩
  · left
    omega

/-! ## §5. The accepted offers. -/

theorem acceptedByPlace_perm (r : Resolution) : r.acceptedByPlace.Perm r.accepted :=
  List.mergeSort_perm r.accepted _

/-- The accepted offers are listed by their places, no place twice. -/
theorem acceptedByPlace_places {offers : List FixOffer}
    (places : offers.Pairwise fun a b => a.place < b.place) :
    (ofOffers offers).acceptedByPlace.Pairwise fun a b => a.place < b.place := by
  have sorted : (ofOffers offers).acceptedByPlace.Pairwise fun a b =>
      decide (a.place ≤ b.place) = true := by
    refine List.pairwise_mergeSort ?_ ?_ (ofOffers offers).accepted
    · intro a b c hab hbc
      rw [decide_eq_true_eq] at *
      omega
    · intro a b
      rw [Bool.or_eq_true, decide_eq_true_eq, decide_eq_true_eq]
      omega
  have distinct : (ofOffers offers).acceptedByPlace.Pairwise fun a b => a.place ≠ b.place := by
    have symm : ∀ {a b : FixOffer}, a.place ≠ b.place → b.place ≠ a.place := fun h => h.symm
    have made : offers.Pairwise fun a b => a.place ≠ b.place := places.imp Nat.ne_of_lt
    have ranked := (byConfidence_perm offers).symm.pairwise made symm
    have accepted := ranked.sublist (ofOffers_settles offers).inOrder
    exact (acceptedByPlace_perm _).symm.pairwise accepted symm
  refine (sorted.and distinct).imp ?_
  intro a b h
  exact Nat.lt_of_le_of_ne (of_decide_eq_true h.1) h.2

/-- The fixes of the accepted offers do not overlap. -/
theorem acceptedByPlace_apart (offers : List FixOffer) :
    Fix.Apart ((ofOffers offers).acceptedByPlace.map FixOffer.fix) := by
  have chosen : Fix.Apart ((ofOffers offers).accepted.map FixOffer.fix) := by
    unfold Fix.Apart
    rw [List.pairwise_map]
    exact (ofOffers_settles offers).apart
  exact chosen.perm ((acceptedByPlace_perm _).symm.map FixOffer.fix)

end Resolution

end StackLint

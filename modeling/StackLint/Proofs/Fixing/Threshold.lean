/-
  StackLint.Proofs.Fixing.Threshold
  ─────────────────────────────────
  **A LOWER MINIMUM DISPLACES NO SAFER FIX.**

  When the minimum of confidence is lowered, more offers take part in the
  greedy choice, and any of them may be in the way of others.  They come last,
  though: offers are sorted out by confidence, so the ones of a higher minimum
  are sorted out first and among themselves, and what is accepted after them
  changes nothing that was accepted before.
-/
import StackLint.Proofs.Fixing.Outcome

namespace StackLint

/-- The confidence of the offer is at least this one. -/
def FixOffer.reaches (minimum : Confidence) (o : FixOffer) : Bool :=
  minimum.rank ≤ o.fix.confidence.rank

/-! ## §1. Selection. -/

/-- A higher minimum selects those of the selected offers that reach it. -/
theorem selectedOffers_filter (options : FixOptions) (answers : Option Answers)
    {lower higher : Confidence} (raised : lower.rank ≤ higher.rank) (offers : List FixOffer) :
    selectedOffers { options with minConfidence := higher } answers offers
      = (selectedOffers { options with minConfidence := lower } answers offers).filter
          (FixOffer.reaches higher) := by
  unfold selectedOffers
  rw [List.filter_filter]
  refine List.filter_congr fun o _ => ?_
  unfold FixOffer.rejection? FixOffer.isTrusted FixOffer.needsConfirmation FixOffer.reaches
  by_cases reached : higher.rank ≤ o.fix.confidence.rank
  · -- Both minimums are reached, and what remains to be asked is the same.
    have both : lower.rank ≤ o.fix.confidence.rank := raised.trans reached
    simp only [reached, both, decide_true, Bool.not_true, Bool.true_and]
    rfl
  · simp only [reached, decide_false, Bool.not_false, if_true, Option.isNone_some, Bool.false_and]

/-! ## §2. The order of the choice. -/

namespace Resolution

/-- The offer is sorted out before the other one. -/
def Before (a b : FixOffer) : Prop :=
  b.fix.confidence.rank < a.fix.confidence.rank
    ∨ (b.fix.confidence.rank = a.fix.confidence.rank ∧ a.place < b.place)

theorem Before.asymm {a b : FixOffer} (first : Before a b) : ¬ Before b a := by
  unfold Before at *
  omega

/-- Offers that stand by their places are sorted out in this order. -/
theorem byConfidence_before {offers : List FixOffer}
    (places : offers.Pairwise fun a b => a.place < b.place) :
    (byConfidence offers).Pairwise Before :=
  List.pairwise_iff_forall_sublist.mpr fun first => byConfidence_first places first

/-- Lists in this order with the same members are the same. -/
theorem eq_of_before {xs ys : List FixOffer} (hx : xs.Pairwise Before) (hy : ys.Pairwise Before)
    (perm : xs.Perm ys) : xs = ys :=
  perm.eq_of_pairwise (fun _ _ _ _ first second => absurd second first.asymm) hx hy

/-- **The offers that reach a minimum go first,** as if they were alone. -/
theorem byConfidence_eq_append {offers : List FixOffer}
    (places : offers.Pairwise fun a b => a.place < b.place) (minimum : Confidence) :
    byConfidence offers
      = byConfidence (offers.filter (FixOffer.reaches minimum))
        ++ byConfidence (offers.filter fun o => !o.reaches minimum) := by
  refine eq_of_before (byConfidence_before places) ?_ ?_
  · rw [List.pairwise_append]
    refine ⟨byConfidence_before (places.filter _), byConfidence_before (places.filter _), ?_⟩
    intro a ha b hb
    have above := (List.mem_filter.mp ((byConfidence_perm _).mem_iff.mp ha)).2
    have below := (List.mem_filter.mp ((byConfidence_perm _).mem_iff.mp hb)).2
    unfold FixOffer.reaches at above below
    rw [decide_eq_true_eq] at above
    rw [Bool.not_eq_true', decide_eq_false_iff_not] at below
    left
    omega
  · have parts := List.filter_append_perm (FixOffer.reaches minimum) offers
    exact (byConfidence_perm offers).trans
      (parts.symm.trans ((byConfidence_perm _).append (byConfidence_perm _)).symm)

/-! ## §3. The choice. -/

/-- One step accepts nothing but its own offer and gives up nothing. -/
theorem add_accepted (r : Resolution) (o : FixOffer) :
    ∃ more, (r.add o).accepted = r.accepted ++ more ∧ more ⊆ [o] := by
  unfold add
  split
  · exact ⟨[o], rfl, List.Subset.refl _⟩
  · exact ⟨[], (List.append_nil _).symm, List.nil_subset _⟩

/-- **What is accepted stays accepted,** and what comes behind it are offers
sorted out later. -/
theorem foldl_accepted (r : Resolution) (later : List FixOffer) :
    ∃ more, (later.foldl add r).accepted = r.accepted ++ more ∧ more ⊆ later := by
  induction later generalizing r with
  | nil => exact ⟨[], (List.append_nil _).symm, List.nil_subset _⟩
  | cons o os ih =>
      obtain ⟨now, accepted, nowIn⟩ := add_accepted r o
      obtain ⟨more, acceptedLater, moreIn⟩ := ih (r.add o)
      refine ⟨now ++ more, ?_, ?_⟩
      · rw [List.foldl_cons, acceptedLater, accepted, List.append_assoc]
      · exact List.append_subset.mpr
          ⟨fun a ha => List.mem_cons.mpr (.inl (List.mem_singleton.mp (nowIn ha))),
            fun a ha => List.mem_cons_of_mem o (moreIn ha)⟩

/-- Of the accepted offers, the ones that reach a minimum are those accepted
among the offers that reach it. -/
theorem ofOffers_accepted_filter {offers : List FixOffer}
    (places : offers.Pairwise fun a b => a.place < b.place) (minimum : Confidence) :
    (ofOffers offers).accepted.filter (FixOffer.reaches minimum)
      = (ofOffers (offers.filter (FixOffer.reaches minimum))).accepted := by
  have run : ofOffers offers
      = (byConfidence (offers.filter fun o => !o.reaches minimum)).foldl add
          (ofOffers (offers.filter (FixOffer.reaches minimum))) := by
    show (byConfidence offers).foldl add ⟨[], []⟩ = _
    rw [byConfidence_eq_append places minimum, List.foldl_append]
    rfl
  obtain ⟨more, accepted, later⟩ := foldl_accepted
    (ofOffers (offers.filter (FixOffer.reaches minimum)))
    (byConfidence (offers.filter fun o => !o.reaches minimum))
  have firstReach : ∀ o ∈ (ofOffers (offers.filter (FixOffer.reaches minimum))).accepted,
      o.reaches minimum = true := by
    intro o ho
    have sortedOut := (ofOffers_settles _).inOrder.subset ho
    exact (List.mem_filter.mp ((byConfidence_perm _).mem_iff.mp sortedOut)).2
  have moreMiss : ∀ o ∈ more, ¬ o.reaches minimum = true := by
    intro o ho
    have miss := (List.mem_filter.mp ((byConfidence_perm _).mem_iff.mp (later ho))).2
    rw [Bool.not_eq_true'] at miss
    rw [miss]
    exact Bool.false_ne_true
  rw [run, accepted, List.filter_append, List.filter_eq_self.mpr firstReach,
    List.filter_eq_nil_iff.mpr moreMiss, List.append_nil]

/-- The same of the accepted offers by their places. -/
theorem acceptedByPlace_filter {offers : List FixOffer}
    (places : offers.Pairwise fun a b => a.place < b.place) (minimum : Confidence) :
    (ofOffers offers).acceptedByPlace.filter (FixOffer.reaches minimum)
      = (ofOffers (offers.filter (FixOffer.reaches minimum))).acceptedByPlace := by
  have asymm : ∀ a b : FixOffer, a.place < b.place → b.place < a.place → a = b :=
    fun _ _ first second => absurd second (Nat.lt_asymm first)
  have all := (acceptedByPlace_perm (ofOffers offers)).filter (FixOffer.reaches minimum)
  rw [ofOffers_accepted_filter places] at all
  exact List.Perm.eq_of_pairwise (fun a b _ _ => asymm a b)
    ((acceptedByPlace_places places).filter _) (acceptedByPlace_places (places.filter _))
    (all.trans (acceptedByPlace_perm _).symm)

end Resolution

/-! ## §4. Sessions. -/

/-- What a session of fixing applies, if it returns no error and a function answers. -/
theorem Session.fix_applied {options : FixOptions} {mayApply : Option (Violation → Bool)}
    {s : Source} {violations : List Violation} {w w' : Workspace} {r : FixResult}
    (done : outcome (fix options (mayApply.map Confirm.ofFunction) s violations) w = (.ok r, w'))
    (noError : r.failure = none) :
    r.applied = (resolved options (mayApply.map fun mayApply o => mayApply o.violation)
      violations).acceptedByPlace := by
  obtain ⟨answers, asked, dryNoError, written, rfl⟩ := fix_ok done noError
  have selected : selectedOffers options answers (FixOffer.ofViolations violations)
      = selectedOffers options (mayApply.map fun mayApply o => mayApply o.violation)
          (FixOffer.ofViolations violations) :=
    List.filter_congr fun o offered => by rw [FixOffer.rejection?_ofFunction asked offered]
  show (dryRun options answers s violations).applied = _
  rw [dryRun_of_noError dryNoError, FixResult.ofAccepted_applied]
  unfold resolved
  rw [selected]

/-- **Lowering the minimum never displaces a safer fix.**  Of two sessions on
the same source, violations and options but for the minimum of confidence, the
one with the higher minimum applies exactly those fixes of the other one that
reach it, in the same order.  The workspaces and the answers may be any; the
answers are those of one function. -/
theorem Session.fix_applied_of_raised (options : FixOptions) (lower higher : Confidence)
    (raised : lower.rank ≤ higher.rank) (mayApply : Option (Violation → Bool)) (s : Source)
    (violations : List Violation) (v v' w w' : Workspace) (cautious bold : FixResult)
    (cautiousDone : outcome (fix { options with minConfidence := higher }
      (mayApply.map Confirm.ofFunction) s violations) v = (.ok cautious, v'))
    (boldDone : outcome (fix { options with minConfidence := lower }
      (mayApply.map Confirm.ofFunction) s violations) w = (.ok bold, w'))
    (cautiousNoError : cautious.failure = none) (boldNoError : bold.failure = none) :
    cautious.applied
      = bold.applied.filter fun o => decide (higher.rank ≤ o.fix.confidence.rank) := by
  have places := selectedOffers_places { options with minConfidence := lower }
    (mayApply.map fun mayApply o => mayApply o.violation) violations
  rw [fix_applied cautiousDone cautiousNoError, fix_applied boldDone boldNoError]
  unfold resolved
  rw [selectedOffers_filter options _ raised]
  exact (Resolution.acceptedByPlace_filter places higher).symm

/-- A confident replacement of `cd`, one of `bc` and one of `d` that it is in the
way of, and an insertion in front. -/
def contested : List Violation :=
  [crossOut 1 3 .medium (by decide), crossOut 2 4 .high (by decide),
    crossOut 0 0 .low (by decide), crossOut 3 4 .low (by decide)]

/-- The lower minimum brings in the insertion, and nothing that displaces the
replacement. -/
theorem Session.fix_applied_of_raised_abcd :
    let cautious := dryRun ⟨false, .high, false⟩ none abcd contested
    let bold := dryRun ⟨false, .low, false⟩ none abcd contested
    bold.applied.map FixOffer.place = [1, 2] ∧ cautious.applied.map FixOffer.place = [1]
      ∧ cautious.applied
        = bold.applied.filter fun o => decide (Confidence.high.rank ≤ o.fix.confidence.rank) := by
  refine ⟨by cbv, by cbv, ?_⟩
  exact Session.fix_applied_of_raised ⟨false, .medium, false⟩ .low .high (by decide) none abcd
    contested ⟨.empty [], []⟩ _ ⟨.empty [], []⟩ _ _ _ (Prod.ext (by cbv) rfl)
    (Prod.ext (by cbv) rfl) (by cbv) (by cbv)

end StackLint

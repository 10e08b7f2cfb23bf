/-
  StackLint.Proofs.Fixing.Outcome
  ───────────────────────────────
  **WHAT FIXING RETURNS.**

  A result without an error settles every offer: it is applied or skipped, and
  the text of the result is the source with the applied fixes substituted, no
  two of which overlap.
-/
import StackLint.Proofs.Fixing.Selection
import StackLint.Proofs.Workspace.Session

namespace StackLint

/-! ## §1. Settled results. -/

/-- **A result settles the offers of the violations.**  Every violation with a
fix is listed once, applied or skipped, and nothing else is; the applied fixes
stand in the order of their violations and do not overlap; what is skipped for
a conflict overlaps an applied fix that goes before it; and the text is the
given one with the applied fixes substituted. -/
structure FixResult.Settles (r : FixResult) (violations : List Violation) (text : Text) :
    Prop where
  accounted : ∀ o : FixOffer, (r.applied ++ r.skipped.map SkippedFix.offer).count o
    = if violations[o.place]? = some o.violation ∧ o.violation.fix = some o.fix then 1 else 0
  inOrder : r.applied.Pairwise fun a b => a.place < b.place
  apart : Fix.Apart (r.applied.map FixOffer.fix)
  outranked : ∀ k ∈ r.skipped, k.reason.isConflict = true →
    ∃ a ∈ r.applied, k.offer.fix.overlaps a.fix = true
      ∧ (k.offer.fix.confidence.rank < a.fix.confidence.rank
        ∨ (k.offer.fix.confidence.rank = a.fix.confidence.rank ∧ a.place < k.offer.place))
  counted : r.fixCount = r.applied.length
  substituted : r.fixedText = if r.applied = [] then none
    else some (Fix.substitution (r.applied.map FixOffer.fix) text)

/-! ## §2. Dry runs. -/

/-- The selected offers, sorted out. -/
def resolved (options : FixOptions) (answers : Option Answers) (violations : List Violation) :
    Resolution :=
  .ofOffers (selectedOffers options answers (FixOffer.ofViolations violations))

/-- A dry run fails exactly when the fix of a selected offer does not match
the text. -/
theorem dryRun_failure_eq_none {options : FixOptions} {answers : Option Answers} {s : Source}
    {violations : List Violation} :
    (dryRun options answers s violations).failure = none
      ↔ ∀ o ∈ selectedOffers options answers (FixOffer.ofViolations violations),
          o.fix.mismatch? s.text = none := by
  rw [← List.findSome?_eq_none_iff]
  unfold dryRun
  simp only
  cases h : (selectedOffers options answers (FixOffer.ofViolations violations)).findSome?
      fun o => o.fix.mismatch? s.text with
  | some failure => simp only [FixResult.unfixed, reduceCtorEq]
  | none =>
      simp only [iff_true]
      unfold FixResult.ofAccepted
      split <;> rfl

/-- What a dry run without an error returns. -/
theorem dryRun_of_noError {options : FixOptions} {answers : Option Answers} {s : Source}
    {violations : List Violation} (noError : (dryRun options answers s violations).failure = none) :
    dryRun options answers s violations
      = .ofAccepted s.text (resolved options answers violations).acceptedByPlace
          (rejectedOffers options answers (FixOffer.ofViolations violations)
            ++ (resolved options answers violations).skipped) := by
  have match_ := List.findSome?_eq_none_iff.mpr (dryRun_failure_eq_none.mp noError)
  unfold dryRun
  simp only [match_]
  rfl

/-- The lists of a result are the ones that it is made of. -/
theorem FixResult.ofAccepted_applied (text : Text) (accepted : List FixOffer)
    (skipped : List SkippedFix) : (FixResult.ofAccepted text accepted skipped).applied = accepted := by
  unfold FixResult.ofAccepted
  split
  · next empty => exact (List.isEmpty_iff.mp empty).symm
  · rfl

theorem FixResult.ofAccepted_skipped (text : Text) (accepted : List FixOffer)
    (skipped : List SkippedFix) : (FixResult.ofAccepted text accepted skipped).skipped = skipped := by
  unfold FixResult.ofAccepted
  split <;> rfl

theorem FixResult.ofAccepted_fixCount (text : Text) (accepted : List FixOffer)
    (skipped : List SkippedFix) :
    (FixResult.ofAccepted text accepted skipped).fixCount = accepted.length := by
  unfold FixResult.ofAccepted
  split
  · next empty =>
      rw [List.isEmpty_iff.mp empty]
      rfl
  · rfl

theorem FixResult.ofAccepted_fixedText (text : Text) (accepted : List FixOffer)
    (skipped : List SkippedFix) :
    (FixResult.ofAccepted text accepted skipped).fixedText
      = if accepted = [] then none else some (Fix.applyAll (accepted.map FixOffer.fix) text) := by
  unfold FixResult.ofAccepted
  by_cases empty : accepted = []
  · rw [if_pos empty, if_pos (List.isEmpty_iff.mpr empty)]
    rfl
  · rw [if_neg empty, if_neg (fun h => empty (List.isEmpty_iff.mp h))]

section
variable {options : FixOptions} {answers : Option Answers} {s : Source}
  {violations : List Violation}

/-- Selected offers are made in the order of their places. -/
theorem selectedOffers_places (options : FixOptions) (answers : Option Answers)
    (violations : List Violation) :
    (selectedOffers options answers (FixOffer.ofViolations violations)).Pairwise
      fun a b => a.place < b.place :=
  (FixOffer.ofViolations_places violations).filter _

/-- Accepted, skipped and rejected offers are all there are. -/
theorem resolved_complete (options : FixOptions) (answers : Option Answers)
    (violations : List Violation) :
    ((resolved options answers violations).acceptedByPlace
      ++ (rejectedOffers options answers (FixOffer.ofViolations violations)
          ++ (resolved options answers violations).skipped).map SkippedFix.offer).Perm
      (FixOffer.ofViolations violations) := by
  have settled := Resolution.ofOffers_settles
    (selectedOffers options answers (FixOffer.ofViolations violations))
  have sortedOut : (resolved options answers violations).offers.Perm
      (selectedOffers options answers (FixOffer.ofViolations violations)) :=
    settled.complete.trans (Resolution.byConfidence_perm _)
  have byPlace := Resolution.acceptedByPlace_perm (resolved options answers violations)
  have all := selected_append_rejected options answers (FixOffer.ofViolations violations)
  -- Rejected and skipped offers change places, and the accepted ones are sorted.
  refine List.Perm.trans ?_ all
  refine List.Perm.trans ?_ (sortedOut.append_right _)
  unfold Resolution.offers
  rw [List.map_append, List.append_assoc]
  exact byPlace.append List.perm_append_comm

/-- What is skipped for a conflict gives way to an accepted offer. -/
theorem resolved_outranked {k : SkippedFix}
    (skipped : k ∈ rejectedOffers options answers (FixOffer.ofViolations violations)
      ++ (resolved options answers violations).skipped)
    (conflict : k.reason.isConflict = true) :
    ∃ a ∈ (resolved options answers violations).acceptedByPlace,
      k.offer.fix.overlaps a.fix = true
        ∧ (k.offer.fix.confidence.rank < a.fix.confidence.rank
          ∨ (k.offer.fix.confidence.rank = a.fix.confidence.rank ∧ a.place < k.offer.place)) := by
  rcases List.mem_append.mp skipped with rejected | skipped
  · -- a rejected offer has another reason
    obtain ⟨o, _, why⟩ := List.mem_filterMap.mp rejected
    obtain ⟨reason, rejection, rfl⟩ := Option.map_eq_some_iff.mp why
    rw [FixOffer.rejection_not_conflict rejection] at conflict
    cases conflict
  · have settled := Resolution.ofOffers_settles
      (selectedOffers options answers (FixOffer.ofViolations violations))
    obtain ⟨a, accepted, inTheWay, before⟩ := settled.outranked k skipped
    refine ⟨a, (Resolution.acceptedByPlace_perm _).mem_iff.mpr accepted, ?_, ?_⟩
    · rw [← FixOffer.conflictWith?_isSome, inTheWay]
      rfl
    · exact Resolution.byConfidence_first (selectedOffers_places options answers violations) before

/-- The fixes of accepted offers lie in the text. -/
theorem resolved_inside (noError : (dryRun options answers s violations).failure = none) :
    ∀ f ∈ (resolved options answers violations).acceptedByPlace.map FixOffer.fix,
      f.stop ≤ s.text.length := by
  intro f hf
  obtain ⟨o, accepted, rfl⟩ := List.mem_map.mp hf
  have settled := Resolution.ofOffers_settles
    (selectedOffers options answers (FixOffer.ofViolations violations))
  have ranked := settled.inOrder.subset
    ((Resolution.acceptedByPlace_perm _).mem_iff.mp accepted)
  have selected := (Resolution.byConfidence_perm _).mem_iff.mp ranked
  have matched := dryRun_failure_eq_none.mp noError o selected
  unfold Fix.mismatch? at matched
  split at matched
  · cases matched
  · omega

/-- A dry run without an error settles the offers. -/
theorem dryRun_settles (noError : (dryRun options answers s violations).failure = none) :
    (dryRun options answers s violations).Settles violations s.text := by
  have places := selectedOffers_places options answers violations
  have apart : Fix.Apart
      ((resolved options answers violations).acceptedByPlace.map FixOffer.fix) :=
    Resolution.acceptedByPlace_apart _
  rw [dryRun_of_noError noError]
  constructor
  case accounted =>
    intro o
    rw [FixResult.ofAccepted_applied, FixResult.ofAccepted_skipped,
      (resolved_complete options answers violations).count_eq]
    exact FixOffer.count_ofViolations violations o
  case inOrder =>
    rw [FixResult.ofAccepted_applied]
    exact Resolution.acceptedByPlace_places places
  case apart =>
    rw [FixResult.ofAccepted_applied]
    exact apart
  case outranked =>
    intro k skipped conflict
    rw [FixResult.ofAccepted_skipped] at skipped
    rw [FixResult.ofAccepted_applied]
    exact resolved_outranked skipped conflict
  case counted =>
    rw [FixResult.ofAccepted_applied, FixResult.ofAccepted_fixCount]
  case substituted =>
    rw [FixResult.ofAccepted_applied, FixResult.ofAccepted_fixedText,
      Fix.Apart.applyAll_eq apart (resolved_inside noError)]

end

/-! ## §3. Sessions. -/

/-- **Fixing a source settles every offer,** whatever the options, the answers
and the workspace, if it ends with a result that has no error. -/
theorem Session.fix_settles (options : FixOptions) (confirm : Option Confirm) (s : Source)
    (violations : List Violation) (w w' : Workspace) (r : FixResult)
    (done : outcome (fix options confirm s violations) w = (.ok r, w'))
    (noError : r.failure = none) : r.Settles violations s.text := by
  -- Whether the file was written is the one thing that the dry run does not know.
  obtain ⟨_, _, dryNoError, written, rfl⟩ := fix_ok done noError
  have settled := dryRun_settles dryNoError
  exact ⟨settled.accounted, settled.inOrder, settled.apart, settled.outranked, settled.counted,
    settled.substituted⟩

/-- A source that holds the text `abcd`. -/
def abcd : Source where
  path := ⟨.here, []⟩
  text := "abcd"
  tree := .mk default (.program [])
  complaints := []

/-- A violation whose fix puts an `x` in the place of a range of `abcd`. -/
def crossOut (start stop : Nat) (confidence : Confidence) (h : start ≤ stop) : Violation where
  code := "V"
  severity := .warning
  category := .corsConfig
  resource := []
  property := []
  message := []
  line := 1
  column := 1
  fix := some {
    oldCode := abcd.text.slice start stop
    newCode := "x"
    confidence, start, stop
    description := []
    start_le_stop := h }
  relatedCodes := []
  docsUrl := none

/-- A replacement of `bc`, a more confident one of `cd`, and an insertion in
front: the second and the third are applied. -/
theorem Session.fix_settles_abcd :
    let violations := [crossOut 1 3 .medium (by decide), crossOut 2 4 .high (by decide),
      crossOut 0 0 .low (by decide)]
    let r := dryRun ⟨false, .low, false⟩ none abcd violations
    let done := outcome (fix ⟨false, .low, false⟩ none abcd violations) ⟨.empty [], []⟩
    done = (.ok r, done.2) ∧ r.failure = none ∧ r.fixedText = some (Text.ofString "xabx")
      ∧ r.Settles violations abcd.text := by
  refine ⟨by cbv, by cbv, by cbv, ?_⟩
  exact Session.fix_settles ⟨false, .low, false⟩ none abcd _ ⟨.empty [], []⟩ _ _
    (Prod.ext (by cbv) rfl) (by cbv)

end StackLint

/-
  StackLint.Fixing.Run
  ────────────────────
  **APPLYING FIXES TO A SOURCE.**

  Fixes are applied from the end of the text to its beginning, so that the
  offsets of those still to come stay valid.  Of two fixes that begin at one
  offset the wider one goes first, so an insertion lands in front of a
  replacement.

  A dry run: offers are rejected or selected, the selected ones are checked
  against the text of the source, and what remains after overlaps are sorted
  out is spliced into it.
-/
import StackLint.Detector
import StackLint.Fixing.Selection

namespace StackLint

/-! ## §1. Splicing. -/

namespace Fix

/-- The order in which fixes are applied: later ranges first, and of two that
begin at one offset the wider one.  Equal ranges count as in order. -/
def appliesBefore (f g : Fix) : Bool :=
  g.start < f.start || (g.start == f.start && g.stop ≤ f.stop)

/-- The text with all fixes applied. -/
def applyAll (fixes : List Fix) (content : Text) : Text :=
  (fixes.mergeSort appliesBefore).foldl (fun text fix => fix.apply text) content

end Fix

/-! ## §2. Checking fixes. -/

/-- The reason why a fix does not match a text, if it does not. -/
def Fix.mismatch? (f : Fix) (text : Text) : Option FixFailure :=
  if text.length < f.stop then some (.outOfRange f.start f.stop text.length)
  else if text.slice f.start f.stop ≠ f.oldCode then some (.stale f.start f.stop f.oldCode)
  else none

/-! ## §3. Dry runs. -/

/-- The result of applying accepted offers to a text. -/
def FixResult.ofAccepted (text : Text) (accepted : List FixOffer) (skipped : List SkippedFix) :
    FixResult :=
  if accepted.isEmpty then .unfixed skipped none
  else {
    written := false
    fixedText := some (Fix.applyAll (accepted.map FixOffer.fix) text)
    fixCount := accepted.length
    applied := accepted
    skipped := skipped
    failure := none }

/-- Applies the fixes of the violations to the text of the source, without
writing it anywhere. -/
def dryRun (options : FixOptions) (answers : Option Answers) (s : Source)
    (violations : List Violation) : FixResult :=
  let offers := FixOffer.ofViolations violations
  let rejected := rejectedOffers options answers offers
  let selected := selectedOffers options answers offers
  match selected.findSome? fun o => o.fix.mismatch? s.text with
  | some failure => .unfixed rejected (some failure)
  | none =>
      let resolution := Resolution.ofOffers selected
      .ofAccepted s.text resolution.acceptedByPlace (rejected ++ resolution.skipped)

/-! ## §4. Rounds. -/

/-- One round of detecting violations and fixing them. -/
structure FixRound where
  source : Source
  violations : List Violation
  result : FixResult

/-- The text to go on with after a round, if the round changed it. -/
def FixRound.next? (round : FixRound) : Option Text :=
  round.result.fixedText.filter fun text => text ≠ round.source.text

/-- Detects and fixes a text over and over, until a round changes nothing or
no round is left. -/
def fixRounds (d : Detector) (options : FixOptions) (path : Path) :
    (rounds : Nat) → Text → Check (List FixRound)
  | 0, _ => .ok []
  | rounds + 1, text => do
      let source ← (Source.ofText path text).mapError .scan
      let detection ← d.detect source
      let round : FixRound :=
        ⟨source, detection.violations, dryRun options none source detection.violations⟩
      match round.next? with
      | none => return [round]
      | some text => return round :: (← fixRounds d options path rounds text)

end StackLint

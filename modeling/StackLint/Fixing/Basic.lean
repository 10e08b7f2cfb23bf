/-
  StackLint.Fixing.Basic
  ──────────────────────
  **OFFERS OF FIXES AND WHAT BECOMES OF THEM.**

  Every violation that carries a fix offers it.  An offer is either applied or
  skipped for a reason; when a fix does not match the text it is meant for,
  none is applied.
-/
import StackLint.Files.Replace
import StackLint.Settings.Basic

namespace StackLint

/-! ## §1. Options. -/

/-- How fixes are applied. -/
structure FixOptions where
  /-- The result is written to the file. -/
  apply : Bool
  /-- The least confidence of the fixes that are applied. -/
  minConfidence : Confidence
  /-- Somebody is asked about every fix that is not of high confidence. -/
  interactive : Bool
  deriving DecidableEq, Repr

namespace FixOptions

/-- A dry run for fixes of high confidence. -/
def standard : FixOptions where
  apply := false
  minConfidence := .high
  interactive := false

/-- The options of a project. -/
def ofSettings (s : Settings) (apply : Bool) : FixOptions where
  apply := apply
  minConfidence := s.minFixConfidence
  interactive := false

/-- The options when none are given, for a project that may have settings. -/
def ofSettings? : Option Settings → FixOptions
  | none => standard
  | some s => ofSettings s false

end FixOptions

/-! ## §2. Offers. -/

/-- The fix of a violation, offered for application. -/
structure FixOffer where
  /-- The place of the violation in the list that it comes from. -/
  place : Nat
  violation : Violation
  fix : Fix
  deriving DecidableEq, Repr

namespace FixOffer

/-- The code of the violation. -/
def code (o : FixOffer) : Text := o.violation.code

/-- The offers that the violations make, in their order. -/
def ofViolations (violations : List Violation) : List FixOffer :=
  violations.zipIdx.filterMap fun (violation, place) =>
    violation.fix.map fun fix => { place, violation, fix }

end FixOffer

/-- The answers of somebody who was asked which offers may be applied. -/
abbrev Answers := FixOffer → Bool

/-- Why an offer is skipped. -/
inductive SkipReason where
  /-- The fix is not trusted enough. -/
  | belowMinimum (confidence minimum : Confidence)
  /-- The fix needs a confirmation, and there is nobody to ask. -/
  | unconfirmed (confidence : Confidence)
  | declined
  /-- An applied fix with this code makes the very same change. -/
  | duplicate (code : Text)
  /-- An applied fix with this code changes the same text. -/
  | overlap (code : Text)
  deriving DecidableEq, Repr

/-- The reason in words. -/
def SkipReason.message : SkipReason → Text
  | .belowMinimum confidence minimum =>
      s!"Confidence level {confidence.name} below minimum {minimum.name}"
  | .unconfirmed confidence => s!"{confidence.title} confidence - requires user confirmation"
  | .declined => "Declined by user"
  | .duplicate code => "Duplicate of fix for " ++ code
  | .overlap code => "Overlaps with fix for " ++ code

/-- An offer that is skipped, and why. -/
structure SkippedFix where
  offer : FixOffer
  reason : SkipReason
  deriving DecidableEq, Repr

/-! ## §3. Results. -/

/-- Why no fix is applied. -/
inductive FixFailure where
  /-- A range reaches past the end of the text. -/
  | outOfRange (start stop length : Nat)
  /-- The text in a range is not the one that the fix is meant for. -/
  | stale (start stop : Nat) (expected : Text)
  /-- The file no longer holds the text that was checked. -/
  | changedMeanwhile
  /-- The file cannot be read to be fixed. -/
  | unreadable (path : Path) (failure : ReadFailure)
  /-- The file cannot be opened to be written. -/
  | unwritable (path : Path) (error : FileError)
  /-- The file cannot be replaced. -/
  | notReplaced (failure : ReplaceFailure)
  deriving DecidableEq, Repr

/-- The failure in words. -/
def FixFailure.message : FixFailure → Text
  | .outOfRange start stop length =>
      s!"Fix range [{start}, {stop}) outside source of length {length}"
  | .stale start stop expected =>
      Text.ofString s!"Source changed at [{start}, {stop}): expected " ++ expected.quoted
  | .changedMeanwhile => "file changed on disk since it was parsed"
  | .unreadable path failure => path.text ++ ": " ++ failure.message
  | .unwritable path error => error.report path
  | .notReplaced failure => failure.message

/-- What comes of applying fixes. -/
structure FixResult where
  /-- The file was overwritten. -/
  written : Bool
  /-- The text with the fixes, if there are any to apply. -/
  fixedText : Option Text
  /-- How many fixes there are in that text. -/
  fixCount : Nat
  applied : List FixOffer
  skipped : List SkippedFix
  failure : Option FixFailure
  deriving DecidableEq, Repr

namespace FixResult

/-- The result when no fix is applied. -/
def unfixed (skipped : List SkippedFix) (failure : Option FixFailure) : FixResult where
  written := false
  fixedText := none
  fixCount := 0
  applied := []
  skipped := skipped
  failure := failure

/-- Whether something went wrong. -/
def hasError (r : FixResult) : Bool :=
  r.failure.isSome

end FixResult

end StackLint

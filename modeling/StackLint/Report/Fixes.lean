/-
  StackLint.Report.Fixes
  ──────────────────────
  **REPORTS OF FIXES.**

  What became of the fixes, in words: which were applied or would be, which
  were not and why, and what went wrong.
-/
import StackLint.Fixing.Basic
import StackLint.Report.Style

namespace StackLint

/-- A fix as a report shows it. -/
structure FixNote where
  code : Text
  fix : Fix
  deriving DecidableEq, Repr

/-- What a report says about fixes. -/
structure FixReport where
  /-- The file was overwritten. -/
  written : Bool
  applied : List FixNote
  /-- The fixes that are not applied, with the reasons. -/
  skipped : List (FixNote × Text)
  error : Option Text
  deriving DecidableEq, Repr

/-- The report of a result. -/
def FixResult.report (r : FixResult) : FixReport where
  written := r.written
  applied := r.applied.map fun o => ⟨o.code, o.fix⟩
  skipped := r.skipped.map fun s => (⟨s.offer.code, s.offer.fix⟩, s.reason.message)
  error := r.failure.map FixFailure.message

namespace FixReport

/-- The line that names a fix. -/
def title (note : FixNote) : Text :=
  "  " ++ note.code ++ ": " ++ note.fix.description ++ "\n"

/-- What went wrong, if something did. -/
def errorText (c : Colouring) : Option Text → Text
  | none | some [] => []
  | some error => c.paint .red ("\n❌ Fixes not applied: " ++ error ++ "\n")

/-- A fix that is applied. -/
def appliedNote (c : Colouring) (note : FixNote) : Text :=
  title note ++ c.paint .red ("    - " ++ note.fix.oldCode ++ "\n")
    ++ c.paint .green ("    + " ++ note.fix.newCode ++ "\n\n")

/-- A fix that is not applied. -/
def skippedNote (note : FixNote) (reason : Text) : Text :=
  title note ++ "    Reason: " ++ reason ++ "\n\n"

/-- The fixes that are applied, or would be. -/
def appliedText (c : Colouring) (written : Bool) (notes : List FixNote) : Text :=
  if notes.isEmpty then []
  else
    let verb := if written then "Applied" else "Would apply"
    c.paint .green s!"\n✅ {verb} {notes.length} fix(es):\n\n"
      ++ notes.flatMap (appliedNote c)

/-- The fixes that are not applied, and why. -/
def skippedText (c : Colouring) (notes : List (FixNote × Text)) : Text :=
  if notes.isEmpty then []
  else
    c.paint .yellow s!"\n⏭️  Skipped {notes.length} fix(es):\n\n"
      ++ notes.flatMap fun (note, reason) => skippedNote note reason

/-- There is nothing to say. -/
def isEmpty (r : FixReport) : Bool :=
  r.applied.isEmpty && r.skipped.isEmpty && r.error.getD [] == []

/-- The report as text. -/
def render (c : Colouring) (r : FixReport) : Text :=
  if r.isEmpty then "\nNo fixes available.\n"
  else errorText c r.error ++ appliedText c r.written r.applied ++ skippedText c r.skipped

end FixReport

end StackLint

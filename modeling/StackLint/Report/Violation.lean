/-
  StackLint.Report.Violation
  ──────────────────────────
  **REPORTS OF VIOLATIONS.**

  One violation with its fix and where to read on, lists of violations with
  the errors in front of the warnings, and the same by category or with the
  explanations of the catalog.
-/
import StackLint.Detection
import StackLint.Report.Style

namespace StackLint

/-- The mark that shows a level of confidence. -/
def Confidence.marker : Confidence → String
  | .high => "🟢"
  | .medium => "🟡"
  | .low => "🔴"

namespace Report

/-! ## §1. One violation. -/

/-- The lines that show a fix. -/
def fixLines (c : Colouring) (fix : Fix) : List Text :=
  [[],
   c.paint .cyan
    s!"  {fix.confidence.marker} Suggested Fix ({fix.confidence.name} confidence):",
   c.paint .red ("    - " ++ fix.oldCode),
   c.paint .green ("    + " ++ fix.newCode)]

/-- The lines that say where to read about a violation, if there is a place. -/
def docsLines (c : Colouring) : Option Text → List Text
  | none | some [] => []
  | some url => [[], c.paint .dim ("  📚 Docs: " ++ url)]

/-- The line with the related codes, if there are any. -/
def relatedLines (c : Colouring) : List Text → List Text
  | [] => []
  | codes => [c.paint .dim ("  🔗 Related: " ++ Text.join ", " codes)]

/-- One violation. -/
def violation (c : Colouring) (v : Violation) : Text :=
  let heading :=
    c.paint .bold ("  [" ++ v.code ++ "] " ++ v.resource)
      ++ c.paint .dim s!" (line {v.line}:{v.column})"
  let fix := (v.fix.map (fixLines c)).getD []
  let lines := [[], heading, "  " ++ v.message] ++ fix ++ docsLines c v.docsUrl
    ++ relatedLines c v.relatedCodes
  Text.join "\n" lines ++ "\n"

/-! ## §2. Lists of violations. -/

/-- Violations under a heading, nothing when there are none. -/
def violationSection (c : Colouring) (style : Style) (heading : String)
    (violations : List Violation) : Text :=
  if violations.isEmpty then []
  else
    c.paint style s!"\n{heading} ({violations.length}):\n" ++ violations.flatMap (violation c)

/-- Violations, the errors before the warnings. -/
def violations (c : Colouring) (vs : List Violation) : Text :=
  violationSection c .boldRed "❌ SST Pattern Errors" (vs.filter fun v => v.severity = .error)
    ++ violationSection c .boldYellow "⚠️  SST Pattern Warnings"
        (vs.filter fun v => v.severity = .warning)

/-- The line below the heading of a category. -/
def categoryRuler : Text :=
  List.replicate 70 '─'

/-- Violations by category. -/
def byCategory (c : Colouring) (groups : List (Category × List Violation)) : Text :=
  groups.flatMap fun (category, vs) =>
    c.paint .boldCyan s!"\n\n{category.title} ({vs.length}):\n"
      ++ c.paint .dim categoryRuler ++ "\n" ++ violations c vs

/-! ## §3. Explanations. -/

/-- A piece of code under a heading, nothing when it is empty. -/
def example? (c : Colouring) (style : Style) (heading : String) (code : Text) : Text :=
  if code.isEmpty then []
  else
    c.paint style s!"\n  {heading}:\n"
      ++ Text.join "\n" (code.lines.map fun line => c.paint .dim ("    " ++ line)) ++ "\n"

/-- What the catalog says about a code. -/
def explanation (c : Colouring) (entry : CatalogEntry) : Text :=
  c.paint .dim "\n  ═══ Error Details ═══\n"
    ++ c.paint .dim ("  " ++ entry.description ++ "\n")
    ++ c.paint .dim ("\n  Root Cause: " ++ entry.rootCause ++ "\n")
    ++ example? c .red "❌ Incorrect" entry.badExample
    ++ example? c .green "✅ Correct" entry.goodExample

/-- One violation and what the catalog says about its code. -/
def explained (c : Colouring) (v : Violation) : Text :=
  violation c v ++ ((Catalog.find? v.code).map (explanation c)).getD []

end Report

end StackLint

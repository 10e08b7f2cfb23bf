/-
  StackLint.Report.Summary
  ────────────────────────
  **REPORTS OF DETECTIONS.**

  The figures of a detection on a page or on one line, and whole reports: the
  violations and the page after them.
-/
import StackLint.Number.Binary64
import StackLint.Report.Violation

namespace StackLint

namespace Report

/-! ## §1. Summaries. -/

/-- The line above and below the heading of a summary. -/
def summaryRuler : Text :=
  List.replicate 70 '═'

/-- One figure of the summary. -/
def figure (c : Colouring) (style : Style) (label : String) (count : Nat) : Text :=
  "  " ++ c.paint style label ++ s!": {count}"

/-- The figures of a detection that took the given milliseconds. -/
def summary (c : Colouring) (d : Detection) (elapsed : Binary64) : Text :=
  let failed : List Text :=
    if d.failures.isEmpty then []
    else
      ["  " ++ c.paint .red ("Rules failed: " ++ Text.join ", " (d.failures.map Prod.fst))]
  let duration := "Duration: " ++ elapsed.wholeText ++ "ms"
  let lines : List Text :=
    [[],
     c.paint .bold summaryRuler,
     c.paint .bold "  SST Pattern Detection Summary",
     c.paint .bold summaryRuler,
     [],
     s!"  Total Issues: {d.violations.length}",
     figure c .red "Errors" d.errorCount,
     figure c .yellow "Warnings" d.warningCount,
     figure c .green "Auto-fixable" d.autoFixableCount,
     "  " ++ c.paint .dim duration]
  Text.join "\n" (lines ++ failed) ++ "\n"

/-- A count of things with one name. -/
def counted (count : Nat) (word : String) : Text :=
  if count = 1 then s!"{count} {word}" else s!"{count} {word}s"

/-- The figures of a detection on one line. -/
def quick (c : Colouring) (d : Detection) : Text :=
  if d.violations.isEmpty then c.paint .green "✅ No pattern issues detected"
  else
    let part (style : Style) (count : Nat) (word : String) : List Text :=
      if count = 0 then [] else [c.paint style (counted count word)]
    let fixable : Text :=
      if d.autoFixableCount = 0 then []
      else c.paint .dim s!" ({d.autoFixableCount} auto-fixable)"
    "⚠️  "
      ++ Text.join ", " (part .red d.errorCount "error" ++ part .yellow d.warningCount "warning")
      ++ fixable

/-! ## §2. Whole reports. -/

/-- How the violations of a report are shown. -/
inductive Layout where
  /-- The errors before the warnings. -/
  | bySeverity
  | byCategory
  /-- One by one, with the explanations of the catalog. -/
  | explained
  deriving DecidableEq, Repr

/-- The report of a detection that took the given milliseconds. -/
def full (c : Colouring) (layout : Layout) (d : Detection) (elapsed : Binary64) : Text :=
  let shown :=
    match layout with
    | .bySeverity => violations c d.violations
    | .byCategory => byCategory c d.byCategory
    | .explained => d.violations.flatMap (explained c)
  shown ++ summary c d elapsed

/-- The report for people who look at a detection once, of no duration. -/
def display (d : Detection) : Text :=
  if d.violations.isEmpty then quick .plain d
  else full .plain .bySeverity d .zero

end Report

end StackLint

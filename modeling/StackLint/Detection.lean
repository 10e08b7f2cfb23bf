/-
  StackLint.Detection
  ───────────────────
  **RESULTS OF A DETECTION.**

  What came of running rules on a source: the violations in the order of the
  rules, how many rules ran and how many did not, and which ones failed.
-/
import StackLint.Rule.Basic

namespace StackLint

/-- The result of running rules on a source. -/
structure Detection where
  violations : List Violation
  rulesExecuted : Nat
  rulesSkipped : Nat
  /-- The ids of the rules that failed, with the reasons. -/
  failures : List (Text × RuleFailure)

/-- Violations by category, in the order in which the categories first
appear.  The order within a category is kept. -/
def groupByCategory (violations : List Violation) : List (Category × List Violation) :=
  (violations.map Violation.category).eraseDups.map fun category =>
    (category, violations.filter fun v => v.category = category)

namespace Detection

/-- How many violations are errors. -/
def errorCount (d : Detection) : Nat :=
  d.violations.countP fun v => v.severity == .error

/-- How many violations are warnings. -/
def warningCount (d : Detection) : Nat :=
  d.violations.countP fun v => v.severity == .warning

/-- How many violations carry a fix that is safe to apply unseen. -/
def autoFixableCount (d : Detection) : Nat :=
  d.violations.countP Violation.isAutoFixable

/-- Whether there is an error among the violations. -/
def hasErrors (d : Detection) : Bool :=
  d.errorCount > 0

/-- Whether a rule failed. -/
def hasFailures (d : Detection) : Bool :=
  !d.failures.isEmpty

/-- The violations by category. -/
def byCategory (d : Detection) : List (Category × List Violation) :=
  groupByCategory d.violations

/-- How many violations there are of each code, in the order in which the
codes first appear. -/
def counts (d : Detection) : List (Text × Nat) :=
  let codes := d.violations.map Violation.code
  codes.eraseDups.map fun code => (code, codes.count code)

end Detection

end StackLint

/-
  StackLint.Detector
  ──────────────────
  **RUNNING RULES.**

  A detector holds rules with distinct ids and runs the enabled ones on a
  source, one by one.  A rule that fails never hides the violations of the
  others, unless the settings say that one failure ends the detection.
-/
import StackLint.Detection
import StackLint.Rule.Registry

namespace StackLint

/-! ## §1. Detectors. -/

/-- Rules in the order in which they run, and the settings they run under. -/
structure Detector where
  settings : Settings
  rules : List Rule

/-- A rule with this id is already registered. -/
structure DuplicateRule where
  id : Text
  deriving DecidableEq, Repr

/-- The error in words. -/
def DuplicateRule.message (d : DuplicateRule) : Text :=
  "Rule " ++ d.id ++ " is already registered"

namespace Detector

/-- The detector without rules. -/
def empty (settings : Settings) : Detector where
  settings := settings
  rules := []

/-- The rule with the given id. -/
def find? (d : Detector) (id : Text) : Option Rule :=
  d.rules.find? fun r => r.id = id

/-- Adds a rule at the end. -/
def register (d : Detector) (r : Rule) : Except DuplicateRule Detector :=
  if (d.find? r.id).isSome then .error ⟨r.id⟩
  else .ok { d with rules := d.rules ++ [r] }

/-- Removes the rule with the given id, if there is one. -/
def unregister (d : Detector) (id : Text) : Detector :=
  { d with rules := d.rules.filter fun r => r.id ≠ id }

/-- The detector with the given rules. -/
def ofRules (settings : Settings) (rules : List Rule) : Except DuplicateRule Detector :=
  rules.foldlM register (empty settings)

/-- The detector with the built-in rules. -/
def builtIn (settings : Settings) : Detector where
  settings := settings
  rules := Rule.builtIn

/-- The rules of a category. -/
def ofCategory (d : Detector) (category : Category) : List Rule :=
  d.rules.filter fun r => r.category = category

/-- Whether a rule runs. -/
def runs (d : Detector) (r : Rule) : Bool :=
  d.settings.isRuleEnabled r.id r.enabledByDefault

/-- The rules that run. -/
def enabledRules (d : Detector) : List Rule :=
  d.rules.filter d.runs

end Detector

/-! ## §2. Running rules. -/

/-- What comes of one rule. -/
inductive Outcome where
  | skipped
  | found (violations : List Violation)
  | failed (failure : RuleFailure)

/-- A rule and what comes of it. -/
structure RuleRun where
  rule : Rule
  outcome : Outcome

namespace RuleRun

/-- The reason why the rule failed, if it did. -/
def failure? (run : RuleRun) : Option RuleFailure :=
  match run.outcome with
  | .failed failure => some failure
  | _ => none

/-- The rule was skipped. -/
def isSkipped (run : RuleRun) : Bool :=
  match run.outcome with
  | .skipped => true
  | _ => false

/-- The violations that are reported of those the rule found: muted codes are
left out, and a severity that is set for the rule replaces theirs. -/
def reported (settings : Settings) (run : RuleRun) : List Violation :=
  match run.outcome with
  | .found violations =>
      let heard := violations.filter fun v => settings.isCodeEnabled v.code
      match settings.severityOverride run.rule.id with
      | none => heard
      | some severity => heard.map fun v => { v with severity := severity }
  | _ => []

end RuleRun

namespace Detector

/-- Runs one rule, if it is enabled. -/
def run (d : Detector) (s : Source) (r : Rule) : RuleRun where
  rule := r
  outcome :=
    if d.runs r then
      match r.detect s with
      | .ok violations => .found violations
      | .error failure => .failed failure
    else .skipped

/-- The failure that ends the detection, if one does. -/
def fatal? (d : Detector) (runs : List RuleRun) : Option RuleFailure :=
  if d.settings.continueOnError then none else runs.findSome? RuleRun.failure?

/-- The result of the given runs. -/
def result (d : Detector) (runs : List RuleRun) : Detection where
  violations := runs.flatMap (RuleRun.reported d.settings)
  rulesExecuted := runs.countP fun run => !run.isSkipped
  rulesSkipped := runs.countP RuleRun.isSkipped
  failures := runs.filterMap fun run => run.failure?.map fun failure => (run.rule.id, failure)

/-- Runs the enabled rules on a source. -/
def detect (d : Detector) (s : Source) : Check Detection :=
  let runs := d.rules.map (d.run s)
  match d.fatal? runs with
  | some failure => .error failure
  | none => .ok (d.result runs)

end Detector

end StackLint

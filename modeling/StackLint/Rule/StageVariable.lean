/-
  StackLint.Rule.StageVariable
  ────────────────────────────
  **STAGES.**

  The entry function `app` receives `input`, the entry function `run` receives
  nothing, and everything else takes the stage from `$app`.  Reported are
  `input.stage` outside of `app`, parameters of `run`, and variables named
  `stage` with a constant value.
-/
import StackLint.Match.Function
import StackLint.Rule.Basic

namespace StackLint

namespace StageVariable

/-- The entry function that receives the input. -/
def appFunction : Text := "app"

/-- The entry function that receives nothing. -/
def runFunction : Text := "run"

/-- Values that name one stage. -/
def hardcodedStages : List Text :=
  ["dev", "development", "staging", "production", "prod", "test"]

/-- Where the stage comes from. -/
def stageSource : Text := "$app.stage"

/-! ## §1. The checks. -/

/-- What is wrong with `input.stage` inside the named function. -/
def inputStageMessage (function : Option Text) : Text :=
  if function = some runFunction then
    "run() function does not receive input parameter. Use $app.stage instead of input.stage."
  else "Using input.stage causes silent failures. Use $app.stage instead."

/-- Checks the property access `object.name`. -/
def checkInputStage (s : Source) (visit : Visit Span) (object name : Tree) :
    Check (Option Violation) := do
  if name.identifierName? ≠ some "stage" then return none
  if object.unwrap.identifierName? ≠ some "input" then return none
  let function := (Node.enclosingFunction? visit.ancestors).map Prod.fst
  if function = some appFunction then return none
  let fix ← s.replace visit.node stageSource .high "Replace input.stage with $app.stage"
  return some (← s.violation "SST-VAL-001" visit.node s.path.name "stage"
    (inputStageMessage function) .error fix)

/-- The span of the parameters of a function: with their parentheses, or of a
lone parameter without. -/
def parametersSpan (params : List Tree) (info : FunctionInfo) : Option Span :=
  match info.paramsSpan, params.head?, params.getLast? with
  | some span, _, _ => some span
  | none, some first, some last => some ⟨first.info.start, last.info.stop⟩
  | none, _, _ => none

/-- Checks a function for parameters that it never receives. -/
def checkRunSignature (s : Source) (visit : Visit Span) (params : List Tree)
    (info : FunctionInfo) : Check (Option Violation) := do
  if params.isEmpty then return none
  if visit.node.functionName? visit.ancestors ≠ some runFunction then return none
  match parametersSpan params info with
  | none => return none
  | some span =>
      let fix ← s.fix span.start span.stop "()" .high "Remove parameters from run() function"
      return some (← s.violation "SST-VAL-002" visit.node s.path.name "run()"
        "run() function should not accept parameters in SST v3" .error fix)

/-- Checks the declaration of a variable with an initial value. -/
def checkHardcodedStage (s : Source) (node target value : Tree) :
    Check (Option Violation) := do
  if target.identifierName? ≠ some "stage" then return none
  match value.staticString? with
  | none => return none
  | some stage =>
      unless hardcodedStages.contains stage do return none
      let fix ← s.replace value stageSource .high "Replace hardcoded stage with $app.stage"
      return some (← s.violation "SST-VAL-003" node s.path.name "stage"
        ("Hardcoded stage value \"" ++ stage ++ "\" prevents multi-stage deployments") .error fix)

/-- Checks one node in its place. -/
def check (s : Source) (visit : Visit Span) : Check (Option Violation) :=
  match visit.node.form with
  | .propertyAccess object name _ => checkInputStage s visit object name
  | .variableDeclarator target (some value) => checkHardcodedStage s visit.node target value
  | _ =>
      match visit.node.function? with
      | some (params, info) => checkRunSignature s visit params info
      | none => return none

/-! ## §2. The rule. -/

/-- Checks a whole source. -/
def detect (s : Source) : Check (List Violation) := do
  return (← s.tree.visits.mapM (check s)).filterMap id

end StageVariable

/-- Stage variables, parameters of `run`, and hardcoded stages. -/
def Rule.stageVariable : Rule where
  id := "stage-variable"
  name := "Stage Variable Pattern Detection"
  category := .stageVariable
  codes := ["SST-VAL-001", "SST-VAL-002", "SST-VAL-003"]
  description :=
    "Detects input.stage used outside app(), run() declared with parameters, and hardcoded "
      ++ "stage values."
  enabledByDefault := true
  className := "StageVariableRule"
  detect := StageVariable.detect

end StackLint

/-
  StackLint.Rule.EnvVariable
  ──────────────────────────
  **ENVIRONMENT VARIABLES.**

  The runtime of a function keeps some names of environment variables for
  itself: the credentials and the region, every name that begins with an
  underscore, and every name that begins with `LAMBDA_`.
-/
import StackLint.Match.Resource
import StackLint.Rule.Basic
import StackLint.Text.Identifier
import StackLint.Text.UpperCase

namespace StackLint

namespace EnvVariable

/-- Names that the runtime sets. -/
def reservedNames : List Text :=
  ["AWS_ACCESS_KEY_ID", "AWS_SECRET_ACCESS_KEY", "AWS_SESSION_TOKEN", "AWS_REGION",
   "AWS_DEFAULT_REGION"]

/-- How names of the runtime begin. -/
def runtimeStart : Text := "LAMBDA_"

/-- How such names begin instead. -/
def replacementStart : Text := "APP_"

/-! ## §1. Renaming. -/

/-- The text of a key with a new name: in the quotes of the old key, else bare
if it is an identifier. -/
def renamedKey (key : Tree) (name : Text) : Text :=
  match key.form with
  | .stringLiteral _ quote => quote.surround name
  | _ => if name.isIdentifier then name else "\"" ++ name ++ "\""

/-- A fix that renames a key, unless the new name is empty. -/
def rename? (s : Source) (key : Tree) (name description : Text) : Check (Option Fix) := do
  if name = [] then return none
  return some (← s.replace key (renamedKey key name) .medium description)

/-! ## §2. The check. -/

/-- Checks one variable by its name. -/
def checkNamed (s : Source) (label : Text) (property : Node.Property Span) (name : Text) :
    Check (Option Violation) := do
  let violation (code message : Text) (fix : Option Fix) : Check (Option Violation) :=
    some <$> s.violation code property.node label ("environment." ++ name) message .error fix
  if reservedNames.contains name then
    violation "SST-VAL-041"
      (name ++ " is a reserved Lambda environment variable and cannot be set manually") none
  else if name.head? = some (.scalar '_') then
    let newName := Text.toUpper (name.dropWhile (· == .scalar '_'))
    let fix ← rename? s property.key newName
      ("Remove leading underscore: " ++ name ++ " → " ++ newName)
    violation "SST-VAL-042" "Variables starting with _ are reserved by Lambda runtime" fix
  else if runtimeStart.isPrefixOf name then
    let newName := replacementStart ++ name.drop runtimeStart.length
    let fix ← rename? s property.key newName
      ("Replace LAMBDA_ prefix: " ++ name ++ " → " ++ newName)
    violation "SST-VAL-043" "Variables starting with LAMBDA_ are reserved by Lambda runtime" fix
  else return none

/-- Checks one variable. -/
def checkProperty (s : Source) (label : Text) (property : Node.Property Span) :
    Check (Option Violation) :=
  match property.key.keyName? with
  | none | some [] => return none
  | some name => checkNamed s label property name

/-- Checks the environment of a function. -/
def checkFunction (s : Source) (r : Resource Span) : Check (List Violation) := do
  match (r.findProperty? "environment").bind (·.value.unwrap.objectMembers?) with
  | none => return []
  | some members =>
      return (← (Node.properties members).mapM (checkProperty s r.label)).filterMap id

/-- Checks a whole source. -/
def detect (s : Source) : Check (List Violation) := do
  return (← (s.tree.resourcesOf ["Function"]).mapM (checkFunction s)).flatten

end EnvVariable

/-- Reserved names of environment variables. -/
def Rule.envVariable : Rule where
  id := "env-variable"
  name := "Environment Variable Pattern Detection"
  category := .environmentVariable
  codes := ["SST-VAL-041", "SST-VAL-042", "SST-VAL-043"]
  description := "Detects reserved Lambda environment variables"
  enabledByDefault := true
  className := "EnvVariableRule"
  detect := EnvVariable.detect

end StackLint

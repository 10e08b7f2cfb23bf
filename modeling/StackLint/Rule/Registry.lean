/-
  StackLint.Rule.Registry
  ───────────────────────
  **THE BUILT-IN RULES.**

  The closed list of rules that ship together under one version.
-/
import StackLint.Rule.CorsConfig
import StackLint.Rule.DomainConfig
import StackLint.Rule.DynamoIndexing
import StackLint.Rule.EnvVariable
import StackLint.Rule.PulumiOutput
import StackLint.Rule.ResourceDependency
import StackLint.Rule.StageVariable
import StackLint.Settings.Basic

namespace StackLint

namespace Rule

/-- The version of the list of built-in rules. -/
def rulesetVersion : Text := "1.1.0"

/-- The built-in rules, in the order in which they run. -/
def builtIn : List Rule :=
  [stageVariable, domainConfig, corsConfig, envVariable, pulumiOutput, resourceDependency,
   dynamoIndexing]

/-- The built-in rule with the given id. -/
def find? (id : Text) : Option Rule :=
  builtIn.find? fun r => r.id = id

/-- The built-in rules of a category. -/
def ofCategory (category : Category) : List Rule :=
  builtIn.filter fun r => r.category = category

/-- Whether a rule runs under the given settings, or by default. -/
def isEnabled (settings : Option Settings) (r : Rule) : Bool :=
  match settings with
  | none => r.enabledByDefault
  | some settings => settings.isRuleEnabled r.id r.enabledByDefault

/-- The built-in rules that run under the given settings, or by default. -/
def enabled (settings : Option Settings) : List Rule :=
  builtIn.filter (isEnabled settings)

end Rule

end StackLint

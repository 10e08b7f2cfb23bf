/-
  StackLint.Rule.CorsConfig
  ─────────────────────────
  **CORS SETTINGS.**

  The settings are an object, and its properties are `allowOrigins`,
  `allowMethods` and `allowHeaders`, without the letters `ed`.
-/
import StackLint.Match.Resource
import StackLint.Rule.Basic

namespace StackLint

namespace CorsConfig

/-- A misspelled property: its correct name and the code of the violation. -/
structure Misspelling where
  wrong : Text
  correct : Text
  code : Text

/-- The misspellings that are reported. -/
def misspellings : List Misspelling :=
  [⟨"allowedOrigins", "allowOrigins", "SST-VAL-021"⟩,
   ⟨"allowedMethods", "allowMethods", "SST-VAL-022"⟩,
   ⟨"allowedHeaders", "allowHeaders", "SST-VAL-023"⟩]

/-- A property key with a new name, in the quotes of the old key. -/
def renamedKey (key : Tree) (name : Text) : Text :=
  match key.form with
  | .stringLiteral _ quote => quote.surround name
  | _ => name

/-- Checks one property of the settings. -/
def checkProperty (s : Source) (label : Text) (property : Node.Property Span) :
    Check (Option Violation) := do
  match misspellings.find? fun m => property.key.keyName? = some m.wrong with
  | none => return none
  | some m =>
      let fix ← s.replace property.key (renamedKey property.key m.correct) .high
        ("Rename " ++ m.wrong ++ " to " ++ m.correct)
      return some (← s.violation m.code property.node label ("cors." ++ m.wrong)
        ("Wrong CORS property name: \"" ++ m.wrong ++ "\" should be \"" ++ m.correct ++ "\"")
        .error fix)

/-- A fix that replaces an array by its only element, if that is an object. -/
def arrayFix? (s : Source) (array : Tree) (elements : List (Option Tree)) :
    Check (Option Fix) := do
  match elements with
  | [some element] =>
      if element.unwrap.isObject then
        return some (← s.replace array (s.textOf element) .high "Convert CORS array to object")
      else return none
  | _ => return none

/-- Checks the settings of a resource. -/
def checkResource (s : Source) (r : Resource Span) : Check (List Violation) := do
  match r.findProperty? "cors" with
  | none => return []
  | some cors =>
      let value := cors.value.unwrap
      match value.form with
      | .arrayLiteral elements =>
          let fix ← arrayFix? s value elements
          return [← s.violation "SST-VAL-024" cors.node r.label "cors"
            "CORS should be an object, not an array" .error fix]
      | .objectLiteral members =>
          return (← (Node.properties members).mapM (checkProperty s r.label)).filterMap id
      | _ => return []

/-- Checks a whole source. -/
def detect (s : Source) : Check (List Violation) := do
  return (← s.tree.resources.mapM (checkResource s)).flatten

end CorsConfig

/-- Names and form of CORS settings. -/
def Rule.corsConfig : Rule where
  id := "cors-config"
  name := "CORS Configuration Pattern Detection"
  category := .corsConfig
  codes := ["SST-VAL-021", "SST-VAL-022", "SST-VAL-023", "SST-VAL-024"]
  description := Rule.defaultDescription "cors-config" "CORS Configuration Pattern Detection"
  enabledByDefault := true
  className := "CorsConfigRule"
  detect := CorsConfig.detect

end StackLint

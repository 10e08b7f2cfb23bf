/-
  StackLint.Rule.DynamoIndexing
  ─────────────────────────────
  **FIELDS OF TABLES.**

  Every field that a table declares has to be a key of the primary, a global or
  a local index, or the attribute that expires items.  Other attributes can be
  stored without being declared.
-/
import StackLint.Match.Resource
import StackLint.Rule.Basic

namespace StackLint

namespace DynamoIndexing

/-! ## §1. Indexed fields. -/

/-- The fields that an index uses. -/
def indexKeys (index : Tree) : List Text :=
  ["hashKey", "rangeKey"].filterMap fun key =>
    (index.findProperty? (Text.ofString key)).bind (·.value.staticString?)

/-- The fields that a collection of indexes uses. -/
def collectionKeys (collection : Tree) : List Text :=
  match collection.unwrap.form with
  | .objectLiteral members => (Node.properties members).flatMap fun p => indexKeys p.value
  | .arrayLiteral elements => (elements.filterMap id).flatMap indexKeys
  | _ => []

/-- The attribute that expires items, given directly or as a property. -/
def expiryAttribute? (ttl : Tree) : Option Text :=
  ttl.staticString?.or ((ttl.findProperty? "attribute").bind (·.value.staticString?))

/-- The fields that a table uses in any way. -/
def indexedFields (r : Resource Span) : List Text :=
  let keysIn (name : Text) (keys : Tree → List Text) : List Text :=
    ((r.findProperty? name).map fun p => keys p.value).getD []
  keysIn "primaryIndex" indexKeys ++ keysIn "globalIndexes" collectionKeys
    ++ keysIn "localIndexes" collectionKeys
    ++ keysIn "ttl" fun ttl => (expiryAttribute? ttl).toList

/-! ## §2. Declared fields. -/

/-- The fields that an object declares, with their members. -/
def declaredFields (members : List Tree) : List (Text × Tree) :=
  (Node.properties members).filterMap fun p => p.key.keyName?.map fun name => (name, p.node)

/-- The `fields` property with only the given members left, on several lines
if it was `written` on several. -/
def renderFields (written : Text) (kept : List Text) (indent : Text) : Text :=
  if written.contains (.scalar '\n') then
    let inner := indent ++ "  "
    "fields: \x7b\n" ++ inner ++ Text.join (",\n" ++ inner) kept ++ "\n" ++ indent ++ "\x7d"
  else "fields: \x7b " ++ Text.join ", " kept ++ " \x7d"

/-! ## §3. The check. -/

/-- A fix that removes the fields that are not kept.  It never removes all. -/
def removalFix? (s : Source) (fields : Tree) (kept : List Text) (unused : Text) :
    Check (Option Fix) := do
  if kept.isEmpty then return none
  return some (← s.replace fields
    (renderFields (s.textOf fields) kept (s.lineIndent fields.info.start)) .high
    ("Remove unused fields: " ++ unused))

/-- Checks the fields that a table declares. -/
def checkFields (s : Source) (r : Resource Span) (fields : Tree)
    (declared : List (Text × Tree)) : Check (Option Violation) := do
  let indexed := indexedFields r
  let unused := (declared.map Prod.fst).filter fun name => !indexed.contains name
  if unused.isEmpty then return none
  let unusedText := Text.join ", " (unused.map fun name => "\"" ++ name ++ "\"")
  let kept := (declared.filter fun field => indexed.contains field.1).map fun field =>
    s.textOf field.2
  let fix ← removalFix? s fields kept unusedText
  return some (← s.violation "SST-VAL-061" fields r.label "fields"
    ("Fields defined but not indexed: [" ++ unusedText
      ++ "]. All fields in \"fields\" property must be used in an index. "
      ++ "Remove unused fields or add indexes for them.") .error fix)

/-- Checks one table. -/
def checkTable (s : Source) (r : Resource Span) : Check (Option Violation) := do
  match r.findProperty? "fields" with
  | none => return none
  | some property =>
      match property.value.unwrap.objectMembers? with
      | none => return none
      | some members => checkFields s r property.node (declaredFields members)

/-- Checks a whole source. -/
def detect (s : Source) : Check (List Violation) := do
  return (← (s.tree.resourcesOf ["Dynamo"]).mapM (checkTable s)).filterMap id

end DynamoIndexing

/-- Declared fields that no index uses. -/
def Rule.dynamoIndexing : Rule where
  id := "dynamo-indexing"
  name := "DynamoDB Field Indexing Pattern Detection"
  category := .dynamodbSchema
  codes := ["SST-VAL-061"]
  description := "Detects fields defined but not indexed in DynamoDB tables"
  enabledByDefault := true
  className := "DynamoIndexingRule"
  detect := DynamoIndexing.detect

end StackLint

/-
  StackLint.Settings.Reader
  ─────────────────────────
  **READING SETTINGS.**

  Settings are an object whose members all have defaults; members with other
  names are ignored, but their names have to be proper text: a surrogate that
  stands alone in one spoils the whole object.  When members are invalid, all of them are reported by
  their places, in the order of the members and, among rules, of the file.
-/
import StackLint.Number.Binary64
import StackLint.Settings.Basic

namespace StackLint

/-- One step on the way to a value inside another one. -/
inductive Step where
  | member (name : Text)
  | item (index : Nat)
  deriving DecidableEq, Repr

/-- The place of a value inside another one. -/
abbrev Place := List Step

namespace Settings

/-! ## §1. Results. -/

/-- A valid value, or the places of all that is invalid. -/
abbrev Valid := Except (List Place)

/-- The places of all that is invalid in a result. -/
def places : Valid α → List Place
  | .ok _ => []
  | .error found => found

/-- A result seen from one step further out. -/
def within (step : Step) (result : Valid α) : Valid α :=
  result.mapError fun found => found.map (step :: ·)

/-- The invalid value is here. -/
def invalid : Valid α :=
  .error [[]]

/-- All values, or all places of invalid ones. -/
def collect (results : List (Valid α)) : Valid (List α) :=
  match results.flatMap places with
  | [] => .ok (results.filterMap Except.toOption)
  | found => .error found

/-! ## §2. Values. -/

/-- Words for yes and no, in any letter case. -/
def boolWords : List (Text × Bool) :=
  [("0", false), ("off", false), ("f", false), ("false", false), ("n", false), ("no", false),
   ("1", true), ("on", true), ("t", true), ("true", true), ("y", true), ("yes", true)]

/-- A truth value: as such, as a number or as a word. -/
def readBool : Json → Valid Bool
  | .bool b => .ok b
  | .number n => ((Binary64.ofNumeral n).toBool?.map Except.ok).getD invalid
  | .string word => ((boolWords.lookup (Text.toAsciiLower word)).map Except.ok).getD invalid
  | _ => invalid

/-- A text. -/
def readText : Json → Valid Text
  | .string t => .ok t
  | _ => invalid

/-- A severity, or none. -/
def readSeverity : Json → Valid (Option Severity)
  | .null => .ok none
  | .string name => ((Severity.ofName? name).map fun s => Except.ok (some s)).getD invalid
  | _ => invalid

/-- A level of confidence. -/
def readConfidence : Json → Valid Confidence
  | .string name => ((Confidence.ofName? name).map Except.ok).getD invalid
  | _ => invalid

/-- The items of an array of texts. -/
def readTexts : Json → Valid (List Text)
  | .array items =>
      collect (items.zipIdx.map fun (item, index) => within (.item index) (readText item))
  | _ => invalid

/-- A member of an object, or its default when it is missing. -/
def readMember (members : List (Text × Json)) (name : Text) (read : Json → Valid α)
    (default : α) : Valid α :=
  match lookupKey name members with
  | some value => within (.member name) (read value)
  | none => .ok default

/-! ## §3. Settings. -/

/-- The members of an object whose names are proper text. -/
def readMembers : Json → Valid (List (Text × Json))
  | .object members => if members.any fun m => m.1.hasSurrogate then invalid else .ok members
  | _ => invalid

/-- The settings of one rule. -/
def readRule (value : Json) : Valid RuleSettings := do
  let members ← readMembers value
  let enabled := readMember members "enabled" readBool true
  let severity := readMember members "severity" readSeverity none
  match enabled, severity with
  | .ok enabled, .ok severity => .ok { enabled, severity }
  | _, _ => .error (places enabled ++ places severity)

/-- The settings of rules by their ids.  An id may be any text. -/
def readRules : Json → Valid (List (Text × RuleSettings))
  | .object members =>
      collect (members.map fun (id, value) =>
        within (.member id) ((readRule value).map fun rule => (id, rule)))
  | _ => invalid

/-- The settings that a value describes, or the places of all that is invalid
in it. -/
def read (value : Json) : Valid Settings := do
  let members ← readMembers value
  let enabled := readMember members "enabled" readBool standard.enabled
  let rules := readMember members "rules" readRules standard.rules
  let disabledCodes := readMember members "disabled_codes" readTexts standard.disabledCodes
  let minFixConfidence :=
    readMember members "min_fix_confidence" readConfidence standard.minFixConfidence
  let continueOnError :=
    readMember members "continue_on_error" readBool standard.continueOnError
  match enabled, rules, disabledCodes, minFixConfidence, continueOnError with
  | .ok enabled, .ok rules, .ok disabledCodes, .ok minFixConfidence, .ok continueOnError =>
      .ok { enabled, rules, disabledCodes, minFixConfidence, continueOnError }
  | _, _, _, _, _ =>
      .error (places enabled ++ places rules ++ places disabledCodes
        ++ places minFixConfidence ++ places continueOnError)

end Settings

end StackLint

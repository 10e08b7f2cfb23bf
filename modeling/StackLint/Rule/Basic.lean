/-
  StackLint.Rule.Basic
  ────────────────────
  **RULES.**

  A rule looks at a source and reports violations.  It may fail; the detector
  decides what becomes of the failure.  Category, related codes and
  documentation of a violation come from the catalog, and a fix reads the code
  it expects from the source.
-/
import StackLint.Source
import StackLint.Violation.Catalog

namespace StackLint

/-- Why a rule fails. -/
inductive RuleFailure where
  /-- A fix was made for a range that is none. -/
  | invalidRange (range : InvalidRange)
  /-- A piece of the source cannot be cut into tokens. -/
  | scan (failure : ScanFailure)
  /-- A character was asked for at an offset where the source has none. -/
  | outsideText (offset : Nat)
  /-- A violation has a code that the catalog does not know. -/
  | unknownCode (code : Text)
  /-- The rule itself gave up. -/
  | gaveUp (message : Text)
  deriving DecidableEq, Repr

/-- What a rule computes with. -/
abbrev Check := Except RuleFailure

/-- A rule that detects one kind of misconfiguration. -/
structure Rule where
  id : Text
  name : Text
  category : Category
  /-- The codes that the rule may report. -/
  codes : List Text
  description : Text
  enabledByDefault : Bool
  /-- What the rule is called in listings, beside its id. -/
  className : Text
  detect : Source → Check (List Violation)

namespace Rule

/-- The description of a rule that has none of its own. -/
def defaultDescription (id name : Text) : Text :=
  "Rule " ++ id ++ ": " ++ name

/-- How listings show a rule. -/
def tag (r : Rule) : Text :=
  "<" ++ r.className ++ " " ++ r.id ++ ">"

end Rule

namespace Source

/-! ## Making violations and fixes. -/

/-- A violation of the given code at a node. -/
def violation (s : Source) (code : Text) (node : Tree) (resource property message : Text)
    (severity : Severity) (fix : Option Fix) : Check Violation :=
  match Catalog.find? code with
  | none => .error (.unknownCode code)
  | some entry =>
      let position := s.position node.info.start
      .ok {
        code, severity, resource, property, message, fix
        category := entry.category
        line := position.line
        column := position.column
        relatedCodes := entry.relatedCodes
        docsUrl := entry.docsUrl }

/-- The character at an offset. -/
def charAt (s : Source) (offset : Nat) : Check CodePoint :=
  match s.text[offset]? with
  | some c => .ok c
  | none => .error (.outsideText offset)

/-- A fix that replaces the range from `start` up to `stop`. -/
def fix (s : Source) (start stop : Nat) (newCode : Text) (confidence : Confidence)
    (description : Text) : Check Fix :=
  match Fix.make (s.text.slice start stop) newCode confidence description start stop with
  | .ok fix => .ok fix
  | .error range => .error (.invalidRange range)

/-- A fix that replaces a node. -/
def replace (s : Source) (node : Tree) (newCode : Text) (confidence : Confidence)
    (description : Text) : Check Fix :=
  s.fix node.info.start node.info.stop newCode confidence description

end Source

end StackLint

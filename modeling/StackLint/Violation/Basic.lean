/-
  StackLint.Violation.Basic
  ─────────────────────────
  **VIOLATIONS AND FIXES.**

  A violation says what is wrong, where, and how severe it is; it may carry a
  fix.  A fix replaces the range of offsets from `start` up to `stop` by new
  code, and an empty range is an insertion.  It holds only for the text that it
  was made for, so it also says which code it expects there.
-/
import StackLint.Text.CodePoint

namespace StackLint

/-! ## §1. Severity, confidence and category. -/

/-- How severe a violation is: errors block a deployment, warnings do not. -/
inductive Severity where
  | error | warning
  deriving DecidableEq, Repr

namespace Severity

/-- The name of the severity. -/
def name : Severity → String
  | .error => "error"
  | .warning => "warning"

/-- The severity of a name. -/
def ofName? (t : Text) : Option Severity :=
  [Severity.error, .warning].find? fun s => Text.ofString s.name = t

end Severity

/-- How safe it is to apply a fix unseen.  The levels are an order, no
probabilities. -/
inductive Confidence where
  | high | medium | low
  deriving DecidableEq, Repr

namespace Confidence

/-- The name of the level. -/
def name : Confidence → String
  | .high => "high"
  | .medium => "medium"
  | .low => "low"

/-- The name of the level at the head of a sentence. -/
def title : Confidence → String
  | .high => "High"
  | .medium => "Medium"
  | .low => "Low"

/-- The place of the level in the order. -/
def rank : Confidence → Nat
  | .high => 3
  | .medium => 2
  | .low => 1

/-- The level of a name. -/
def ofName? (t : Text) : Option Confidence :=
  [Confidence.high, .medium, .low].find? fun c => Text.ofString c.name = t

end Confidence

/-- What a violation is about. -/
inductive Category where
  | configFile | stageVariable | functionSignature | domainConfig | corsConfig
  | pulumiOutput | environmentVariable | resourceDependency | dynamodbSchema
  deriving DecidableEq, Repr

namespace Category

/-- The name of the category. -/
def name : Category → String
  | .configFile => "config-file"
  | .stageVariable => "stage-variable"
  | .functionSignature => "function-signature"
  | .domainConfig => "domain-config"
  | .corsConfig => "cors-config"
  | .pulumiOutput => "pulumi-output"
  | .environmentVariable => "environment-variable"
  | .resourceDependency => "resource-dependency"
  | .dynamodbSchema => "dynamodb-schema"

/-- The category as a heading. -/
def title : Category → String
  | .configFile => "Config File"
  | .stageVariable => "Stage Variable"
  | .functionSignature => "Function Signature"
  | .domainConfig => "Domain Config"
  | .corsConfig => "Cors Config"
  | .pulumiOutput => "Pulumi Output"
  | .environmentVariable => "Environment Variable"
  | .resourceDependency => "Resource Dependency"
  | .dynamodbSchema => "Dynamodb Schema"

/-- All categories. -/
def all : List Category :=
  [.configFile, .stageVariable, .functionSignature, .domainConfig, .corsConfig, .pulumiOutput,
   .environmentVariable, .resourceDependency, .dynamodbSchema]

/-- The category of a name. -/
def ofName? (t : Text) : Option Category :=
  all.find? fun c => Text.ofString c.name = t

end Category

/-! ## §2. Fixes. -/

/-- A replacement of a range of offsets. -/
structure Fix where
  /-- The code that stands in the range. -/
  oldCode : Text
  newCode : Text
  confidence : Confidence
  description : Text
  start : Nat
  stop : Nat
  start_le_stop : start ≤ stop
  deriving DecidableEq, Repr

/-- A range that begins below zero or ends before it begins. -/
structure InvalidRange where
  start : Int
  stop : Int
  deriving DecidableEq, Repr

/-- The error in words. -/
def InvalidRange.message (r : InvalidRange) : Text :=
  s!"Invalid fix range [{r.start}, {r.stop})"

namespace Fix

/-- A fix, if its range is one. -/
def make (oldCode newCode : Text) (confidence : Confidence) (description : Text)
    (start stop : Int) : Except InvalidRange Fix :=
  if h : 0 ≤ start ∧ start ≤ stop then
    .ok {
      oldCode, newCode, confidence, description
      start := start.toNat
      stop := stop.toNat
      start_le_stop := by omega }
  else .error ⟨start, stop⟩

/-- The range is empty. -/
def isInsertion (f : Fix) : Bool :=
  f.start == f.stop

/-- Whether the two fixes touch the same text.  Insertions do so at one place,
or inside the range of the other fix. -/
def overlaps (f g : Fix) : Bool :=
  if f.isInsertion && g.isInsertion then f.start == g.start
  else if f.isInsertion then g.start < f.start && f.start < g.stop
  else if g.isInsertion then f.start < g.start && g.start < f.stop
  else f.start < g.stop && g.start < f.stop

/-- The text with the range of the fix replaced. -/
def apply (f : Fix) (content : Text) : Text :=
  content.take f.start ++ f.newCode ++ content.drop f.stop

end Fix

/-! ## §3. Violations. -/

/-- Something wrong in a configuration. -/
structure Violation where
  code : Text
  severity : Severity
  category : Category
  resource : Text
  property : Text
  message : Text
  line : Int
  column : Int
  fix : Option Fix
  relatedCodes : List Text
  docsUrl : Option Text
  deriving DecidableEq, Repr

namespace Violation

/-- The violation blocks a deployment. -/
def isError (v : Violation) : Bool :=
  v.severity == .error

/-- The violation carries a fix that is safe to apply unseen. -/
def isAutoFixable (v : Violation) : Bool :=
  v.fix.any fun fix => fix.confidence == .high

end Violation

end StackLint

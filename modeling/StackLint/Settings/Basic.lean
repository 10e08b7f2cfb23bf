/-
  StackLint.Settings.Basic
  ────────────────────────
  **SETTINGS.**

  A project may switch rules off, mute codes, change the severity of a rule's
  violations, and say which fixes it trusts.
-/
import StackLint.Json.Basic
import StackLint.Violation.Basic

namespace StackLint

/-- The settings of one rule. -/
structure RuleSettings where
  enabled : Bool
  /-- The severity of all its violations, in place of their own. -/
  severity : Option Severity
  deriving DecidableEq, Repr

/-- The settings of a project. -/
structure Settings where
  /-- Rules run at all. -/
  enabled : Bool
  /-- The settings of rules by their ids. -/
  rules : List (Text × RuleSettings)
  /-- Codes that are never reported. -/
  disabledCodes : List Text
  /-- The confidence from which on fixes are applied. -/
  minFixConfidence : Confidence
  /-- Other rules run on when one fails. -/
  continueOnError : Bool
  deriving DecidableEq, Repr

/-- The settings of a rule that has none. -/
def RuleSettings.standard : RuleSettings where
  enabled := true
  severity := none

namespace Settings

/-- The settings of a project that has none. -/
def standard : Settings where
  enabled := true
  rules := []
  disabledCodes := []
  minFixConfidence := .high
  continueOnError := true

/-- Whether a rule runs; `default` says so for a rule without settings. -/
def isRuleEnabled (s : Settings) (id : Text) (default : Bool) : Bool :=
  s.enabled && ((lookupKey id s.rules).map RuleSettings.enabled).getD default

/-- Whether a code is reported. -/
def isCodeEnabled (s : Settings) (code : Text) : Bool :=
  !s.disabledCodes.contains code

/-- The severity of all violations of a rule, if it is set. -/
def severityOverride (s : Settings) (id : Text) : Option Severity :=
  (lookupKey id s.rules).bind RuleSettings.severity

end Settings

end StackLint

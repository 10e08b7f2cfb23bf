/-
  StackLint.Log.Event
  ───────────────────
  **WHAT IS LOGGED.**

  Everything worth a record that happens while a project is checked and fixed,
  with the level and the words of its record.
-/
import StackLint.Detector
import StackLint.Fixing.Basic
import StackLint.Log.Basic

namespace StackLint

/-- Something that happens and is logged. -/
inductive LogEvent where
  /-- The parser complained about a file. -/
  | recovered (complaints : Nat) (path : Path)
  | ruleRan (id : Text) (violations : Nat)
  | ruleFailed (id : Text) (path : Path)
  | detected (path : Path) (violations rules : Nat)
  /-- A file cannot be read to be checked. -/
  | notDetected (path : Path) (failure : ReadFailure)
  | settingsLoaded (path : Path)
  | settingsInvalid (path : Path)
  /-- A file, here as it was asked for, cannot be read to be fixed. -/
  | notFixable (asked : Text) (path : Path) (failure : ReadFailure)
  | fixingStopped (path : Path) (failure : FixFailure)
  | fixSkipped (skipped : SkippedFix)
  | fixesWritten (count : Nat) (path : Path)
  | notWritten (path : Path) (failure : FixFailure)
  deriving DecidableEq, Repr

namespace LogEvent

/-- The level of the record. -/
def level : LogEvent → LogLevel
  | .recovered _ _ | .ruleRan _ _ | .detected _ _ _ | .settingsLoaded _ | .fixSkipped _ => .debug
  | .fixesWritten _ _ => .info
  | .notDetected _ _ | .settingsInvalid _ | .notFixable _ _ _ | .fixingStopped _ _
  | .notWritten _ _ => .warning
  | .ruleFailed _ _ => .error

/-- The words of the record.  Nothing is timed, so every duration is zero. -/
def message : LogEvent → Text
  | .recovered complaints path =>
      Text.ofString s!"Recovered from {complaints} syntax issue(s) in " ++ path.text
  | .ruleRan id violations => "Rule " ++ id ++ s!": {violations} violation(s) in 0.0ms"
  | .ruleFailed id path => "Pattern rule " ++ id ++ " failed on " ++ path.text
  | .detected path violations rules =>
      "Pattern detection on " ++ path.text
        ++ s!": {violations} violation(s) from {rules} rule(s) in 0.0ms"
  | .notDetected path failure =>
      "Cannot load config for pattern detection: " ++ path.text ++ ": " ++ failure.message
  | .settingsLoaded path => "Loaded pattern config from " ++ path.text
  | .settingsInvalid path => "Invalid pattern config " ++ path.text ++ ", using defaults"
  | .notFixable asked path failure =>
      "Cannot load " ++ asked ++ " for fixing: " ++ path.text ++ ": " ++ failure.message
  | .fixingStopped path failure =>
      "Aborting fixes for " ++ path.text ++ ": " ++ failure.message
  | .fixSkipped skipped =>
      "Skipped fix for " ++ skipped.offer.code ++ ": " ++ skipped.reason.message
  | .fixesWritten count path => Text.ofString s!"Applied {count} fix(es) to " ++ path.text
  | .notWritten path failure =>
      "Failed to write fixes to " ++ path.text ++ ": " ++ failure.message

/-- The record of the event. -/
def record (e : LogEvent) : LogRecord where
  logger := rootLoggerName
  level := e.level
  message := e.message

end LogEvent

/-! ## Events of a detection. -/

/-- The event of one run of a rule, if it ran. -/
def RuleRun.event? (path : Path) (run : RuleRun) : Option LogEvent :=
  match run.outcome with
  | .skipped => none
  | .found violations => some (.ruleRan run.rule.id violations.length)
  | .failed _ => some (.ruleFailed run.rule.id path)

end StackLint

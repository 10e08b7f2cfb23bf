/-
  StackLint.Workspace.Check
  ─────────────────────────
  **CHECKING FILES.**

  A file that cannot be read is itself a violation, the only one that is then
  reported.
-/
import StackLint.Report.Summary
import StackLint.Workspace.Basic

namespace StackLint

/-! ## §1. Detection. -/

/-- The runs of rules that take place: with a failure that ends the detection,
those before it. -/
def Detector.completed (d : Detector) (runs : List RuleRun) : List RuleRun :=
  match d.fatal? runs with
  | none => runs
  | some _ => runs.takeWhile fun run => run.failure?.isNone

/-- Runs the enabled rules on a source. -/
def Session.detectIn (d : Detector) (s : Source) : Session Detection := do
  logAll ((d.completed (d.rules.map (d.run s))).filterMap (RuleRun.event? s.path))
  match d.detect s with
  | .error failure => throw (.check failure)
  | .ok detection =>
      log (.detected s.path detection.violations.length detection.rulesExecuted)
      return detection

/-- The name of the configuration file. -/
def configurationFile : Text := "sst.config.ts"

/-- The violation of a file that cannot be read, be it `found` or not. -/
def unreadableFile (found : Bool) (failure : ReadFailure) : Violation where
  code := Catalog.configFileNotFound.code
  severity := .error
  category := Catalog.configFileNotFound.category
  resource := configurationFile
  property := "file"
  message := if found then failure.message else configurationFile ++ " not found"
  line := 1
  column := 1
  fix := none
  relatedCodes := Catalog.configFileNotFound.relatedCodes
  docsUrl := Catalog.configFileNotFound.docsUrl

/-- Runs the enabled rules on a file. -/
def Session.detect (d : Detector) (path : Path) : Session Detection := do
  match ← readSource path with
  | .ok source => detectIn d source
  | .error failure =>
      log (.notDetected path failure)
      return {
        violations := [unreadableFile (← exists? path) failure]
        rulesExecuted := 0
        rulesSkipped := 0
        failures := [] }

/-! ## §2. Whole checks. -/

/-- Detects violations in a file under the settings of its project, which lies
in the given folder or else in the folder of the file, and reports them. -/
def Session.detectAndReport (path : Path) (folder : Option Path) : Session (Detection × Text) := do
  let settings ← settings (some (folder.getD path.parent))
  let detection ← detect (.builtIn settings) path
  return (detection, Report.display detection)

end StackLint

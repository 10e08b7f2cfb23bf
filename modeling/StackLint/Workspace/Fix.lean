/-
  StackLint.Workspace.Fix
  ───────────────────────
  **FIXING FILES.**

  A file is overwritten only when it still holds the text that the fixes were
  checked against; otherwise it stays as it is and the result says why.
-/
import StackLint.Fixing.Run
import StackLint.Workspace.Check

namespace StackLint

namespace Session

/-! ## §1. Writing. -/

/-- Removes a temporary file, and says what goes wrong. -/
def discard (temporary : Location) : Session (Option ReplaceFailure) := do
  match (← files).discard temporary with
  | .error failure => return some failure
  | .ok files =>
      setFiles files
      return none

/-- Puts a text in the place of the file that a path leads to.  Whatever goes
wrong, the temporary file is removed; if that goes wrong as well, it is what is
reported. -/
def replaceText (path : Path) (text : Text) : Session (Except ReplaceFailure Unit) := do
  match (← files).temporaryBeside path with
  | .error failure => return .error failure
  | .ok (temporary, files) =>
      setFiles files
      match Utf8.encode? text with
      | none =>
          match ← discard temporary with
          | some failure => return .error failure
          | none => throw .notWritable
      | some bytes =>
          let (files, moved) := files.fillAndMove temporary path bytes
          setFiles files
          match moved with
          | .ok () => return .ok ()
          | .error failure => return .error ((← discard temporary).getD failure)

/-- Replaces the text of the file that a source comes from, if the file still
holds it. -/
def overwrite (s : Source) (text : Text) : Session (Except FixFailure Unit) := do
  match ← readText s.path with
  | .error (.file error) => return .error (.unwritable s.path error)
  | .error (.system error) => return .error (.notReplaced ⟨error, [s.path]⟩)
  | .error (.encoding failure) => throw (.notText failure)
  | .ok found =>
      if found ≠ s.text then return .error .changedMeanwhile
      else return (← replaceText s.path text).mapError .notReplaced

/-! ## §2. Fixing. -/

/-- Applies the fixes of the violations to a source by the answers that were given, and writes
the file when the options say so. -/
def fixBy (options : FixOptions) (answers : Option Answers) (s : Source)
    (violations : List Violation) : Session FixResult := do
  let result := dryRun options answers s violations
  match result.failure with
  | some failure =>
      log (.fixingStopped s.path failure)
      return result
  | none =>
      logAll (result.skipped.map .fixSkipped)
      match result.fixedText, options.apply with
      | some text, true =>
          match ← overwrite s text with
          | .error failure =>
              log (.notWritten s.path failure)
              return .unfixed result.skipped (some failure)
          | .ok () =>
              log (.fixesWritten result.applied.length s.path)
              return { result with written := true }
      | _, _ => return result

/-- Asks about the fixes of the violations that need a confirmation, and applies them to a
source. -/
def fix (options : FixOptions) (confirm : Option Confirm) (s : Source)
    (violations : List Violation) : Session FixResult := do
  match answersFor? options confirm (FixOffer.ofViolations violations) with
  | none => throw .unanswered
  | some answers => fixBy options answers s violations

/-- Applies the fixes of the violations to a source without writing. -/
def preview (options : FixOptions) (confirm : Option Confirm) (s : Source)
    (violations : List Violation) : Session FixResult :=
  fix { options with apply := false } confirm s violations

/-- Reads a file again, here under the name that it is asked for, and applies
the fixes of the violations to it. -/
def fixFile (options : FixOptions) (confirm : Option Confirm) (asked : Text)
    (violations : List Violation) : Session FixResult := do
  let path := Path.ofText asked
  match ← readSource path with
  | .error failure =>
      log (.notFixable asked path failure)
      return .unfixed [] (some (.unreadable path failure))
  | .ok source => fix options confirm source violations

/-- Detects violations in a file and fixes them, under the settings of its
project, which lies in the given folder or else in the folder of the file. -/
def detectAndFix (asked : Text) (folder : Option Path) (apply : Bool) :
    Session (Detection × FixResult) := do
  let path := Path.ofText asked
  let settings ← settings (some (folder.getD path.parent))
  let detection ← detect (.builtIn settings) path
  let result ← fixFile (.ofSettings settings apply) none asked detection.violations
  return (detection, result)

end Session

end StackLint

/-
  StackLint.Workspace.Basic
  ─────────────────────────
  **WORKSPACES.**

  A workspace is the files of a project and the journal of what happened to
  them.  Whatever a session on it does, it leaves files and journal behind,
  also when it fails.
-/
import StackLint.Files.Basic
import StackLint.Log.Event
import StackLint.Settings.Reader
import StackLint.Json.Reader

namespace StackLint

/-! ## §1. Sessions. -/

/-- The files of a project and what was logged about them, in order. -/
structure Workspace where
  files : FileStore
  journal : List LogEvent

/-- Why a session ends early. -/
inductive SessionFailure where
  /-- What is to be opened is no path at all. -/
  | nulInPath
  /-- It cannot be told whether a file exists. -/
  | file (error : FileError)
  /-- A file that has to be read cannot be. -/
  | unreadable (path : Path) (failure : ReadFailure)
  /-- A rule, or the reading of a source, failed. -/
  | check (failure : RuleFailure)
  /-- A file that has to be text is not. -/
  | notText (failure : Utf8Failure)
  /-- A text that has to be written has a surrogate that stands alone. -/
  | notWritable
  /-- The settings have an integer with too many digits. -/
  | integerTooLong (digits : Nat)
  /-- The settings have arrays and objects in one another for which there is no room. -/
  | nestedTooDeep
  /-- Somebody who is asked about a fix does not answer. -/
  | unanswered
  deriving DecidableEq, Repr

/-- What is done on a workspace. -/
abbrev Session := ExceptT SessionFailure (StateM Workspace)

namespace Session

/-- Logs an event. -/
def log (e : LogEvent) : Session Unit :=
  modify fun w => { w with journal := w.journal ++ [e] }

/-- Logs events. -/
def logAll (es : List LogEvent) : Session Unit :=
  modify fun w => { w with journal := w.journal ++ es }

/-- The files as they are now. -/
def files : Session FileStore := do
  return (← get).files

/-- Puts other files in the place of all there are. -/
def setFiles (files : FileStore) : Session Unit :=
  modify fun w => { w with files := files }

end Session

/-! ## §2. Reading sources. -/

/-- The text of a file, or why it cannot be read. -/
def Session.readText (path : Path) : Session (Except ReadFailure Text) := do
  if path.hasNul then throw .nulInPath
  return (← files).readText path

/-- Whether a path leads to a file or a folder. -/
def Session.exists? (path : Path) : Session Bool := do
  match (← files).exists? path with
  | .ok found => return found
  | .error error => throw (.file error)

/-- The source of a text, as a part of a session. -/
def Session.sourceOfText (path : Path) (text : Text) : Session Source := do
  match Source.ofText path text with
  | .error failure => throw (.check (.scan failure))
  | .ok source =>
      unless source.complaints.isEmpty do
        log (.recovered source.complaints.length path)
      return source

/-- The source in a file, or why the file cannot be read. -/
def Session.readSource (path : Path) : Session (Except ReadFailure Source) := do
  match ← readText path with
  | .error failure => return .error failure
  | .ok text => return .ok (← sourceOfText path text)

/-- The source in a file. -/
def Session.source (path : Path) : Session Source := do
  match ← readSource path with
  | .error failure => throw (.unreadable path failure)
  | .ok source => return source

/-! ## §3. Reading settings. -/

/-- Where a project in the given folder has its settings. -/
def settingsPath (folder : Path) : Path :=
  (folder.child ".deploy-kit").child "patterns.json"

/-- What a text says as settings, or nothing when it is no valid settings.  What a value has
to be like for that is up to `validate`. -/
def Settings.ofText? (validate : Json → Option Settings) (room : Nat) (t : Text) :
    Except JsonFailure (Option Settings) :=
  match Json.read room t with
  | .error .malformed => .ok none
  | .error failure => .error failure
  | .ok value => .ok (validate value)

/-- The settings of the project in a folder, or in the working directory, as `validate` finds
them valid, read where there is room for so many arrays and objects in one another.  A project
without settings, or with invalid ones, has the standard settings. -/
def Session.settingsBy (validate : Json → Option Settings) (room : Nat) (folder : Option Path) :
    Session Settings := do
  let path := settingsPath (folder.getD (← files).homePath)
  if ← exists? path then
    match ← readText path with
    | .error (.encoding failure) => throw (.notText failure)
    | .error (.file _) | .error (.system _) =>
        log (.settingsInvalid path)
        return .standard
    | .ok text =>
        match Settings.ofText? validate room text with
        | .error (.integerTooLong digits) => throw (.integerTooLong digits)
        | .error .nestedTooDeep => throw .nestedTooDeep
        | .error .malformed | .ok none =>
            log (.settingsInvalid path)
            return .standard
        | .ok (some settings) =>
            log (.settingsLoaded path)
            return settings
  else return .standard

/-- The settings of the project in a folder, or in the working directory. -/
def Session.settings (folder : Option Path) : Session Settings :=
  settingsBy (fun value => (Settings.read value).toOption) Json.usualRoom folder

end StackLint

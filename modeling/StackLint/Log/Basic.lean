/-
  StackLint.Log.Basic
  ───────────────────
  **LOGGING.**

  A level says how important a log record is.  Levels are numbers, some of
  which have names, a few even two.

  All loggers hang below one root, whose threshold and style count for all of
  them.  Nothing is written before logging is set up, and setting it up again
  replaces what was set up before.
-/
import StackLint.Text.UpperCase

namespace StackLint

/-! ## §1. Levels. -/

/-- How important a log record is. -/
abbrev LogLevel := Int

namespace LogLevel

/-- No level of its own. -/
def unset : LogLevel := 0

/-- Details for whoever looks for a fault. -/
def debug : LogLevel := 10

/-- What happens, for the record. -/
def info : LogLevel := 20

/-- Something to look after. -/
def warning : LogLevel := 30

/-- Something failed. -/
def error : LogLevel := 40

/-- Nothing works any more. -/
def critical : LogLevel := 50

/-- Names of levels.  The first name of a level is the one that records
show. -/
def names : List (Text × LogLevel) :=
  [("NOTSET", unset), ("DEBUG", debug), ("INFO", info), ("WARNING", warning), ("WARN", warning),
   ("ERROR", error), ("CRITICAL", critical), ("FATAL", critical)]

/-- The level of a name in any letter case. -/
def ofName? (name : Text) : Option LogLevel :=
  names.lookup name.toUpper

/-- How a record shows its level. -/
def text (level : LogLevel) : Text :=
  match names.find? fun entry => entry.2 = level with
  | some (name, _) => name
  | none => s!"Level {level}"

end LogLevel

/-! ## §2. Loggers. -/

/-- The name of the root logger. -/
def rootLoggerName : Text := "deploy_kit"

/-- The full name of the logger of a component, or of the root. -/
def loggerName : Option Text → Text
  | none | some [] => rootLoggerName
  | some component => rootLoggerName ++ "." ++ component

/-! ## §3. Set-up. -/

/-- The level that is asked for: none in particular, a number or a name. -/
inductive LevelRequest where
  | standard
  | number (level : LogLevel)
  | named (name : Text)
  deriving DecidableEq, Repr

/-- The level that a request stands for.  Names that no level has stand for the
standard one. -/
def LevelRequest.level : LevelRequest → LogLevel
  | .standard => .info
  | .number level => level
  | .named name => (LogLevel.ofName? name).getD .info

/-- How logging is set up. -/
structure LogSetup where
  threshold : LogLevel
  /-- Records also show where they come from. -/
  verbose : Bool
  deriving DecidableEq, Repr

/-- Sets logging up.  Verbose logging shows every record there is a name
for. -/
def LogSetup.make (request : LevelRequest) (verbose : Bool) : LogSetup where
  threshold := if verbose then .debug else request.level
  verbose := verbose

/-! ## §4. Records. -/

/-- A record on its way to the log. -/
structure LogRecord where
  logger : Text
  level : LogLevel
  message : Text
  deriving DecidableEq, Repr

/-- The threshold that holds where none is set. -/
def LogSetup.defaultThreshold : LogLevel := .warning

namespace LogSetup

/-- Whether a record of the level is written.  A record without a level never
is. -/
def accepts (s : LogSetup) (level : LogLevel) : Bool :=
  let threshold := if s.threshold = .unset then defaultThreshold else s.threshold
  LogLevel.unset < level && threshold ≤ level

/-- The line that a record becomes, made at the given time at the given place
of the program. -/
def line (s : LogSetup) (time place : Text) (r : LogRecord) : Text :=
  let origin : List Text := if s.verbose then [place] else []
  Text.join " - " ([time, r.logger, LogLevel.text r.level] ++ origin ++ [r.message]) ++ "\n"

end LogSetup

/-- What is written of a record under a set-up, or before there is one. -/
def written (s : Option LogSetup) (time place : Text) (r : LogRecord) : Text :=
  match s with
  | none => []
  | some s => if s.accepts r.level then s.line time place r else []

end StackLint

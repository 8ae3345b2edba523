/-!
# Log levels

The levels of log records and their names; a level between the named ones is named by its number.
-/

namespace Testbed

/-- The level of a log record. -/
abbrev Level := Int

namespace Level

/-- The level of details. -/
def debug : Level := 10

/-- The level of notices. -/
def info : Level := 20

/-- The level of warnings. -/
def warning : Level := 30

/-- The level of errors. -/
def error : Level := 40

/-- The level of fatal errors. -/
def critical : Level := 50

/-- The named levels. -/
def named : List (Level × String) :=
  [(debug, "DEBUG"), (info, "INFO"), (warning, "WARNING"), (error, "ERROR"),
    (critical, "CRITICAL"), (0, "NOTSET")]

/-- The name of a level. -/
def name (l : Level) : String :=
  ((named.find? fun p => p.1 == l).map Prod.snd).getD s!"Level {(l : Int)}"

/-- The level with a name. -/
def ofName? (n : String) : Option Level := (named.find? fun p => p.2 == n).map Prod.fst

end Level

/-- A log record: its level and its text. -/
structure LogRecord where
  level : Level
  text : String
  deriving Repr, DecidableEq

/-- The record as one line of text. -/
def LogRecord.line (r : LogRecord) : String := s!"{Level.name r.level} {r.text}"

end Testbed

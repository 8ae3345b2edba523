import Testbed.Log.Entry
import Testbed.Log.Rotation
import Testbed.Settings.Reading

/-!
# Logging

Where log entries go: to the console as lines or objects and, if a file is configured, to a
rotated log file.  Setting logging up a second time changes nothing unless it is forced.
-/

namespace Testbed

/-- What the console shows. -/
inductive ConsoleEntry where
  | line (text : String)
  | object (j : Json)
  deriving Repr

/-- Where a handler writes. -/
inductive LogTarget where
  | console (json : Bool)
  | file (f : LogFile)
  deriving Repr

/-- A handler: the least level that it takes and where it writes. -/
structure LogHandler where
  level : Level
  target : LogTarget
  deriving Repr

/-- The state of logging. -/
structure Logging where
  level : Level := Level.warning
  handlers : List LogHandler := []
  /-- The loggers of libraries are limited to warnings. -/
  quiet : Bool := false
  configured : Bool := false
  phase : Option String := none
  files : Files := {}
  console : List ConsoleEntry := []
  deriving Repr

namespace Logging

/-- The loggers of libraries that say too much. -/
def noisy : List String := ["docker", "urllib3", "httpx", "httpcore", "asyncio"]

/-- The name of the root of all loggers. -/
def rootName : String := "root"

/-- The time of an entry in the log file. -/
def time : String := "1970-01-01 00:00:00,000"

/-- What stands for a time in an answer. -/
def timeMark : String := "<TIME>"

/-- The logger is one of the noisy ones or below one of them. -/
def isNoisy (logger : String) : Bool :=
  noisy.any fun n => logger == n || logger.startsWith s!"{n}."

/-- The least level at which a logger takes entries. -/
def threshold (l : Logging) (logger : String) : Level :=
  if l.quiet && isNoisy logger then Level.warning else l.level

/-- A handler writes an entry; an entry that cannot be written is dropped. -/
def deliver (l : Logging) (e : LogEntry) (h : LogHandler) : Logging :=
  if e.level < h.level then l
  else
    match h.target with
    | .console true =>
      match e.object with
      | .ok j => { l with console := l.console ++ [.object j] }
      | .error _ => l
    | .console false =>
      match e.line timeMark with
      | .ok t => { l with console := l.console ++ [.line t] }
      | .error _ => l
    | .file f =>
      match e.line time with
      | .ok t => { l with files := f.write l.files t }
      | .error _ => l

/-- An entry is written by every handler, with the current phase as an attribute. -/
def emit (l : Logging) (e : LogEntry) : Logging :=
  let e := { e with
    component := if e.component.isEmpty then rootName else e.component
    attributes := Json.setField "phase" (.ofText? l.phase) e.attributes }
  if e.level ≤ 0 || e.level < l.threshold e.component then l
  else l.handlers.foldl (fun l h => l.deliver e h) l

/-- A text is written by the root logger. -/
def say (l : Logging) (level : Level) (text : String) : Logging :=
  l.emit ⟨rootName, level, .str text, [], []⟩

/-- The state with a file handler added; a file that cannot be opened is reported. -/
def openFile (l : Logging) (s : Settings) (level : Level) (path : String) :
    Except Fault Logging :=
  match l.files.openFile path with
  | .ok (place, files) =>
    let f : LogFile := ⟨place, s.logFileMaxBytes, s.logFileBackupCount.toNat⟩
    .ok { l with files := files, handlers := l.handlers ++ [⟨level, .file f⟩] }
  | .error p =>
    if p.fault.isA Fault.Kind.isOs then
      .ok (l.say Level.warning s!"Could not set up file logging: {p.fault.text}")
    else .error p.fault

/-- The text of the last entry of setting up. -/
def configuredNotice (s : Settings) : String :=
  let file := (Json.ofText? s.logFilePath).display
  s!"Logging configured: level={s.logLevel}, format={s.logFormat}, file={file}"

/-- Sets logging up from the settings. -/
def configure (l : Logging) (s : Settings) : Except Fault Logging := do
  let level := (Level.ofName? s.logLevel).getD Level.info
  let l := { l with level := level, handlers := [⟨level, .console (s.logFormat == "json")⟩] }
  let l ← match s.logFilePath.filter fun p => !p.isEmpty with
    | some path => l.openFile s level path
    | none => .ok l
  .ok ({ l with quiet := true, configured := true }.say Level.debug (configuredNotice s))

/-- Sets logging up unless it is set up; with `force` it is set up again. -/
def setup (l : Logging) (s : Settings) (force : Bool) : Except Fault Logging :=
  if l.configured && !force then .ok l else l.configure s

/-- The console writes objects. -/
def writesObjects (l : Logging) : Bool :=
  l.handlers.any fun h =>
    match h.target with
    | .console json => json
    | .file _ => false

/-! ## Hiding times -/

/-- The shape of a time: digits where a zero stands. -/
def shape : List Char := "0000-00-00 00:00:00,000".toList

/-- The text starts with a time. -/
def startsWithTime : List Char → List Char → Bool
  | [], _ => true
  | _ :: _, [] => false
  | s :: shape, c :: cs => (if s == '0' then c.isDigit else c == s) && startsWithTime shape cs

/-- The text with every time replaced by its mark, `skip` characters being left out first. -/
def hideTimes : Nat → List Char → List Char
  | _, [] => []
  | skip + 1, _ :: cs => hideTimes skip cs
  | 0, c :: cs =>
    if startsWithTime shape (c :: cs) then timeMark.toList ++ hideTimes (shape.length - 1) cs
    else c :: hideTimes 0 cs

end Logging
end Testbed

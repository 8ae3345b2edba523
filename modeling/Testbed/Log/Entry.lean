import Testbed.Json.Printer
import Testbed.Log.Level
import Testbed.Log.Template

/-!
# Written log entries

A log entry as one line of text and as a JSON object.  The object carries the attributes of the
entry; its level and its component are always those of the entry.
-/

namespace Testbed

/-- A log entry. -/
structure LogEntry where
  component : String
  level : Level
  message : Json
  arguments : List Json := []
  attributes : List (String × Json) := []
  deriving Repr

namespace LogEntry

/-- The text of the entry. -/
def text (e : LogEntry) : Except Fault String := Template.fill e.message.display e.arguments

/-- The name of the entry's level, filled up with blanks. -/
def paddedLevel (e : LogEntry) : String :=
  let name := Level.name e.level
  name ++ String.ofList (List.replicate (8 - name.length) ' ')

/-- The entry as a line, after the time at which it was written. -/
def line (e : LogEntry) (time : String) : Except Fault String := do
  .ok s!"{time} | {e.paddedLevel} | {e.component} | {← e.text}\n"

/-- Names of attributes that say how an entry was made; they are not written. -/
def reserved : List String := ["args", "asctime", "created", "exc_info", "exc_text", "filename",
  "funcName", "levelname", "levelno", "lineno", "module", "msecs", "message", "msg", "name",
  "pathname", "process", "processName", "relativeCreated", "stack_info", "thread", "threadName"]

/-- The attribute is written. -/
def isWritten (name : String) : Bool := !reserved.contains name && !name.startsWith "_"

/-- The message and its fields: an object is a message of fields. -/
def content (e : LogEntry) : Except Fault (List (String × Json)) :=
  match e.message with
  | .obj fields => .ok (fields.foldl (fun acc f => Json.setField f.1 f.2 acc)
      [("message", .str "")])
  | _ => e.text.map fun t => [("message", .str t)]

/-- The entry as an object, without its time. -/
def object (e : LogEntry) : Except Fault Json := do
  let all := (← e.content) ++ e.attributes.filter fun a => isWritten a.1
  let all := all ++ [("level", .str (Level.name e.level)), ("component", .str e.component)]
  .ok (.obj ((all.foldl (fun acc f => Json.setField f.1 f.2 acc) []).filter fun f =>
    f.1 != "timestamp"))

end LogEntry
end Testbed

import Testbed.Background.Runtime
import Testbed.Script.Values

/-!
# Scripted jobs

Jobs of the background runtime as scripts describe them in JSON.
-/

namespace Testbed
namespace Script

open Background (Course)

/-- What a job on a runtime with a name sees of its threads. -/
def threads (name : String) : Json :=
  .arr [.str name, .bool true, .bool false, .str s!"{name}-worker"]

/-- The end of a job: it may pause, it may shut the runtime down, and it has a value. -/
def closing (j : Json) : Course Json :=
  let value : Course Json := .ended (.ok ((j.get? "return").getD .null))
  let closed := if j.flagAt "shutdown" then .close value else value
  match (j.given? "sleep").bind Seconds.ofJson? with
  | some seconds => .await (.pause seconds.toFloat) closed
  | none => closed

/-- A job with given fields; `together` are the jobs that it runs side by side. -/
def jobOf (name : String) (j : Json) (together : Option (List (Course Json))) : Course Json :=
  match j.given? "raise", together with
  | some f, _ => .ended (.error (fault f))
  | none, together =>
    if j.flagAt "hang" then .await .never (.ended (.ok .null))
    else if j.flagAt "nested" then .ended (.error Background.deadlock)
    else if j.flagAt "thread" then .await .worker (.ended (.ok (threads name)))
    else
      match together with
      | some parts => .together parts Json.arr
      | none => closing j

mutual

/-- A job on a runtime with a name. -/
def job (name : String) : Json → Course Json
  | .obj fields => jobOf name (.obj fields) (jobsAt name fields)
  | j => jobOf name j none

/-- The jobs that run side by side. -/
def jobsAt (name : String) : List (String × Json) → Option (List (Course Json))
  | [] => none
  | (key, value) :: rest =>
    if key == "gather" then some (jobsOf name value) else jobsAt name rest

/-- The jobs of an array. -/
def jobsOf (name : String) : Json → List (Course Json)
  | .arr xs => jobs name xs
  | _ => []

/-- Several jobs. -/
def jobs (name : String) : List Json → List (Course Json)
  | [] => []
  | j :: js => job name j :: jobs name js

end

end Script
end Testbed

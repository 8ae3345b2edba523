import Testbed.Background.Loop
import Testbed.Json.Basic
import Testbed.Log.Level

/-!
# The background runtime

The runtime on which work is run for callers that wait: its name, its worker threads and its loop.
Here the loop runs for as long as anything but a caller can move it on: callbacks first, then
waits for worker threads, then the pause that ends first.
-/

namespace Testbed

/-- A background runtime. -/
structure Background where
  name : String
  workers : Int
  loop : Background.Loop Json := {}

namespace Background

/-- The name of a runtime that is given none. -/
def standardName : String := "testenv-runtime"

/-- The error of waiting on the runtime's own thread. -/
def deadlock : Fault := failure "run_blocking() called from the background runtime would deadlock"

/-- The log text of a start. -/
def startedNotice (workers : Int) : String := s!"Background runtime started with {workers} workers"

/-- The log texts of shutting down. -/
def closedNotices : List LogRecord :=
  [⟨Level.debug, "Background runtime loop closed"⟩, ⟨Level.debug, "Background runtime shut down"⟩]

/-- A runtime with a number of worker threads; zero or none stands for the configured one. -/
def start (name : String) (workers : Option Int) (configured : Int) :
    Except Fault Background :=
  let n := (workers.filter (· != 0)).getD configured
  if n < 0 then .error (.of .value "max_workers must be greater than 0")
  else .ok { name := name, workers := n }

/-- The runtime takes work. -/
def isRunning (b : Background) : Bool := b.loop.accepting

/-! ## Running the loop -/

namespace Loop

variable {α : Type}

/-- The earlier of two waits; of two at one time, the first. -/
def earlier (a b : Option (Float × Nat)) : Option (Float × Nat) :=
  match a, b with
  | some a, some b => if b.1 < a.1 then some b else some a
  | a, none => a
  | none, b => b

/-- The time when the wait of a job is over, if it ever is. -/
def dueTime? (l : Loop α) (i : Nat) : Option (Float × Nat) :=
  match (l.jobs[i]?).map Job.stage with
  | some (.waiting .now _) => some (l.clock, i)
  | some (.waiting (.later t) _) => some (t, i)
  | _ => none

/-- The job whose wait is over first. -/
def firstDue? (l : Loop α) : Option Nat :=
  (((List.range l.jobs.length).map l.dueTime?).foldl earlier none).map Prod.snd

/-- The loop after at most `fuel` steps that need no caller. -/
def runOn : Nat → Loop α → Loop α
  | 0, l => l
  | fuel + 1, l =>
    match l.turn? <|> l.firstDue?.bind l.wake? with
    | some l => runOn fuel l
    | none => l

/-- More steps than a loop takes. -/
def enough : Nat := 1000000

end Loop

/-! ## Callers -/

/-- The runtime takes a job, whose number is answered. -/
def submit (b : Background) (c : Course Json) : Except Fault (Nat × Background) :=
  (b.loop.submit c).map fun r => (r.1, { b with loop := r.2.runOn Loop.enough })

/-- What the caller has been told of a job. -/
def future? (b : Background) (i : Nat) : Option (Except Fault Json) :=
  (b.loop.jobs[i]?).bind Job.future

/-- What a caller gets who waits for a job; a job that does not end lets the wait expire. -/
def outcome (b : Background) (i : Nat) : Except Fault Json :=
  (b.future? i).getD (.error Fault.expired)

/-- The caller has been told that the job was cancelled. -/
def wasCancelled (b : Background) (i : Nat) : Bool :=
  match b.future? i with
  | some (.error f) => f.isCancelled
  | _ => false

/-- Runs a job and waits for it. -/
def run (b : Background) (c : Course Json) : Except Fault Json × Background :=
  match b.submit c with
  | .ok (i, b) => (b.outcome i, b)
  | .error f => (.error f, b)

/-- The runtime after shutting down. -/
def shutDown (b : Background) : Background :=
  { b with loop := b.loop.shut.runOn Loop.enough }

/-- The log records of a runtime that has become another one. -/
def notices (before after : Background) : List LogRecord :=
  if before.isRunning && !after.isRunning then closedNotices else []

end Background
end Testbed

import Testbed.Fault.Basic

/-!
# Courses of jobs

The course of a job on a background loop: how it ends, or what it waits for and how it goes on from
there.  A job that waits learns either that its wait is over or that it is cancelled, and may go on
in both cases; every course is finite.
-/

namespace Testbed
namespace Background

/-- What a job waits for. -/
inductive Wait where
  /-- Its next turn. -/
  | turn
  /-- The answer of a worker thread. -/
  | worker
  /-- The end of a pause, in seconds. -/
  | pause (seconds : Float)
  /-- Something that never comes. -/
  | never
  deriving Repr

/-- The course of a job. -/
inductive Course (α : Type) where
  | ended (r : Except Fault α)
  | wait (w : Wait) (resume : Except Fault Unit → Course α)
  /-- Runs other jobs side by side and waits for all values, or for the first error. -/
  | gather (parts : List (Course α)) (resume : Except Fault (List α) → Course α)
  /-- Shuts down the runtime that the job runs on. -/
  | close (next : Course α)

namespace Course

variable {α : Type}

/-- The course of a job that has been cancelled and gives in. -/
def abandoned : Course α := .ended (.error Fault.cancelled)

/-- Waits, then goes on unless cancelled. -/
def await (w : Wait) (next : Course α) : Course α :=
  .wait w fun
    | .ok () => next
    | .error f => .ended (.error f)

/-- Runs jobs side by side and ends with what they come to. -/
def together (parts : List (Course α)) (value : List α → α) : Course α :=
  .gather parts fun r => .ended (r.map value)

end Course
end Background
end Testbed

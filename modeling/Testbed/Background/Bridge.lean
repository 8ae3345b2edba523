import Testbed.Background.Loop

/-!
# Shutting down from other threads

A loop whose callers hand in work and shut it down from threads of their own.  Handing in work is
one step, under the lock under which the loop is closed.  The call of shutting down that closes the
loop adds the callback that stops it only afterwards, waits until the loop is over, and returns; any
later call returns at once.  No job ends the thread of the loop itself.
-/

namespace Testbed
namespace Background

/-- How far the call has come that closes the loop. -/
inductive Closing where
  | notYet
  /-- The loop takes no more work. -/
  | closed
  /-- The callback that stops the loop has been added. -/
  | stopped
  | returned
  deriving Repr, DecidableEq

/-- A loop with the call that closes it. -/
structure Bridge (α : Type) where
  loop : Loop α := {}
  closing : Closing := .notYet

namespace Bridge

variable {α : Type}

/-- What happens next. -/
inductive Event (α : Type) where
  | submit (c : Course α)
  | shutdown
  /-- The call that closes the loop goes on. -/
  | proceed
  | turn
  | wake (i : Nat)
  /-- The loop, once stopped, cancels its jobs in some order. -/
  | drain (ids : List Nat)

/-- The bridge with another loop. -/
def withLoop (b : Bridge α) (l : Loop α) : Bridge α := { b with loop := l }

/-- The bridge once work has been handed in; a bridge that is closed refuses it. -/
def submit (b : Bridge α) (c : Course α) : Bridge α :=
  match b.loop.submit c with
  | .ok (_, l) => b.withLoop l
  | .error _ => b

/-- The bridge once it has been shut down: it is closed, or it had been closed before. -/
def shutdown (b : Bridge α) : Bridge α :=
  if b.loop.accepting then { loop := { b.loop with accepting := false }, closing := .closed } else b

/-- The call that closes the bridge goes on: it stops the loop, then waits until it is over. -/
def proceed? (b : Bridge α) : Option (Bridge α) :=
  match b.closing, b.loop.stage with
  | .closed, _ => some { loop := b.loop.push .stop, closing := .stopped }
  | .stopped, .over => some { b with closing := .returned }
  | _, _ => none

/-- A loop that has been stopped cancels the jobs that have not ended, in some order. -/
def drain? (l : Loop α) (ids : List Nat) : Option (Loop α) :=
  match l.stage, l.batch with
  | .stopping, [] =>
    if ids.isPerm l.pending then some (ids.foldl Loop.cancel { l with stage := .draining ids })
    else none
  | _, _ => none

/-- The bridge after an event; none if it cannot happen. -/
def next? (b : Bridge α) : Event α → Option (Bridge α)
  | .submit c => some (b.submit c)
  | .shutdown => some b.shutdown
  | .proceed => b.proceed?
  | .turn => b.loop.turn?.map b.withLoop
  | .wake i => (b.loop.wake? i).map b.withLoop
  | .drain ids => (drain? b.loop ids).map b.withLoop

end Bridge
end Background
end Testbed

import Testbed.World.State

/-!
# Deadlines

A program is bounded by cutting its pauses short: a pause that would reach the deadline ends there,
the program is told that it is cancelled, and what it ends with then counts as an expired bound if
it is the cancellation.
-/

namespace Testbed
namespace Readiness

/-- A cancelled program that ends with the cancellation has hit its bound. -/
def expireCancelled {α : Type} (r : Except Fault α) : Except Fault α :=
  match r with
  | .error f => if f.isCancelled then .error Fault.expired else .error f
  | r => r

/-- Waits until a time, then goes on with a program that has been cancelled. -/
def cutOff {α : Type} (deadline : Float) (rest : Task (Except Fault α)) :
    Task (Except Fault α) :=
  .call (.waitUntil deadline) fun _ => do
    pure (expireCancelled (← rest))

/-- The program, cut off at a time. -/
def withDeadline {α : Type} (deadline : Float) : Task (Except Fault α) → Task (Except Fault α)
  | .done r => .done r
  | .call c next =>
    match c, next with
    | .pause t, next => .call .now fun (now : Float) =>
      if now + t < deadline then
        .call (.pause t) fun r => withDeadline deadline (next r)
      else cutOff deadline (next (.error Fault.cancelled))
    | .waitUntil t, next =>
      if t < deadline then
        .call (.waitUntil t) fun r => withDeadline deadline (next r)
      else cutOff deadline (next (.error Fault.cancelled))
    | .hang, next => cutOff deadline (next (.error Fault.cancelled))
    | c, next => .call c fun r => withDeadline deadline (next r)

/-- The program, cut off when a time has passed. -/
def within {α : Type} (bound : Float) (work : Work α) : Work (Except Fault α) :=
  ExceptT.mk (.call .now fun (now : Float) => do
    let r ← withDeadline (now + bound) work
    match r with
    | .error f => pure (if f.isCancelled then .error f else .ok (.error f))
    | .ok a => pure (.ok (.ok a)))

end Readiness
end Testbed

import Testbed.Fault.Basic
import Testbed.Log.Level
import Testbed.Redaction.Sanitize
import Testbed.Service

/-!
# Polling

A probe is tried until it answers yes or the time is up.  Each attempt is bounded by the time that
remains, the pause after it grows from the initial delay up to the greatest one, and the last
error is reported when the time is up.  Time is abstract: floats when it runs, any ordered numbers
in a proof.
-/

namespace Testbed
namespace Readiness

/-- What polling needs of a kind of time. -/
structure Timescale (τ : Type) where
  add : τ → τ → τ
  sub : τ → τ → τ
  min : τ → τ → τ
  max : τ → τ → τ
  /-- The time is above zero. -/
  positive : τ → Bool
  twice : τ → τ
  /-- The share of a delay that is added for a draw between zero and one. -/
  share : τ → τ → τ
  /-- The least bound of an attempt. -/
  grace : τ

/-- Floats as times. -/
def Timescale.float : Timescale Float where
  add := (· + ·)
  sub := (· - ·)
  min a b := if b < a then b else a
  max a b := if a < b then b else a
  positive x := !(x <= 0.0)
  twice := (· * 2.0)
  share delay draw := delay * 0.1 * draw
  grace := 0.001

/-- What polling asks of its surroundings. -/
structure Surroundings (m : Type → Type) (τ : Type) where
  now : m τ
  pause : τ → m Unit
  draw : m τ
  /-- One attempt within a bound. -/
  attempt : τ → m (Except Fault Bool)
  log : Level → String → m Unit

/-- How long to poll and how to pause. -/
structure Plan (τ : Type) where
  timeout : τ
  initialDelay : τ
  maxDelay : τ
  description : String
  deriving Repr

/-- How polling ended: after how many attempts, and whether the last one succeeded; else with the
last error, if any attempt raised one. -/
inductive Outcome where
  | ready (attempts : Nat)
  | timedOut (attempts : Nat) (last : Option Fault)
  deriving Repr

/-- The log text of a failed attempt. -/
def failedNotice (description : String) (attempt : Nat) (f : Fault) : String :=
  s!"{description} probe failed (attempt {attempt}): {f.sanitize}"

/-- The log text of success after several attempts. -/
def readyNotice (description : String) (attempts : Nat) : String :=
  s!"{description} ready after {attempts} attempts"

section Loop

variable {m : Type → Type} [Monad m] {τ : Type}

/-- The time that remains. -/
def remaining (t : Timescale τ) (s : Surroundings m τ) (p : Plan τ) (start : τ) : m τ := do
  pure (t.sub p.timeout (t.sub (← s.now) start))

/-- At most `fuel` attempts after the first `done` ones, the next pause being `delay`. -/
def loop (t : Timescale τ) (s : Surroundings m τ) (p : Plan τ) (start : τ) :
    Nat → Nat → τ → Option Fault → m Outcome
  | 0, done, _, last => pure (.timedOut done last)
  | fuel + 1, done, delay, last => do
    let bound ← remaining t s p start
    let found ← s.attempt (t.max bound t.grace)
    let attempt := done + 1
    match found with
    | .ok true =>
      if 1 < attempt then s.log Level.info (readyNotice p.description attempt)
      pure (.ready attempt)
    | other =>
      let last ← match other with
        | .error f => do
          if !f.isA (· == .timeout) then
            s.log Level.debug (failedNotice p.description attempt f)
          pure (some f)
        | .ok _ => pure last
      let rest ← remaining t s p start
      if t.positive rest then
        let draw ← s.draw
        s.pause (t.min (t.min (t.add delay (t.share delay draw)) rest) p.maxDelay)
        loop t s p start fuel attempt (t.min (t.twice delay) p.maxDelay) last
      else pure (.timedOut attempt last)

/-- Polls until the probe answers yes or the time is up, with at most `fuel` attempts. -/
def poll (t : Timescale τ) (s : Surroundings m τ) (p : Plan τ) (fuel : Nat) : m Outcome := do
  loop t s p (← s.now) fuel 0 p.initialDelay none

end Loop

/-- More attempts than fit into the time: every pause but the last takes at least the lesser of
the two delays.  Without a delay the time never passes and the bound is out of reach. -/
def attemptBound (p : Plan Float) : Nat :=
  let least := if p.maxDelay < p.initialDelay then p.maxDelay else p.initialDelay
  if 0.0 < least then (p.timeout / least).ceil.toUInt64.toNat + 2 else Nat.pow 2 64

/-- The error of a service that did not become ready in time. -/
def notReady (description : String) (timeout : Seconds) (service : Option String)
    (attempts : Nat) (last : Option Fault) : EnvironmentError where
  cause := .provision .timeout service
  message? := some s!"{description} not ready after {timeout.text} seconds ({attempts} attempts)"
  extra := [("timeout", timeout.toJson), ("attempts", .int attempts)] ++
    (match last with
      | some f => [("last_error", .str f.sanitize)]
      | none => [])

end Readiness
end Testbed

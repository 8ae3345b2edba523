import Mathlib.Algebra.Order.Field.Rat
import Mathlib.Algebra.Order.Floor.Ring
import Mathlib.Data.NNRat.Defs
import Mathlib.Data.Rat.Floor
import Mathlib.Order.Interval.Set.Defs
import Mathlib.Tactic.Linarith
import Mathlib.Tactic.NormNum
import Testbed.Proofs.Entries
import Testbed.Readiness.Probe

/-!
# Polling by exact time

Polling is run against a clock of exact rationals, with probes that take any time and end in any
way.  Which attempt ends the polling is a matter of a time line that mentions no loop; the loop
follows that line, so what polling answers, how long it takes and how often it tries is read off it.
-/

namespace Testbed
namespace Readiness

/-- Rationals as times. -/
def Timescale.rational : Timescale ℚ where
  add := (· + ·)
  sub := (· - ·)
  min := Min.min
  max := Max.max
  positive x := decide (0 < x)
  twice x := x * 2
  share delay draw := delay * (1 / 10) * draw
  grace := 1 / 1000

/-! ## Answers -/

/-- What the caller of polling gets. -/
def Outcome.answer (description : String) (timeout : Seconds) (service : Option String) :
    Outcome → Except Fault Nat
  | .ready n => .ok n
  | .timedOut n last => .error (.environment (notReady description timeout service n last))

theorem await_eq_answer (probe : Work Bool) (timeout : Seconds) (description : String)
    (service : Option String) (initialDelay maxDelay : Option Float) :
    await probe timeout description service initialDelay maxDelay = (do
      let settings ← ExceptT.mk (Program.perform Call.processSettings)
      let plan : Plan Float := {
        timeout := timeout.toFloat
        initialDelay := initialDelay.getD settings.readinessInitialDelay
        maxDelay := maxDelay.getD settings.readinessMaxDelay
        description := description }
      let outcome ← poll Timescale.float (surroundings probe) plan (attemptBound plan)
      Work.ofExcept (outcome.answer description timeout service)) := by
  unfold await
  congr 1
  funext settings
  simp only
  congr 1
  funext outcome
  cases outcome <;> rfl

section NotReady

variable (description : String) (timeout : Seconds) (service : Option String) (n : Nat)
  (last : Option Fault)

/-- The particulars of a timeout leave a detail of another name alone. -/
theorem lookup_notReady {key : String} (kind : key ≠ "kind") (service_kind : key ≠ "service_kind") :
    Json.lookup key (notReady description timeout service n last).details =
      Json.lookup key (notReady description timeout service n last).extra := by
  unfold EnvironmentError.details
  have cause : (notReady description timeout service n last).cause = .provision .timeout service :=
    rfl
  rw [cause]
  cases service with
  | none => simp [Cause.particulars, Cause.particulars.optional, Json.lookup_setField, kind.symm]
  | some s =>
    simp [Cause.particulars, Cause.particulars.optional, Json.lookup_setField, kind.symm,
      service_kind.symm]

theorem lookup_attempts_notReady :
    Json.lookup "attempts" (notReady description timeout service n last).details =
      some (.int n) := by
  rw [lookup_notReady _ _ _ _ _ (by decide) (by decide)]
  rfl

theorem lookup_last_error_notReady :
    Json.lookup "last_error" (notReady description timeout service n last).details =
      last.map fun f => .str f.sanitize := by
  rw [lookup_notReady _ _ _ _ _ (by decide) (by decide)]
  cases last <;> rfl

end NotReady

/-! ## The time line -/

/-- What an attempt does if nobody cuts it off. -/
inductive Behaviour where
  | ends (duration : ℚ≥0) (found : Except Fault Bool)
  | hangs

/-- A plan with delays, and what its surroundings do to each attempt. -/
structure Polling where
  plan : Plan ℚ
  probe : Nat → Behaviour
  /-- The draw before each pause. -/
  jitter : Nat → Set.Icc (0 : ℚ) 1
  /-- The attempts that still count if they end exactly at their bound. -/
  prompt : Nat → Bool
  /-- How long an attempt takes to end once it is cut off. -/
  lag : Nat → ℚ≥0
  initialDelay_pos : 0 < plan.initialDelay
  maxDelay_pos : 0 < plan.maxDelay

namespace Polling

variable (p : Polling)

/-- An attempt that takes some time ends within a bound. -/
def InTime (k : Nat) (bound duration : ℚ) : Prop :=
  duration < bound ∨ duration = bound ∧ p.prompt k

instance (k : Nat) (bound duration : ℚ) : Decidable (p.InTime k bound duration) :=
  inferInstanceAs (Decidable (_ ∨ _))

/-- How long an attempt takes within a bound, and how it ends. -/
def tried (k : Nat) (bound : ℚ) : ℚ × Except Fault Bool :=
  match p.probe k with
  | .ends duration found =>
    if p.InTime k bound duration then (duration, found)
    else (bound + p.lag k, .error Fault.expired)
  | .hangs => (bound + p.lag k, .error Fault.expired)

/-- The delay after an attempt. -/
def delay : Nat → ℚ
  | 0 => p.plan.initialDelay
  | k + 1 => min (delay k * 2) p.plan.maxDelay

/-- The bound of an attempt that begins after some time. -/
def allowance (elapsed : ℚ) : ℚ := max (p.plan.timeout - elapsed) (1 / 1000)

/-- The pause after an attempt that ends after some time. -/
def respite (k : Nat) (elapsed : ℚ) : ℚ :=
  min (min (p.delay k + p.delay k * (1 / 10) * p.jitter k) (p.plan.timeout - elapsed))
    p.plan.maxDelay

/-- The time that has passed when an attempt begins. -/
def start : Nat → ℚ
  | 0 => 0
  | k + 1 =>
    let finish := start k + (p.tried k (p.allowance (start k))).1
    finish + p.respite k finish

/-- The bound of an attempt. -/
def bound (k : Nat) : ℚ := p.allowance (p.start k)

/-- The time that has passed when an attempt ends. -/
def finish (k : Nat) : ℚ := p.start k + (p.tried k (p.bound k)).1

/-- How an attempt ends. -/
def found (k : Nat) : Except Fault Bool := (p.tried k (p.bound k)).2

/-- The pause after an attempt. -/
def pause (k : Nat) : ℚ := p.respite k (p.finish k)

/-- An attempt answers yes within its bound. -/
def Succeeds (k : Nat) : Prop :=
  ∃ duration, p.probe k = .ends duration (.ok true) ∧ p.InTime k (p.bound k) duration

/-- The error that an attempt raises; being cut off counts as a timeout. -/
def raised (k : Nat) : Option Fault :=
  match p.found k with
  | .error f => some f
  | .ok _ => none

/-- The last error of the first `n` attempts. -/
def last : Nat → Option Fault
  | 0 => none
  | n + 1 => (p.raised n).or (last n)

/-- Polling ends with an attempt. -/
def Stops (k : Nat) : Prop := p.Succeeds k ∨ p.plan.timeout ≤ p.finish k

/-- The lesser of the two delays. -/
def leastDelay : ℚ := min p.plan.initialDelay p.plan.maxDelay

/-- More attempts do not fit into the time. -/
def limit : Nat := ⌈p.plan.timeout / p.leastDelay⌉₊ + 1

variable {p} {k n m : Nat} {f : Fault}

theorem start_succ : p.start (k + 1) = p.finish k + p.pause k := rfl

theorem leastDelay_pos : 0 < p.leastDelay := lt_min p.initialDelay_pos p.maxDelay_pos

theorem allowance_pos (elapsed : ℚ) : 0 < p.allowance elapsed :=
  lt_max_of_lt_right (by norm_num)

theorem tried_of_inTime {duration : ℚ≥0} {r : Except Fault Bool} {bound : ℚ}
    (ends : p.probe k = .ends duration r) (inTime : p.InTime k bound duration) :
    p.tried k bound = (↑duration, r) := by
  unfold tried
  rw [ends]
  exact if_pos inTime

/-- An attempt that does not end in time is cut off at its bound. -/
theorem tried_cases (k : Nat) (bound : ℚ) :
    (∃ duration r, p.probe k = .ends duration r ∧ p.InTime k bound duration ∧
      p.tried k bound = (↑duration, r)) ∨
    p.tried k bound = (bound + p.lag k, .error Fault.expired) := by
  cases behaviour : p.probe k with
  | hangs =>
    right
    unfold tried
    rw [behaviour]
  | ends duration r =>
    by_cases inTime : p.InTime k bound duration
    · exact .inl ⟨duration, r, rfl, inTime, tried_of_inTime behaviour inTime⟩
    · right
      unfold tried
      rw [behaviour]
      exact if_neg inTime

theorem found_eq_ok_true_iff : p.found k = .ok true ↔ p.Succeeds k := by
  constructor
  · intro yes
    rcases tried_cases (p := p) k (p.bound k) with ⟨duration, r, ends, inTime, tried⟩ | cut
    · unfold found at yes
      rw [tried] at yes
      cases yes
      exact ⟨duration, ends, inTime⟩
    · unfold found at yes
      rw [cut] at yes
      cases yes
  · rintro ⟨duration, ends, inTime⟩
    unfold found
    rw [tried_of_inTime ends inTime]

theorem start_le_finish : p.start k ≤ p.finish k := by
  have bound := allowance_pos (p := p) (p.start k)
  have lag := (p.lag k).coe_nonneg
  unfold finish
  rcases tried_cases (p := p) k (p.bound k) with ⟨duration, r, -, -, tried⟩ | cut
  · rw [tried]
    linarith [duration.coe_nonneg]
  · rw [cut]
    unfold Polling.bound
    linarith

/-- An attempt takes no longer than its bound, if it ends at once when it is cut off. -/
theorem finish_le (atOnce : p.lag k = 0) : p.finish k ≤ p.start k + p.bound k := by
  unfold finish
  rcases tried_cases (p := p) k (p.bound k) with ⟨duration, r, -, inTime, tried⟩ | cut
  · rw [tried]
    rcases inTime with earlier | ⟨exact, -⟩
    · linarith
    · linarith
  · rw [cut, atOnce]
    simp

theorem leastDelay_le_delay : p.leastDelay ≤ p.delay k := by
  induction k with
  | zero => exact min_le_left _ _
  | succ k ih =>
    refine le_min ?_ (min_le_right _ _)
    linarith [p.leastDelay_pos]

theorem pause_le_maxDelay : p.pause k ≤ p.plan.maxDelay := min_le_right _ _

theorem pause_le_rest : p.pause k ≤ p.plan.timeout - p.finish k :=
  (min_le_left _ _).trans (min_le_right _ _)

/-- A pause takes the lesser of the two delays, unless less time is left. -/
theorem le_pause : min p.leastDelay (p.plan.timeout - p.finish k) ≤ p.pause k := by
  have delay : p.leastDelay ≤ p.delay k := leastDelay_le_delay
  have share : 0 ≤ p.delay k * (1 / 10) * p.jitter k :=
    mul_nonneg (by linarith [p.leastDelay_pos]) (p.jitter k).2.1
  refine le_min (le_min ?_ (min_le_right _ _)) ?_
  · exact (min_le_left _ _).trans (by linarith)
  · exact (min_le_left _ _).trans (min_le_right _ _)

/-- Each pause but the last brings polling nearer to its end by the lesser of the two delays. -/
theorem mul_leastDelay_le_start (k : Nat) :
    min (k * p.leastDelay) p.plan.timeout ≤ p.start k := by
  induction k with
  | zero => exact (min_le_left _ _).trans (by simp [start])
  | succ k ih =>
    have finish := start_le_finish (p := p) (k := k)
    have pause := le_pause (p := p) (k := k)
    rw [start_succ]
    push_cast
    -- A pause that takes less uses up all the time that is left.
    rcases min_le_iff.1 (le_pause (p := p) (k := k)) with delay | rest
    · rcases min_le_iff.1 ih with some | all
      · exact (min_le_left _ _).trans (by linarith)
      · exact (min_le_right _ _).trans (by linarith [p.leastDelay_pos])
    · exact (min_le_right _ _).trans (by linarith)

theorem start_le (k : Nat) : p.start k ≤ max p.plan.timeout 0 := by
  cases k with
  | zero => exact le_max_right _ _
  | succ k =>
    refine le_max_of_le_left ?_
    rw [start_succ]
    linarith [pause_le_rest (p := p) (k := k)]

/-- When an attempt has ended, no more time has passed than polling may take, but for the least
bound of an attempt. -/
theorem finish_le_timeout (atOnce : p.lag k = 0) :
    p.finish k ≤ max p.plan.timeout 0 + 1 / 1000 := by
  have begun := start_le (p := p) k
  have ended := finish_le atOnce
  rcases max_choice (p.plan.timeout - p.start k) (1 / 1000) with rest | grace
  · have bound : p.bound k = p.plan.timeout - p.start k := rest
    linarith [le_max_left p.plan.timeout 0]
  · have bound : p.bound k = 1 / 1000 := grace
    linarith

theorem exists_stops (p : Polling) : ∃ k, p.Stops k ∧ k < p.limit := by
  refine ⟨⌈p.plan.timeout / p.leastDelay⌉₊, .inr ?_, Nat.lt_succ_self _⟩
  have enough : p.plan.timeout ≤ ⌈p.plan.timeout / p.leastDelay⌉₊ * p.leastDelay :=
    (div_le_iff₀ p.leastDelay_pos).1 (Nat.le_ceil _)
  have begun := mul_leastDelay_le_start (p := p) ⌈p.plan.timeout / p.leastDelay⌉₊
  rw [min_eq_right enough] at begun
  exact begun.trans start_le_finish

/-- Polling ends, and with which attempt. -/
theorem exists_first_stop (p : Polling) :
    ∃ m, p.Stops m ∧ (∀ j < m, ¬ p.Stops j) ∧ m < p.limit := by
  classical
  obtain ⟨k, stops, few⟩ := p.exists_stops
  have ending : ∃ k, p.Stops k := ⟨k, stops⟩
  exact ⟨Nat.find ending, Nat.find_spec ending, fun _ => Nat.find_min ending,
    (Nat.find_min' ending stops).trans_lt few⟩

/-! ## Running against the time line -/

/-- What is seen of a run: the time, when each attempt began and ended, and each pause with the
time when it began. -/
structure Watch where
  time : ℚ
  attempts : List (ℚ × ℚ) := []
  pauses : List (ℚ × ℚ) := []
  deriving DecidableEq

/-- The surroundings that act as the polling has it. -/
def surroundings (p : Polling) : Surroundings (StateM Watch) ℚ where
  now := do pure (← get).time
  pause length := modify fun w =>
    { w with time := w.time + length, pauses := w.pauses ++ [(w.time, length)] }
  draw := do pure (p.jitter (← get).pauses.length)
  attempt bound := modifyGet fun w =>
    let (taken, found) := p.tried w.attempts.length bound
    (found, { w with
      time := w.time + taken, attempts := w.attempts ++ [(w.time, w.time + taken)] })
  log _ _ := pure ()

/-- Polls, and answers the caller. -/
def waitUntil (p : Polling) (timeout : Seconds) (service : Option String) (fuel : Nat) :
    StateM Watch (Except Fault Nat) := do
  let outcome ← poll Timescale.rational p.surroundings p.plan fuel
  pure (outcome.answer p.plan.description timeout service)

variable (p) (t₀ : ℚ)

/-- The first `n` attempts, in a run that begins at `t₀`. -/
def attempts (n : Nat) : List (ℚ × ℚ) :=
  (List.range n).map fun k => (t₀ + p.start k, t₀ + p.finish k)

/-- The first `n` pauses. -/
def pauses (n : Nat) : List (ℚ × ℚ) :=
  (List.range n).map fun k => (t₀ + p.finish k, p.pause k)

/-- What has been seen when an attempt begins. -/
def before (k : Nat) : Watch := ⟨t₀ + p.start k, p.attempts t₀ k, p.pauses t₀ k⟩

/-- What has been seen when an attempt has ended. -/
def after (k : Nat) : Watch := ⟨t₀ + p.finish k, p.attempts t₀ (k + 1), p.pauses t₀ k⟩

variable {p t₀}

theorem attempt_before (k : Nat) :
    p.surroundings.attempt (p.bound k) (p.before t₀ k) = (p.found k, p.after t₀ k) := by
  have count : (p.before t₀ k).attempts.length = k := by simp [before, attempts]
  have attempt (bound : ℚ) (w : Watch) : p.surroundings.attempt bound w =
      ((p.tried w.attempts.length bound).2,
        ⟨w.time + (p.tried w.attempts.length bound).1,
          w.attempts ++ [(w.time, w.time + (p.tried w.attempts.length bound).1)], w.pauses⟩) := rfl
  have finish : (p.before t₀ k).time + (p.tried k (p.bound k)).1 = t₀ + p.finish k :=
    add_assoc _ _ _
  have more : (p.before t₀ k).attempts ++ [(t₀ + p.start k, t₀ + p.finish k)] =
      p.attempts t₀ (k + 1) := by
    simp [before, attempts, List.range_succ]
  rw [attempt, count, finish]
  exact congrArg (fun seen => (p.found k, (⟨_, seen, _⟩ : Watch))) more

theorem pause_after (k : Nat) :
    p.surroundings.pause (p.pause k) (p.after t₀ k) = ((), p.before t₀ (k + 1)) := by
  have pause (length : ℚ) (w : Watch) : p.surroundings.pause length w =
      ((), ⟨w.time + length, w.attempts, w.pauses ++ [(w.time, length)]⟩) := rfl
  rw [pause]
  simp [before, after, pauses, List.range_succ, add_assoc, start_succ]

theorem draw_after (k : Nat) :
    p.surroundings.draw (p.after t₀ k) = ((p.jitter k : ℚ), p.after t₀ k) := by
  have count : (p.after t₀ k).pauses.length = k := by simp [after, pauses]
  have draw (w : Watch) :
      p.surroundings.draw w = ((p.jitter w.pauses.length : ℚ), w) := rfl
  rw [draw, count]

theorem remaining_apply (w : Watch) :
    remaining Timescale.rational p.surroundings p.plan t₀ w =
      (p.plan.timeout - (w.time - t₀), w) := rfl

theorem remaining_before (k : Nat) :
    remaining Timescale.rational p.surroundings p.plan t₀ (p.before t₀ k) =
      (p.plan.timeout - p.start k, p.before t₀ k) := by
  have elapsed : (p.before t₀ k).time - t₀ = p.start k := add_sub_cancel_left _ _
  rw [remaining_apply, elapsed]

theorem remaining_after (k : Nat) :
    remaining Timescale.rational p.surroundings p.plan t₀ (p.after t₀ k) =
      (p.plan.timeout - p.finish k, p.after t₀ k) := by
  have elapsed : (p.after t₀ k).time - t₀ = p.finish k := add_sub_cancel_left _ _
  rw [remaining_apply, elapsed]

theorem bind_apply {α β : Type} (x : StateM Watch α) (g : α → StateM Watch β) (w : Watch) :
    (x >>= g) w = g (x w).1 (x w).2 := rfl

/-- What the loop does after an attempt that has not succeeded. -/
def retry (p : Polling) (t₀ : ℚ) (fuel k : Nat) (last : Option Fault) : StateM Watch Outcome := do
  let rest ← remaining Timescale.rational p.surroundings p.plan t₀
  if Timescale.rational.positive rest then
    let draw ← p.surroundings.draw
    p.surroundings.pause (Timescale.rational.min
      (Timescale.rational.min (Timescale.rational.add (p.delay k)
        (Timescale.rational.share (p.delay k) draw)) rest) p.plan.maxDelay)
    loop Timescale.rational p.surroundings p.plan t₀ fuel (k + 1)
      (Timescale.rational.min (Timescale.rational.twice (p.delay k)) p.plan.maxDelay) last
  else pure (.timedOut (k + 1) last)

/-- It goes on with the next attempt as long as time is left. -/
theorem retry_after (fuel k : Nat) (last : Option Fault) :
    p.retry t₀ fuel k last (p.after t₀ k) =
      if 0 < p.plan.timeout - p.finish k then
        loop Timescale.rational p.surroundings p.plan t₀ fuel (k + 1) (p.delay (k + 1)) last
          (p.before t₀ (k + 1))
      else (.timedOut (k + 1) last, p.after t₀ k) := by
  have pause : p.surroundings.pause (Timescale.rational.min
      (Timescale.rational.min (Timescale.rational.add (p.delay k)
        (Timescale.rational.share (p.delay k) (p.jitter k)))
        (p.plan.timeout - p.finish k)) p.plan.maxDelay) (p.after t₀ k) =
      ((), p.before t₀ (k + 1)) := pause_after k
  unfold retry
  rw [bind_apply, remaining_after]
  by_cases rest : 0 < p.plan.timeout - p.finish k
  · have positive : Timescale.rational.positive (p.plan.timeout - p.finish k) = true :=
      decide_eq_true rest
    rw [if_pos rest, if_pos positive, bind_apply, draw_after, bind_apply, pause]
    rfl
  · have positive : ¬ Timescale.rational.positive (p.plan.timeout - p.finish k) = true :=
      fun positive => rest (of_decide_eq_true positive)
    rw [if_neg rest, if_neg positive]
    rfl

theorem loop_succ (fuel k : Nat) :
    loop Timescale.rational p.surroundings p.plan t₀ (fuel + 1) k (p.delay k) (p.last k)
        (p.before t₀ k) =
      match p.found k with
      | .ok true => (.ready (k + 1), p.after t₀ k)
      | _ =>
        if 0 < p.plan.timeout - p.finish k then
          loop Timescale.rational p.surroundings p.plan t₀ fuel (k + 1) (p.delay (k + 1))
            (p.last (k + 1)) (p.before t₀ (k + 1))
        else (.timedOut (k + 1) (p.last (k + 1)), p.after t₀ k) := by
  have attempt : p.surroundings.attempt (Timescale.rational.max (p.plan.timeout - p.start k)
      Timescale.rational.grace) (p.before t₀ k) = (p.found k, p.after t₀ k) := attempt_before k
  rw [loop]
  simp only [bind_apply, remaining_before, attempt]
  cases found : p.found k with
  | error f =>
    have last : p.last (k + 1) = some f := by simp [last, raised, found]
    rw [last]
    refine Eq.trans ?_ (retry_after fuel k (some f))
    -- The log is told of an error or of a timeout, and nobody reads it.
    by_cases quiet : f.isA (· == .timeout)
    · simp only [quiet]
      rfl
    · simp only [quiet]
      rfl
  | ok yes =>
    cases yes with
    | false =>
      have last : p.last (k + 1) = p.last k := by simp [last, raised, found]
      rw [last]
      exact retry_after fuel k (p.last k)
    | true =>
      by_cases again : 1 < k + 1
      · simp only [again]
        rfl
      · simp only [again]
        rfl

/-- How polling ends that ends with an attempt. -/
def ending (p : Polling) (m : Nat) : Outcome :=
  match p.found m with
  | .ok true => .ready (m + 1)
  | _ => .timedOut (m + 1) (p.last (m + 1))

theorem ending_of_succeeds (yes : p.Succeeds m) : p.ending m = .ready (m + 1) := by
  unfold ending
  rw [found_eq_ok_true_iff.2 yes]

theorem ending_of_not_succeeds (no : ¬ p.Succeeds m) :
    p.ending m = .timedOut (m + 1) (p.last (m + 1)) := by
  have found : p.found m ≠ .ok true := no ∘ found_eq_ok_true_iff.1
  unfold ending
  split
  · contradiction
  · rfl

/-- With an attempt that does not end polling the loop goes on. -/
theorem loop_of_not_stops (fuel : Nat) (goes : ¬ p.Stops k) :
    loop Timescale.rational p.surroundings p.plan t₀ (fuel + 1) k (p.delay k) (p.last k)
        (p.before t₀ k) =
      loop Timescale.rational p.surroundings p.plan t₀ fuel (k + 1) (p.delay (k + 1))
        (p.last (k + 1)) (p.before t₀ (k + 1)) := by
  have found : p.found k ≠ .ok true := fun yes => goes (.inl (found_eq_ok_true_iff.1 yes))
  have rest : 0 < p.plan.timeout - p.finish k := by
    by_contra spent
    exact goes (.inr (by linarith))
  rw [loop_succ]
  split
  · contradiction
  · exact if_pos rest

theorem loop_of_stops (fuel : Nat) (stops : p.Stops m) :
    loop Timescale.rational p.surroundings p.plan t₀ (fuel + 1) m (p.delay m) (p.last m)
        (p.before t₀ m) = (p.ending m, p.after t₀ m) := by
  rw [loop_succ]
  by_cases yes : p.Succeeds m
  · rw [ending_of_succeeds yes, found_eq_ok_true_iff.2 yes]
  · have found : p.found m ≠ .ok true := yes ∘ found_eq_ok_true_iff.1
    have spent : ¬ 0 < p.plan.timeout - p.finish m := by
      have late := stops.resolve_left yes
      linarith
    rw [ending_of_not_succeeds yes]
    split
    · contradiction
    · exact if_neg spent

/-- The loop ends with the first attempt that ends polling. -/
theorem loop_eq {fuel : Nat} (stops : p.Stops m) (first : ∀ j < m, ¬ p.Stops j) (h : k ≤ m)
    (enough : m < k + fuel) :
    loop Timescale.rational p.surroundings p.plan t₀ fuel k (p.delay k) (p.last k)
        (p.before t₀ k) = (p.ending m, p.after t₀ m) := by
  induction fuel generalizing k with
  | zero => omega
  | succ fuel ih =>
    rcases h.eq_or_lt with rfl | earlier
    · exact loop_of_stops fuel stops
    · rw [loop_of_not_stops fuel (first k earlier)]
      exact ih earlier (by omega)

theorem waitUntil_eq {timeout : Seconds} {service : Option String} {fuel : Nat}
    (stops : p.Stops m) (first : ∀ j < m, ¬ p.Stops j) (enough : m < fuel) :
    p.waitUntil timeout service fuel { time := t₀ } =
      ((p.ending m).answer p.plan.description timeout service, p.after t₀ m) := by
  have begun : p.before t₀ 0 = { time := t₀ } := by simp [before, start, attempts, pauses]
  have polled : poll Timescale.rational p.surroundings p.plan fuel { time := t₀ } =
      (p.ending m, p.after t₀ m) := by
    have looped : loop Timescale.rational p.surroundings p.plan t₀ fuel 0 (p.delay 0) (p.last 0)
        (p.before t₀ 0) = (p.ending m, p.after t₀ m) :=
      loop_eq stops first (Nat.zero_le m) (by omega)
    rw [begun] at looped
    exact looped
  unfold waitUntil
  rw [bind_apply, polled]
  rfl

/-! ## What polling answers -/

theorem last_eq_none_iff : p.last n = none ↔ ∀ k < n, p.raised k = none := by
  induction n with
  | zero => simp [last]
  | succ n ih =>
    have both : p.last (n + 1) = none ↔ p.raised n = none ∧ p.last n = none := by simp [last]
    rw [both, ih, Nat.forall_lt_succ_right, and_comm]

/-- The last error is that of an attempt after which no other one has raised. -/
theorem last_eq (raised : p.raised k = some f) (h : k < n)
    (later : ∀ j < n, k < j → p.raised j = none) : p.last n = some f := by
  induction n with
  | zero => omega
  | succ n ih =>
    rcases (Nat.lt_succ_iff.1 h).eq_or_lt with rfl | earlier
    · simp [last, raised]
    · have quiet : p.raised n = none := later n (Nat.lt_succ_self n) earlier
      simpa [last, quiet] using ih earlier fun j hj => later j (hj.trans (Nat.lt_succ_self n))

/-- What the error of polling says of the first `n` attempts. -/
structure Reports (p : Polling) (service : Option String) (n : Nat) (e : EnvironmentError) :
    Prop where
  cause : e.cause = .provision .timeout service
  attempts : Json.lookup "attempts" e.details = some (.int n)
  last_error : ∀ k < n, ∀ f, p.raised k = some f → (∀ j < n, k < j → p.raised j = none) →
    Json.lookup "last_error" e.details = some (.str f.sanitize)
  no_error : Json.lookup "last_error" e.details = none ↔ ∀ k < n, p.raised k = none

theorem reports_notReady (p : Polling) (description : String) (timeout : Seconds)
    (service : Option String) (n : Nat) :
    p.Reports service n (notReady description timeout service n (p.last n)) where
  cause := rfl
  attempts := lookup_attempts_notReady _ _ _ _ _
  last_error k h f raised later := by
    rw [lookup_last_error_notReady, last_eq raised h later]
    rfl
  no_error := by
    rw [lookup_last_error_notReady, Option.map_eq_none_iff]
    exact last_eq_none_iff

/-- What polling answers, and what has been seen of it.  Attempts are counted from one in the
answer and from zero on the time line. -/
structure Settles (p : Polling) (service : Option String) (t₀ : ℚ)
    (answer : Except Fault Nat) (w : Watch) : Prop where
  attempts : w.attempts = p.attempts t₀ w.attempts.length
  /-- The answer is the first attempt to say yes within its bound, if all before ended in time. -/
  ready : ∀ n, answer = .ok n ↔ ∃ k, n = k + 1 ∧ p.Succeeds k ∧
    ∀ j < k, ¬ p.Succeeds j ∧ p.finish j < p.plan.timeout
  timedOut : (∀ n, answer ≠ .ok n) →
    ∃ e, answer = .error (.environment e) ∧ p.Reports service w.attempts.length e

/-- Polling answers the number of the attempt that succeeds in time, or reports how many attempts
were made and the last error of them. -/
theorem waitUntil_settles (p : Polling) (timeout : Seconds) (service : Option String) (t₀ : ℚ)
    {fuel : Nat} (enough : p.limit ≤ fuel) :
    ∃ answer w, p.waitUntil timeout service fuel { time := t₀ } = (answer, w) ∧
      p.Settles service t₀ answer w := by
  obtain ⟨m, stops, first, few⟩ := p.exists_first_stop
  have made : (p.after t₀ m).attempts.length = m + 1 := by simp [after, Polling.attempts]
  refine ⟨_, _, waitUntil_eq stops first (few.trans_le enough), ?_, fun n => ⟨?_, ?_⟩, ?_⟩
  · rw [made]
    rfl
  · intro answer
    by_cases yes : p.Succeeds m
    · rw [ending_of_succeeds yes] at answer
      cases answer
      refine ⟨m, rfl, yes, fun j earlier => ⟨fun success => first j earlier (.inl success), ?_⟩⟩
      exact not_le.1 fun late => first j earlier (.inr late)
    · rw [ending_of_not_succeeds yes] at answer
      cases answer
  · rintro ⟨k, rfl, yes, inTime⟩
    -- Polling ends with this very attempt: it stops here, and nothing stops it before.
    have same : m = k := by
      rcases lt_trichotomy m k with before | same | beyond
      · rcases stops with success | late
        · exact absurd success (inTime m before).1
        · exact absurd late (not_le.2 (inTime m before).2)
      · exact same
      · exact absurd (.inl yes) (first k beyond)
    subst same
    rw [ending_of_succeeds yes]
    rfl
  · intro unanswered
    have no : ¬ p.Succeeds m := fun yes => unanswered (m + 1) (by rw [ending_of_succeeds yes]; rfl)
    rw [ending_of_not_succeeds no, made]
    exact ⟨_, rfl, reports_notReady p _ _ _ _⟩

/-- A service that first says no, then refuses, and then does not answer. -/
def reluctant : Polling where
  plan := ⟨1, 1 / 4, 1 / 2, "service"⟩
  probe
    | 0 => .ends (1 / 10) (.ok false)
    | 1 => .ends (1 / 10) (.error (.of .connectionRefused "refused"))
    | _ => .hangs
  jitter _ := ⟨1, by norm_num⟩
  prompt _ := false
  lag _ := 0
  initialDelay_pos := by norm_num
  maxDelay_pos := by norm_num

theorem reluctant_limit : reluctant.limit = 5 := by
  norm_num [limit, leastDelay, reluctant]

theorem reluctant_settles :
    reluctant.limit ≤ 5 ∧
      ∃ answer w, reluctant.waitUntil (.whole 1) (some "postgres") 5 { time := 0 } = (answer, w) ∧
        reluctant.Settles (some "postgres") 0 answer w :=
  ⟨reluctant_limit.le, waitUntil_settles _ _ _ _ reluctant_limit.le⟩

example : (reluctant.waitUntil (.whole 1) none 5 { time := 0 }).2.attempts.length = 3 := by
  decide +kernel

/-! ## How long polling takes -/

/-- What is seen of a run that ends in time: what it takes, its pauses, and how often it tries. -/
structure Bounded (p : Polling) (t₀ : ℚ) (w : Watch) : Prop where
  elapsed : w.time - t₀ ≤ max p.plan.timeout 0 + 1 / 1000
  pauses : ∀ pause ∈ w.pauses,
    pause.2 ≤ p.plan.maxDelay ∧ pause.2 ≤ p.plan.timeout - (pause.1 - t₀)
  attempts : 0 < p.plan.timeout →
    (w.attempts.length : ℤ) ≤ 1 + ⌈p.plan.timeout / min p.plan.initialDelay p.plan.maxDelay⌉
  once : p.plan.timeout ≤ 0 → w.attempts.length = 1

theorem limit_eq_one (spent : p.plan.timeout ≤ 0) : p.limit = 1 := by
  have nothing : ⌈p.plan.timeout / p.leastDelay⌉₊ = 0 :=
    Nat.ceil_eq_zero.2 (div_nonpos_of_nonpos_of_nonneg spent p.leastDelay_pos.le)
  simp [limit, nothing]

theorem limit_eq (some : 0 < p.plan.timeout) :
    (p.limit : ℤ) = 1 + ⌈p.plan.timeout / p.leastDelay⌉ := by
  have ceil := Int.natCast_ceil_eq_ceil (div_pos some p.leastDelay_pos).le
  unfold limit
  push_cast
  rw [ceil, add_comm]

/-- Polling whose attempts end at once when they are cut off comes to an end by itself, whatever
the attempts that it may make, and takes no more time and tries no more often than its plan
says. -/
theorem waitUntil_bounded (p : Polling) (timeout : Seconds) (service : Option String) (t₀ : ℚ)
    (atOnce : ∀ k, p.lag k = 0) :
    ∃ answer w, (∀ fuel, p.limit ≤ fuel →
      p.waitUntil timeout service fuel { time := t₀ } = (answer, w)) ∧ p.Bounded t₀ w := by
  obtain ⟨m, stops, first, few⟩ := p.exists_first_stop
  have made : (p.after t₀ m).attempts.length = m + 1 := by simp [after, Polling.attempts]
  refine ⟨_, _, fun fuel enough => waitUntil_eq stops first (few.trans_le enough), ?_, ?_, ?_, ?_⟩
  · have time : (p.after t₀ m).time - t₀ = p.finish m := add_sub_cancel_left _ _
    rw [time]
    exact finish_le_timeout (atOnce m)
  · intro pause taken
    obtain ⟨k, -, rfl⟩ := List.mem_map.1 taken
    refine ⟨pause_le_maxDelay, ?_⟩
    rw [add_sub_cancel_left]
    exact pause_le_rest
  · intro some
    rw [made]
    exact (Int.ofNat_le.2 few).trans (limit_eq some).le
  · intro spent
    rw [made]
    have few := few.trans_eq (limit_eq_one spent)
    omega

theorem reluctant_bounded :
    (∀ k, reluctant.lag k = 0) ∧
      ∃ answer w, (∀ fuel, reluctant.limit ≤ fuel →
        reluctant.waitUntil (.whole 1) none fuel { time := 0 } = (answer, w)) ∧
        reluctant.Bounded 0 w :=
  ⟨fun _ => rfl, waitUntil_bounded _ _ _ _ fun _ => rfl⟩

end Polling
end Readiness
end Testbed

import Testbed.Background.Runtime
import Testbed.Proofs.Dwindling

/-!
# Accepted work is completed

The guarantee of a loop that is shut down from other threads (`Bridge.Delivers`), for every order in
which its callers, the call that closes it and its jobs go on: work is refused, or it becomes one
job, whose end is told once and no later than the call returns; and the call does return.
-/

namespace Testbed
namespace Background

variable {α : Type} {i : Nat} {j k : Job α} {w w' : Work α} {c : Course α} {os : List (Course α)}

/-- Accepted work has become a job. -/
def Job.isMade (j : Job α) : Bool :=
  match j.stage with
  | .accepted _ => false
  | _ => true

theorem Job.isMade_eq_true : j.isMade = true ↔ ∀ d, j.stage ≠ .accepted d := by
  unfold isMade
  cases j.stage <;> simp

namespace Bridge

variable {b n : Bridge α} {tr u v : List (Moment α)} {x y : Moment α}

/-! ## What callers see -/

/-- What the caller has been told of a job. -/
def future? (b : Bridge α) (i : Nat) : Option (Except Fault α) := (b.loop.jobs[i]?).bind Job.future

/-- The job has been made. -/
def isMade (b : Bridge α) (i : Nat) : Bool := (b.loop.jobs[i]?).any Job.isMade

/-- The caller has been told how the job has ended. -/
def isAnswered (b : Bridge α) (i : Nat) : Bool := (b.future? i).isSome

namespace Moment

/-- Something begins to hold of the bridge. -/
def begins (P : Bridge α → Bool) (x : Moment α) : Bool := !P x.before && P x.after

/-- Work is accepted under a number. -/
structure Accepts (x : Moment α) (c : Course α) (i : Nat) : Prop where
  event : x.event = .submit c
  notYet : x.before.closing = .notYet
  number : x.before.loop.submit c = .ok (i, x.after.loop)

end Moment

theorem isMade_eq_true : b.isMade i = true ↔
    ∃ j, b.loop.jobs[i]? = some j ∧ ∀ d, j.stage ≠ .accepted d := by
  rw [isMade, Option.any_eq_true]
  simp only [Job.isMade_eq_true]

theorem future?_eq_some {r : Except Fault α} :
    b.future? i = some r ↔ ∃ j, b.loop.jobs[i]? = some j ∧ j.future = some r :=
  Option.bind_eq_some_iff

theorem isAnswered_eq_true : b.isAnswered i = true ↔
    ∃ j r, b.loop.jobs[i]? = some j ∧ j.future = some r := by
  rw [isAnswered, Option.isSome_iff_exists]
  constructor
  · rintro ⟨r, h⟩
    rcases future?_eq_some.1 h with ⟨j, hi, hf⟩
    exact ⟨j, r, hi, hf⟩
  · rintro ⟨j, r, hi, hf⟩
    exact ⟨r, future?_eq_some.2 ⟨j, hi, hf⟩⟩

theorem future?_of_stays {r : Except Fault α} (h : b.loop.work.Stays n.loop.work)
    (told : b.future? i = some r) : n.future? i = some r := by
  rcases future?_eq_some.1 told with ⟨j, hi, hf⟩
  rcases h i j hi with ⟨k, hk, stays⟩
  exact future?_eq_some.2 ⟨k, hk, stays.future r hf⟩

section New

variable (run : Run ({} : Bridge α) tr b) (outside : Hands Course.Outside tr)

include run outside

end New

/-- When the loop is over, the caller has been told how each job ended. -/
theorem Sound.answered (sound : b.Sound) (isOver : b.loop.stage = .over)
    (hi : b.loop.jobs[i]? = some j) (ho : j.owner = none) :
    b.isMade i = true ∧ b.isAnswered i = true := by
  rcases sound.atEnd isOver with ⟨none, covered⟩
  -- Every job of a caller has ended, for the loop waits for all that it has cancelled.
  rcases covered.each hi ho with ⟨r, hr⟩ | among
  · refine ⟨isMade_eq_true.2 ⟨j, hi, ?_⟩, ?_⟩
    · intro d hd
      cases hr.symm.trans hd
    · cases hf : j.future with
      | some x => exact isAnswered_eq_true.2 ⟨j, x, hi, hf⟩
      | none =>
        -- Otherwise it would still need the callback that tells the caller.
        have needed : j.needs i = some (.settle i) := by simp [Job.needs, hr, ho, hf]
        have present := sound.work.attended hi needed
        simp [none] at present
  · cases among

/-! ## Work that is handed in -/

/-- Work is accepted under the next number. -/
theorem Moment.Accepts.eq (h : x.Accepts c i) :
    x.before.loop.accepting = true ∧ i = x.before.loop.jobs.length ∧
      x.after.loop = x.before.loop.taken c := by
  have number := h.number
  cases accepting : x.before.loop.accepting with
  | false => cases number.symm.trans (submit_refused accepting c).1
  | true =>
    have same := Except.ok.inj (number.symm.trans (submit_accepted accepting c).1)
    exact ⟨rfl, congrArg Prod.fst same, congrArg Prod.snd same⟩

theorem Moment.Accepts.new (h : x.Accepts c i) :
    x.before.loop.jobs[i]? = none ∧ x.after.loop.jobs[i]? = some { stage := .accepted c } := by
  rcases h.eq with ⟨-, rfl, same⟩
  refine ⟨List.getElem?_eq_none le_rfl, ?_⟩
  rw [same]
  simp [Loop.taken, Loop.push]

/-- Later on, the job with the number has the origin that was accepted, and no owner. -/
theorem Moment.Accepts.origin (h : x.Accepts c i) (run : Run ({} : Bridge α) (u ++ x :: v) n)
    (outside : Hands Course.Outside (u ++ x :: v)) :
    ∃ os j, n.Tracked os ∧ os[i]? = some c ∧ n.loop.jobs[i]? = some j ∧ j.owner = none := by
  rcases run.at with ⟨front, step, rest⟩
  rcases front.tracked tracked_new outside.front with ⟨os, tracked⟩
  have taken := tracked.takes h.eq.1 (outside x (by simp) c h.event)
  have same : x.after = x.before.withLoop (x.before.loop.taken c) := by
    rw [h.event, next?, (submit_accepted h.eq.1 c).2] at step
    exact (Option.some.inj step).symm
  rw [← same] at taken
  rcases rest.tracked taken outside.rest with ⟨more, later⟩
  rcases run.stays outside i _ h.new.2 with ⟨j, hi, stays⟩
  refine ⟨_, j, later, ?_, hi, stays.owner⟩
  have number : i = os.length := h.eq.2.1.trans tracked.traced.length.symm
  simp [number]

theorem run_of_moment (run : Run ({} : Bridge α) (u ++ x :: v) n) :
    Run ({} : Bridge α) (u ++ [x]) x.after := by
  rcases run.at with ⟨front, step, -⟩
  exact .tail front step

/-- Nobody is told anything of a job before it has been accepted. -/
theorem Moment.Accepts.after (h : x.Accepts c i) (run : Run ({} : Bridge α) (u ++ x :: v) n)
    (outside : Hands Course.Outside (u ++ x :: v)) (hy : y ∈ u ++ x :: v)
    (told : y.begins (·.isAnswered i) = true) : y ∈ v := by
  rw [Moment.begins, Bool.and_eq_true] at told
  rcases isAnswered_eq_true.1 told.2 with ⟨j, r, hi, hf⟩
  -- Before, there was no such job; at the moment itself, nobody had been told anything of it.
  rcases List.mem_append.1 hy with early | late
  · rcases List.append_of_mem early with ⟨u₁, u₂, rfl⟩
    rcases run.at.1.stays outside.front i j hi with ⟨k, hk, -⟩
    cases h.new.1.symm.trans hk
  · rcases List.mem_cons.1 late with rfl | late
    · cases h.new.2.symm.trans hi
      cases hf
    · exact late

/-- What the caller is told is what the accepted work comes to. -/
theorem Moment.Accepts.answer (h : x.Accepts c i) (run : Run ({} : Bridge α) (u ++ x :: v) n)
    (outside : Hands Course.Outside (u ++ x :: v)) (hy : y ∈ u ++ x :: v)
    (told : y.begins (·.isAnswered i) = true) :
    ∃ r, c.Comes y.after.loop.stage.hasCancelled r ∧ n.future? i = some (Loop.crossing r) := by
  rcases List.append_of_mem (h.after run outside hy told) with ⟨v₁, v₂, rfl⟩
  -- Up to the moment at which the caller is told, it is a run of its own.
  have split : u ++ x :: (v₁ ++ y :: v₂) = (u ++ x :: v₁) ++ y :: v₂ := by simp
  rw [split] at run outside
  have here := run_of_moment run
  have outside' : Hands Course.Outside (u ++ x :: v₁ ++ [y]) := by
    intro z hz
    refine outside z ?_
    simp only [List.mem_append, List.mem_cons, List.not_mem_nil, or_false] at hz ⊢
    tauto
  rw [List.append_assoc, List.cons_append] at here outside'
  rcases h.origin here outside' with ⟨os, j, tracked, origin, hi, -⟩
  rw [Moment.begins, Bool.and_eq_true] at told
  rcases isAnswered_eq_true.1 told.2 with ⟨k, r, hk, hf⟩
  cases hi.symm.trans hk
  have traced := tracked.traced.each hi origin
  rcases traced.future r hf with ⟨r', hr, rfl⟩
  have stage := traced.stage
  rw [hr] at stage
  exact ⟨r', stage, future?_of_stays (run.stays outside) (future?_eq_some.2 ⟨j, hi, hf⟩)⟩

theorem Run.apart (run : Run ({} : Bridge α) tr b) (outside : Hands Course.Outside tr) :
    tr.Pairwise fun x y => ∀ c d i k, x.Accepts c i → y.Accepts d k → i < k := by
  induction run with
  | refl => exact .nil
  | @tail tr m n e run step ih =>
    refine List.pairwise_append.2 ⟨ih outside.front, List.pairwise_singleton .., ?_⟩
    intro x hx y hy c d i k first second
    cases List.mem_singleton.1 hy
    rcases List.append_of_mem hx with ⟨u, v, rfl⟩
    rcases run.stays outside.front i _ first.new.2 with ⟨j, hi, -⟩
    have inside : i < m.loop.jobs.length := (List.getElem?_eq_some_iff.1 hi).1
    exact second.eq.2.1 ▸ inside

/-- A bridge that has returned does nothing more. -/
theorem Steps.quiet {e : Event α} (sound : b.Sound) (h : Steps b e n)
    (returned : b.closing = .returned) : e.isOwn = false ∧ n = b := by
  have other : e.isOwn = false := by
    cases h with
    | takes | refuses | closes | ignores => rfl
    | proceeds h => simp [proceed?, returned] at h
    | turns _ _ running => exact absurd (sound.returned returned) running
  exact ⟨other, h.still sound other (by simp [returned])⟩

theorem next?_shutdown {l : Loop α} (accepting : l.accepting = true) :
    (({ loop := l } : Bridge α).next? .shutdown).bind (·.next? .proceed) =
      some { loop := l.shut, closing := .stopped } := by
  simp [next?, Bridge.shutdown, proceed?, Loop.shut, accepting]

/-- A loop that runs for as long as it can takes one of the courses that are considered here. -/
theorem run_of_runOn (fuel : Nat) (b : Bridge α) :
    ∃ tr, Run b tr (b.withLoop (b.loop.runOn fuel)) := by
  induction fuel generalizing b with
  | zero => exact ⟨[], .refl⟩
  | succ fuel ih =>
    unfold Loop.runOn
    cases ht : b.loop.turn? with
    | some l =>
      rcases ih (b.withLoop l) with ⟨tr, run⟩
      exact ⟨_, .head (e := .turn) (by rw [next?, ht]; rfl) run⟩
    | none =>
      cases hw : b.loop.firstDue?.bind b.loop.wake? with
      | none => exact ⟨[], .refl⟩
      | some l =>
        rcases Option.bind_eq_some_iff.1 hw with ⟨i, -, hi⟩
        rcases ih (b.withLoop l) with ⟨tr, run⟩
        exact ⟨_, .head (e := .wake i) (by rw [next?, hi]; rfl) run⟩

/-- So does the runtime that is shut down. -/
theorem run_of_shutDown {r : Background} (running : r.isRunning = true) :
    ∃ tr, Run ({ loop := r.loop } : Bridge Json) tr
      { loop := r.shutDown.loop, closing := .stopped } := by
  have closes := next?_shutdown running
  rcases Option.bind_eq_some_iff.1 closes with ⟨m, first, second⟩
  rcases run_of_runOn Loop.enough { loop := r.loop.shut, closing := .stopped } with ⟨tr, run⟩
  exact ⟨_, .head first (.head second run)⟩

end Bridge
end Background
end Testbed

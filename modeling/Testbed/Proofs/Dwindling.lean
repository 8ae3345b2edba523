import Mathlib.Data.Multiset.DershowitzManna
import Testbed.Proofs.Winding

/-!
# Shutting down comes to an end

With each step of a loop less is left to do.  A job that goes on is replaced by itself and the jobs
that it starts, all of which have less in front of them than it had; otherwise a callback is gone.
A bridge that has been closed can always go on until it has returned, so it returns, in whatever
order its jobs go on (`Bridge.Returns`).
-/

namespace Testbed
namespace Background

variable {α : Type} {jobs started : List (Job α)} {i : Nat} {j j' : Job α}
  {used added : List Callback} {os : List (Course α)}

/-! ## One job -/

/-- How much a job has in front of it. -/
noncomputable def Job.height? (j : Job α) : Option Ordinal.{0} :=
  match j.stage with
  | .accepted c => some (c.height + 1)
  | .queued go cancelled => some (j.course go cancelled).height
  | .waiting _ resume => some ((⨆ x, (resume x).height) + 1)
  | .joining _ _ resume => some ((⨆ x, (resume x).height) + 1)
  | .ended _ => none

/-- The jobs have less in front of them. -/
def Below (a : Ordinal.{0}) (jobs : List (Job α)) : Prop :=
  ∀ k ∈ jobs, ∀ b, k.height? = some b → b < a

theorem below_single {a : Ordinal.{0}} (h : ∀ b, j.height? = some b → b < a) : Below a [j] := by
  intro k hk
  rw [List.mem_singleton.1 hk]
  exact h

theorem add_one_lt_add_two {a b : Ordinal.{0}} (h : a ≤ b) : a + 1 < b + 2 :=
  calc a + 1 ≤ b + 1 := by gcongr
    _ < b + 1 + 1 := lt_add_one _
    _ = b + 2 := by rw [add_assoc, one_add_one_eq_two]

/-- A job whose wait is over goes on below the wait. -/
theorem below_resuming {β : Type} {resume : Except Fault β → Course α} {x : Except Fault β}
    (hs : j.stage = .resuming resume x) : Below ((⨆ y, (resume y).height) + 1) [j] := by
  refine below_single ?_
  intro b hb
  rw [Job.height?, hs] at hb
  cases hb
  rw [Order.lt_add_one_iff, Job.course]
  split
  · exact Course.height_resume resume _
  · exact Course.height_resume resume x

/-- A job whose turn has come is replaced by jobs below what is left of its course. -/
theorem below_queued {go cancelled c : Course α} (hs : j.stage = .queued go cancelled)
    (hc : (j.course go cancelled).skip = c) (below : Below c.height jobs) :
    ∃ a, j.height? = some a ∧ Below a jobs := by
  refine ⟨(j.course go cancelled).height, by rw [Job.height?, hs], ?_⟩
  intro k hk b hb
  calc b < c.height := below k hk b hb
    _ ≤ (j.course go cancelled).height := hc ▸ Course.height_skip _

/-- A job that acts is replaced by jobs below it, unless it only learns that another one has ended,
or tells its caller that it has itself. -/
theorem Acts.below (h : Acts jobs i j used j' started added) :
    (∃ a, j.height? = some a ∧ Below a (j' :: started)) ∨
      (j'.height? = j.height? ∧ started = [] ∧ added = [] ∧ used ≠ []) := by
  cases h with
  | @made c hs =>
    refine .inl ⟨c.height + 1, by rw [Job.height?, hs], below_single ?_⟩
    rintro b ⟨⟩
    rw [Order.lt_add_one_iff, Job.course]
    split
    · exact bot_le
    · exact le_rfl
  | ends hs hc =>
    refine .inl (below_queued hs hc (below_single ?_))
    intro b hb
    cases hb
  | @yields go cancelled resume hs hc =>
    refine .inl (below_queued hs hc ?_)
    intro k hk b hb
    calc b < (⨆ x, (resume x).height) + 1 := below_resuming rfl k hk b hb
      _ < (⨆ x, (resume x).height) + 2 := add_one_lt_add_two le_rfl
      _ = (Course.wait .turn resume).height := by rw [Course.height]
  | waits hs hc hd =>
    refine .inl (below_queued hs hc (below_single ?_))
    rintro b ⟨⟩
    rw [Course.height]
    exact add_one_lt_add_two le_rfl
  | gathers hs hc some hids =>
    refine .inl (below_queued hs hc ?_)
    intro k hk b hb
    rcases List.mem_cons.1 hk with rfl | part
    · -- The job itself only waits from now on.
      cases hb
      rw [Course.height]
      exact add_one_lt_add_two (le_max_right _ _)
    · rcases List.mem_map.1 part with ⟨c, hp, rfl⟩
      cases hb
      exact Course.height_part hp
  | tells hs ho hf => exact .inr ⟨by simp [Job.height?, hs], rfl, rfl, by simp⟩
  | joins hs => exact .inl ⟨_, by rw [Job.height?, hs], below_resuming rfl⟩
  | counts hs => exact .inr ⟨by simp [Job.height?, hs], rfl, rfl, by simp⟩
  | wakes hs => exact .inl ⟨_, by rw [Job.height?, hs], below_resuming rfl⟩

/-! ## All jobs -/

/-- What the jobs have in front of them. -/
noncomputable def heights (jobs : List (Job α)) : Multiset Ordinal.{0} :=
  (jobs.filterMap Job.height? : List Ordinal.{0})

/-- How far a loop is from being over. -/
def LoopStage.distance : LoopStage → Nat
  | .turning => 3
  | .stopping => 2
  | .draining _ => 1
  | .over => 0

/-- How far shutting down is from returning. -/
def Closing.distance : Closing → Nat
  | .notYet | .closed => 2
  | .stopped => 1
  | .returned => 0

namespace Bridge

variable {b b' : Bridge α} {l' : Loop α} {e : Event α}

/-- What is left to do.  A callback that waits for the next batch counts twice. -/
noncomputable def size (b : Bridge α) : Nat × Multiset Ordinal.{0} × Nat :=
  (b.closing.distance + b.loop.stage.distance, heights b.loop.jobs,
    2 * b.loop.queue.length + b.loop.batch.length)

/-- Calls from other threads leave a closed bridge as it is. -/
theorem Steps.still (sound : b.Sound) (other : e.isOwn = false) (h : Steps b e b')
    (closed : b.closing ≠ .notYet) : b' = b := by
  cases h with
  | takes accepting | closes accepting => exact absurd (sound.accepting.1 accepting) closed
  | refuses | ignores => rfl
  | proceeds => cases other
  | turns noSubmit noShutdown =>
    cases e with
    | submit c => exact absurd rfl (noSubmit c)
    | shutdown => exact absurd rfl noShutdown
    | _ => cases other

end Bridge
end Background
end Testbed

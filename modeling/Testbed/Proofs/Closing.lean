import Testbed.Proofs.Origins

/-!
# Closing a loop

A loop is stopped by a callback that stands behind everything that it has ever accepted: work is
accepted and the loop closed under one lock, and the callback is added afterwards
(`Work.StopComes`).  Hence nothing that was accepted is left when the loop is stopped
(`Work.Late`), the loop cancels every job that has not ended, and it is over only when each of them
has (`Work.Covered`).
-/

namespace Testbed
namespace Background

variable {α : Type} {s : Bool} {w w' : Work α} {ids : List Nat} {c : Callback}

/-- The callback is about a job that has been made. -/
def Callback.isLate : Callback → Bool
  | .step _ | .settle _ => true
  | .make _ | .stop => false

theorem Changes.added_late {jobs : List (Job α)} {i : Nat} {j j' : Job α}
    {used added : List Callback} {started : List (Job α)}
    (h : Changes s jobs i j used j' started added) (hc : c ∈ added) : c.isLate = true := by
  rcases h.added_cases hc with ⟨k, rfl⟩ | ⟨rfl, -⟩
  · rfl
  · rfl

namespace Work

/-- All callbacks are about jobs that have been made. -/
def Late (w : Work α) : Prop := ∀ c ∈ w.calls, c.isLate = true

/-- The loop is going to be stopped, and by then all jobs have been made. -/
def StopComes (w : Work α) : Prop :=
  ∃ before after, w.calls = before ++ .stop :: after ∧ .stop ∉ before ∧
    ∀ c ∈ after, c.isLate = true

/-- Each job of a caller has ended or is among the given ones, which are all jobs. -/
structure Covered (w : Work α) (ids : List Nat) : Prop where
  known : ∀ i ∈ ids, i < w.jobs.length
  each : ∀ {i : Nat} {j : Job α}, w.jobs[i]? = some j → j.owner = none →
    (∃ r, j.stage = .ended r) ∨ i ∈ ids

theorem Late.moves (late : w.Late) (h : Moves s w w') : w'.Late := by
  intro c hc'
  cases h with
  | idles hc idle => exact late c (hc ▸ List.mem_cons_of_mem _ hc')
  | changes hi h hc =>
    rcases List.mem_append.1 hc' with old | new
    · exact late c (hc ▸ List.mem_append_right _ old)
    · exact h.added_late new

theorem Covered.moves (covered : w.Covered ids) (h : Moves s w w') : w'.Covered ids := by
  cases h with
  | idles hc idle => exact ⟨covered.known, covered.each⟩
  | changes hi h hc =>
    refine ⟨?_, ?_⟩
    · intro k hk
      have := covered.known k hk
      simp only [List.length_append, List.length_set]
      omega
    · intro k x hk ho
      rcases changed_cases hk with ⟨rfl, rfl⟩ | ⟨hne, hk⟩ | ⟨m, rfl, hx⟩
      · rcases covered.each hi (h.owner.symm.trans ho) with ⟨r, hr⟩ | among
        · exact .inl ⟨r, h.ended hr⟩
        · exact .inr among
      · exact covered.each hk ho
      · rcases h.started_cases hx with ⟨⟨d, rfl⟩, -⟩
        cases ho

theorem Late.all (late : w.Late) (h : Relation.ReflTransGen (Moves s) w w') : w'.Late := by
  induction h with
  | refl => exact late
  | tail _ move ih => exact ih.moves move

theorem Covered.all (covered : w.Covered ids) (h : Relation.ReflTransGen (Moves s) w w') :
    w'.Covered ids := by
  induction h with
  | refl => exact covered
  | tail _ move ih => exact ih.moves move

/-- All jobs have been made once all callbacks are about such jobs. -/
theorem Late.made (late : w.Late) (sound : w.Sound) {i : Nat} {j : Job α} {d : Course α}
    (hi : w.jobs[i]? = some j) : j.stage ≠ .accepted d := by
  intro hs
  have needed : j.needs i = some (.make i) := by simp [Job.needs, hs]
  cases late _ (sound.attended hi needed)

/-- The callback that stops the loop moves on as long as others run before it. -/
theorem StopComes.moves {used rest added : List Callback} (coming : w.StopComes)
    (hc : w.calls = used ++ rest) (hs : .stop ∉ used) (hc' : w'.calls = rest ++ added)
    (late : ∀ c ∈ added, c.isLate = true) : w'.StopComes := by
  rcases coming with ⟨before, after, split, first, last⟩
  have after' : ∀ c ∈ after ++ added, c.isLate = true := by
    intro c hc
    rcases List.mem_append.1 hc with old | new
    · exact last c old
    · exact late c new
  -- What is used up ends before the callback, for it does not contain it.
  rcases List.append_eq_append_iff.1 (hc.symm.trans split) with ⟨m, hb, hr⟩ | ⟨m, hu, hr⟩
  · refine ⟨m, after ++ added, by simp [hc', hr], ?_, after'⟩
    intro hm
    exact first (hb ▸ List.mem_append_right _ hm)
  · cases m with
    | nil =>
      refine ⟨[], after ++ added, ?_, by simp, after'⟩
      rw [hc', ← List.nil_append rest, ← hr]
      simp
    | cons c m =>
      cases hr
      exact absurd (hu ▸ List.mem_append_right _ List.mem_cons_self) hs

end Work

/-! ## Steps of a loop -/

theorem Job.isPending_eq_true {j : Job α} : j.isPending = true ↔
    (∀ d, j.stage ≠ .accepted d) ∧ ∀ r, j.stage ≠ .ended r := by
  unfold Job.isPending
  cases j.stage <;> simp

namespace Loop

variable {l l' : Loop α}

/-- The loop with work that it has taken. -/
def taken (l : Loop α) (d : Course α) : Loop α :=
  push { l with jobs := l.jobs ++ [{ stage := .accepted d }] } (.make l.jobs.length)

theorem Turns.accepting (h : Turns l l') : l'.accepting = l.accepting := by
  cases h with
  | drains => exact (foldl_cancel_stage _ _).2
  | _ => rfl

theorem not_stop {jobs : List (Job α)} {i : Nat} {j j' : Job α} {used added : List Callback}
    {started : List (Job α)} (h : Acts jobs i j used j' started added) : .stop ∉ used := by
  intro hc
  cases h <;> simp at hc

theorem mem_pending {i : Nat} :
    i ∈ l.pending ↔ ∃ j, l.jobs[i]? = some j ∧ j.isPending = true := by
  rw [pending, List.mem_filter, List.mem_range, Option.any_eq_true]
  constructor
  · rintro ⟨-, h⟩
    exact h
  · rintro ⟨j, hi, h⟩
    exact ⟨(List.getElem?_eq_some_iff.1 hi).1, j, hi, h⟩

theorem ended_of_haveEnded {ids : List Nat} {i : Nat} {j : Job α} (h : l.haveEnded ids = true)
    (among : i ∈ ids) (hi : l.jobs[i]? = some j) : ∃ r, j.stage = .ended r := by
  have ended := List.all_eq_true.1 h i among
  rw [hi, Option.any_some] at ended
  by_contra unended
  rw [Job.hasEnded_eq_false.2 fun r hr => unended ⟨r, hr⟩] at ended
  cases ended

/-- A step that neither stops the loop nor drains it nor ends it. -/
structure Ordinary (l l' : Loop α) : Prop where
  stage : l'.stage = l.stage
  calls : ∃ used rest added, l.work.calls = used ++ rest ∧ .stop ∉ used ∧
    l'.work.calls = rest ++ added ∧ ∀ c ∈ added, c.isLate = true

/-- A step is an ordinary one, or it stops the loop, drains it, or ends it. -/
theorem Turns.ordinary_or {P : Prop} (h : Turns l l') (ordinary : Ordinary l l' → P)
    (stops : ∀ rest, l.batch = .stop :: rest →
      l' = { l with batch := rest, stage := .stopping } → P)
    (drains : ∀ ids : List Nat, l.stage = .stopping → ids.Perm l.pending →
      l' = ids.foldl cancel { l with stage := .draining ids } → P)
    (isOver : ∀ ids, l.stage = .draining ids → l.batch = [] → l.queue = [] →
      l.haveEnded ids = true → l' = { l with stage := .over } → P) : P := by
  -- Only what a job does adds callbacks, and none of these is the one that stops the loop.
  cases h with
  | fetches hb hq hs =>
    exact ordinary ⟨rfl, [], l.queue, [], by simp [work, hb], by simp, by simp [work], by simp⟩
  | @idles c rest hb hc idle =>
    exact ordinary ⟨rfl, [c], rest ++ l.queue, [], by simp [work, hb], by simpa using Ne.symm hc,
      by simp [work], by simp⟩
  | stops hb => exact stops _ hb rfl
  | @acts c rest i j j' started added hb hi h =>
    refine ordinary ⟨rfl, [c], rest ++ l.queue, added, by simp [work, hb], not_stop h,
      by simp [work, acted], ?_⟩
    intro d hd
    exact (Changes.act h : Changes true _ _ _ _ _ _ _).added_late hd
  | wakes time hi h =>
    refine ordinary ⟨rfl, [], l.batch ++ l.queue, _, rfl, by simp, List.append_assoc .. |>.symm, ?_⟩
    intro d hd
    exact (Changes.act h : Changes true _ _ _ _ _ _ _).added_late hd
  | drains hs hb perm => exact drains _ hs perm rfl
  | isOver hs hb hq ended => exact isOver _ hs hb hq ended rfl

end Loop

/-! ## Sound bridges -/

namespace Bridge

variable {b b' : Bridge α} {l' : Loop α}

/-- What holds of a bridge at any time. -/
structure Sound (b : Bridge α) : Prop where
  work : b.loop.work.Sound
  accepting : b.loop.accepting = true ↔ b.closing = .notYet
  early : b.closing = .notYet ∨ b.closing = .closed →
    b.loop.stage = .turning ∧ .stop ∉ b.loop.work.calls
  coming : b.closing = .stopped → b.loop.stage = .turning → b.loop.work.StopComes
  late : b.loop.stage ≠ .turning → b.loop.work.Late
  covered : ∀ ids, b.loop.stage = .draining ids → b.loop.work.Covered ids
  atEnd : b.loop.stage = .over → b.loop.work.calls = [] ∧ b.loop.work.Covered []
  returned : b.closing = .returned → b.loop.stage = .over

theorem sound_new : ({} : Bridge α).Sound where
  work := Work.sound_empty
  accepting := by simp
  early := by simp [Loop.work]
  coming := nofun
  late := by simp
  covered := nofun
  atEnd := nofun
  returned := nofun

theorem submit_accepted (accepting : b.loop.accepting = true) (d : Course α) :
    b.loop.submit d = .ok (b.loop.jobs.length, b.loop.taken d) ∧
      b.submit d = b.withLoop (b.loop.taken d) := by
  have h : b.loop.submit d = .ok (b.loop.jobs.length, b.loop.taken d) := by
    rw [Loop.submit, if_pos accepting]
    rfl
  exact ⟨h, by rw [Bridge.submit, h]⟩

theorem submit_refused (closed : b.loop.accepting = false) (d : Course α) :
    b.loop.submit d = .error closedFault ∧ b.submit d = b := by
  have h : b.loop.submit d = .error closedFault := by
    rw [Loop.submit, if_neg (by simp [closed])]
  exact ⟨h, by rw [Bridge.submit, h]⟩

theorem Sound.submit (sound : b.Sound) (d : Course α) : (b.submit d).Sound := by
  cases accepting : b.loop.accepting with
  | false => exact (submit_refused accepting d).2.symm ▸ sound
  | true =>
    have notYet := sound.accepting.1 accepting
    rcases sound.early (.inl notYet) with ⟨turning, none⟩
    have accepted := sound.work.accepts d
    rw [(submit_accepted accepting d).2]
    refine ⟨?_, sound.accepting, fun _ => ⟨turning, ?_⟩, ?_, ?_, ?_, ?_, ?_⟩
    · simpa [Loop.work, Loop.taken, Loop.push, withLoop] using accepted
    · simpa [Loop.work, Loop.taken, Loop.push, withLoop] using none
    · intro stopped
      cases notYet.symm.trans stopped
    · intro stage
      exact absurd turning stage
    · intro ids draining
      cases turning.symm.trans draining
    · intro isOver
      cases turning.symm.trans isOver
    · intro returned
      cases notYet.symm.trans returned

theorem Sound.shutdown (sound : b.Sound) : b.shutdown.Sound := by
  unfold Bridge.shutdown
  split
  · rename_i accepting
    have early := sound.early (.inl (sound.accepting.1 accepting))
    exact ⟨sound.work, by simp, fun _ => early, nofun, sound.late, sound.covered, sound.atEnd,
      nofun⟩
  · exact sound

theorem Sound.proceed (sound : b.Sound) (h : b.proceed? = some b') : b'.Sound := by
  unfold proceed? at h
  split at h
  · -- The callback that stops the loop is put behind all others.
    rename_i closed
    cases h
    rcases sound.early (.inr closed) with ⟨turning, none⟩
    have shut := sound.work.shuts
    refine ⟨?_, ?_, ?_, ?_, ?_, ?_, ?_, ?_⟩
    · simpa [Loop.work, Loop.push] using shut
    · simp [Loop.push, sound.accepting, closed]
    · simp
    · intro _ _
      exact ⟨b.loop.work.calls, [], by simp [Loop.work, Loop.push], none, by simp⟩
    · intro stage
      exact absurd turning stage
    · intro ids draining
      cases turning.symm.trans draining
    · intro isOver
      cases turning.symm.trans isOver
    · intro returned
      cases returned
  · rename_i stopped isOver
    cases h
    refine ⟨sound.work, ?_, ?_, ?_, sound.late, sound.covered, sound.atEnd, fun _ => isOver⟩
    · simp [sound.accepting, stopped]
    · simp
    · intro again
      cases again
  · cases h

theorem Sound.ordinary (sound : b.Sound) (running : b.loop.stage ≠ .over)
    (h : b.loop.Turns l') (ordinary : b.loop.Ordinary l') : (b.withLoop l').Sound where
  work := sound.work.all h.moves
  accepting := by
    rw [withLoop, h.accepting]
    exact sound.accepting
  -- An ordinary step leaves the stage alone, so that the promises for other stages say nothing new.
  early := by
    intro early
    rcases sound.early early with ⟨turning, none⟩
    rcases ordinary.calls with ⟨used, rest, added, hc, -, hc', late⟩
    refine ⟨ordinary.stage.trans turning, ?_⟩
    intro stop
    rw [withLoop, hc'] at stop
    rcases List.mem_append.1 stop with old | new
    · exact none (hc ▸ List.mem_append_right _ old)
    · cases late _ new
  coming := by
    intro stopped turning
    rcases ordinary.calls with ⟨used, rest, added, hc, hs, hc', late⟩
    exact (sound.coming stopped (ordinary.stage.symm.trans turning)).moves hc hs hc' late
  late := by
    intro stopped
    have before : b.loop.stage ≠ .turning := ordinary.stage ▸ stopped
    exact (sound.late before).all h.moves
  covered := by
    intro ids draining
    exact (sound.covered ids (ordinary.stage.symm.trans draining)).all h.moves
  atEnd := fun isOver => absurd (ordinary.stage.symm.trans isOver) running
  returned := fun returned => absurd (sound.returned returned) running

/-- A bridge whose loop runs and has been told to stop is waiting for the loop. -/
theorem Sound.closing_eq (sound : b.Sound) (running : b.loop.stage ≠ .over)
    (told : b.loop.stage ≠ .turning ∨ .stop ∈ b.loop.work.calls) : b.closing = .stopped := by
  have early (h : b.closing = .notYet ∨ b.closing = .closed) : False := by
    rcases sound.early h with ⟨turning, none⟩
    rcases told with stage | stop
    · exact stage turning
    · exact none stop
  cases hc : b.closing with
  | notYet => exact (early (.inl hc)).elim
  | closed => exact (early (.inr hc)).elim
  | stopped => rfl
  | returned => exact absurd (sound.returned hc) running

/-- A loop that runs is stopped only once. -/
theorem Sound.turning_of_stop {rest : List Callback} (sound : b.Sound)
    (hb : b.loop.batch = .stop :: rest) : b.loop.stage = .turning := by
  by_contra stage
  cases sound.late stage .stop (by simp [Loop.work, hb])

/-- What is left to show of a bridge that waits for its loop, once that has been stopped. -/
theorem sound_of_stopped (work : b.loop.work.Sound)
    (accepting : b.loop.accepting = true ↔ b.closing = .notYet) (stopped : b.closing = .stopped)
    (stage : b.loop.stage ≠ .turning) (late : b.loop.work.Late)
    (covered : ∀ ids, b.loop.stage = .draining ids → b.loop.work.Covered ids)
    (atEnd : b.loop.stage = .over → b.loop.work.calls = [] ∧ b.loop.work.Covered []) :
    b.Sound where
  work := work
  accepting := accepting
  early := by simp [stopped]
  coming := fun _ turning => absurd turning stage
  late := fun _ => late
  covered := covered
  atEnd := atEnd
  returned := by simp [stopped]

theorem Sound.stops (sound : b.Sound) (running : b.loop.stage ≠ .over) {rest : List Callback}
    (h : b.loop.Turns l') (hb : b.loop.batch = .stop :: rest)
    (he : l' = { b.loop with batch := rest, stage := .stopping }) : (b.withLoop l').Sound := by
  have calls : b.loop.work.calls = .stop :: (rest ++ b.loop.queue) := by simp [Loop.work, hb]
  have stopped := sound.closing_eq running (.inr (calls ▸ List.mem_cons_self))
  have late : l'.work.Late := by
    -- The callback that runs is the one that was to come, so only what stood behind it is left.
    rcases sound.coming stopped (sound.turning_of_stop hb) with ⟨before, after, split, first, last⟩
    rw [calls] at split
    cases before with
    | nil =>
      intro c hc
      rw [he] at hc
      exact last c ((List.cons.inj split).2 ▸ hc)
    | cons c before =>
      rw [← (List.cons.inj split).1] at first
      exact absurd List.mem_cons_self first
  refine sound_of_stopped (sound.work.all h.moves) ?_ stopped ?_ late ?_ ?_
  · rw [withLoop, h.accepting]
    exact sound.accepting
  · simp [withLoop, he]
  · simp [withLoop, he]
  · simp [withLoop, he]

theorem Sound.drains (sound : b.Sound) (running : b.loop.stage ≠ .over) {ids : List Nat}
    (h : b.loop.Turns l') (hs : b.loop.stage = .stopping) (perm : ids.Perm b.loop.pending)
    (he : l' = ids.foldl Loop.cancel { b.loop with stage := .draining ids }) :
    (b.withLoop l').Sound := by
  have stopped := sound.closing_eq running (.inl (by simp [hs]))
  have late := sound.late (by simp [hs])
  have stage : l'.stage = .draining ids := by
    rw [he]
    exact (Loop.foldl_cancel_stage _ _).1
  have covered : b.loop.work.Covered ids := by
    refine ⟨?_, ?_⟩
    · intro i hi
      rcases Loop.mem_pending.1 (perm.mem_iff.1 hi) with ⟨j, hj, -⟩
      exact (List.getElem?_eq_some_iff.1 hj).1
    · intro i j hi ho
      -- A job that has not ended has been made by then, so it is pending.
      by_cases ended : ∃ r, j.stage = .ended r
      · exact .inl ended
      · have pending : j.isPending = true := Job.isPending_eq_true.2
          ⟨fun d => late.made sound.work hi, fun r hr => ended ⟨r, hr⟩⟩
        exact .inr (perm.mem_iff.2 (Loop.mem_pending.2 ⟨j, hi, pending⟩))
  refine sound_of_stopped (sound.work.all h.moves) ?_ stopped ?_ (late.all h.moves) ?_ ?_
  · rw [withLoop, h.accepting]
    exact sound.accepting
  · simp [withLoop, stage]
  · intro ids' draining
    cases stage.symm.trans draining
    exact covered.all h.moves
  · simp [withLoop, stage]

theorem Sound.isOver (sound : b.Sound) (running : b.loop.stage ≠ .over) {ids : List Nat}
    (h : b.loop.Turns l') (hs : b.loop.stage = .draining ids) (hb : b.loop.batch = [])
    (hq : b.loop.queue = []) (ended : b.loop.haveEnded ids = true)
    (he : l' = { b.loop with stage := .over }) : (b.withLoop l').Sound := by
  have stopped := sound.closing_eq running (.inl (by simp [hs]))
  have empty : b.loop.work.calls = [] := by simp [Loop.work, hb, hq]
  have covered : b.loop.work.Covered [] := by
    refine ⟨by simp, ?_⟩
    intro i j hi ho
    rcases (sound.covered ids hs).each hi ho with done | among
    · exact .inl done
    · exact .inl (Loop.ended_of_haveEnded ended among hi)
  subst he
  refine sound_of_stopped (sound.work.all h.moves) sound.accepting stopped ?_
    (sound.late (by simp [hs])) ?_ fun _ => ⟨empty, covered⟩
  · simp [withLoop]
  · simp [withLoop]

theorem Sound.turns (sound : b.Sound) (running : b.loop.stage ≠ .over) (h : b.loop.Turns l') :
    (b.withLoop l').Sound :=
  h.ordinary_or (sound.ordinary running h) (fun _ => sound.stops running h)
    (fun _ => sound.drains running h) fun _ => sound.isOver running h

end Bridge
end Background
end Testbed

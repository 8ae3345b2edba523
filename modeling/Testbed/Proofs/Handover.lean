import Testbed.Proofs.Closing

/-!
# Work that is handed in

Runs of a bridge from the first call on.  Along a run every job keeps its origin
(`Bridge.Tracked`), what a caller has been told stays, and a job that has been made is not made
again (`Job.Stays`).
-/

namespace Testbed
namespace Background

variable {α : Type} {s : Bool} {j j' k : Job α} {w w' : Work α} {i : Nat} {os : List (Course α)}

/-! ## What stays of a job -/

/-- What stays of a job whatever happens. -/
structure Job.Stays (j k : Job α) : Prop where
  owner : k.owner = j.owner
  future : ∀ x, j.future = some x → k.future = some x
  made : (∀ d, j.stage ≠ .accepted d) → ∀ d, k.stage ≠ .accepted d

theorem Job.Stays.refl (j : Job α) : j.Stays j := ⟨rfl, fun _ h => h, id⟩

theorem Job.Stays.trans {m : Job α} (h : j.Stays k) (h' : k.Stays m) : j.Stays m :=
  ⟨h'.owner.trans h.owner, fun x hx => h'.future x (h.future x hx), h'.made ∘ h.made⟩

theorem Changes.stays {jobs started : List (Job α)} {used added : List Callback}
    (h : Changes s jobs i j used j' started added) : j.Stays j' where
  owner := h.owner
  future := by
    intro x hx
    cases h with
    | act h =>
      cases h
      case tells hf => cases hf.symm.trans hx
      all_goals exact hx
    | cancel _ h => cases h <;> exact hx
  made := by
    intro made d hd
    cases h with
    | act h =>
      cases h
      case tells => exact made d hd
      all_goals cases hd
    | cancel _ h =>
      cases h
      case queued | joined => exact made d hd
      all_goals cases hd

/-- The jobs stay. -/
def Work.Stays (w w' : Work α) : Prop :=
  ∀ (i : Nat) (j : Job α), w.jobs[i]? = some j → ∃ k, w'.jobs[i]? = some k ∧ j.Stays k

theorem Work.Stays.refl (w : Work α) : w.Stays w := fun _ j hi => ⟨j, hi, .refl j⟩

theorem Work.Stays.trans {v : Work α} (h : w.Stays w') (h' : w'.Stays v) : w.Stays v := by
  intro i j hi
  rcases h i j hi with ⟨k, hk, stays⟩
  rcases h' i k hk with ⟨m, hm, stays'⟩
  exact ⟨m, hm, stays.trans stays'⟩

theorem Work.Moves.stays (h : Work.Moves s w w') : w.Stays w' := by
  intro m x hx
  cases h with
  | idles hc idle => exact ⟨x, hx, .refl x⟩
  | @changes i j j' started used rest added hi h hc =>
    by_cases hmi : m = i
    · subst hmi
      cases hi.symm.trans hx
      exact ⟨j', changed_self hi, h.stays⟩
    · exact ⟨x, changed_other hx hmi, .refl x⟩

theorem Work.Stays.of_moves (h : Relation.ReflTransGen (Work.Moves s) w w') : w.Stays w' := by
  induction h with
  | refl => exact .refl w
  | tail _ move ih => exact ih.trans move.stays

namespace Bridge

variable {b b' : Bridge α} {l' : Loop α} {e : Event α}

/-! ## One event -/

/-- What an event is for a bridge that has made a job of every work that it took. -/
inductive Steps (b : Bridge α) : Event α → Bridge α → Prop where
  | takes {c : Course α} (accepting : b.loop.accepting = true) :
      Steps b (.submit c) (b.withLoop (b.loop.taken c))
  | refuses {c : Course α} (closed : b.loop.accepting = false) : Steps b (.submit c) b
  | closes (accepting : b.loop.accepting = true) : Steps b .shutdown b.shutdown
  | ignores (closed : b.loop.accepting = false) : Steps b .shutdown b
  | proceeds {b' : Bridge α} (h : b.proceed? = some b') : Steps b .proceed b'
  | turns {e : Event α} {l' : Loop α} (own : ∀ c, e ≠ .submit c) (ne : e ≠ .shutdown)
      (running : b.loop.stage ≠ .over) (h : b.loop.Turns l') : Steps b e (b.withLoop l')

theorem steps_of_next? (out : Outward b.loop.jobs) (h : b.next? e = some b') : Steps b e b' := by
  cases e with
  | submit c =>
    cases h
    cases accepting : b.loop.accepting with
    | true => exact (submit_accepted accepting c).2 ▸ .takes accepting
    | false =>
      rw [show b.submit c = b from (submit_refused accepting c).2]
      exact .refuses accepting
  | shutdown =>
    cases h
    cases accepting : b.loop.accepting with
    | true => exact .closes accepting
    | false =>
      rw [Bridge.shutdown, if_neg (by simp [accepting])]
      exact .ignores accepting
  | proceed => exact .proceeds h
  | turn =>
    rcases Option.map_eq_some_iff.1 h with ⟨l', hl, rfl⟩
    exact .turns nofun nofun (Loop.running_of_turn? hl) (Loop.turn_turns out hl)
  | wake i =>
    rcases Option.map_eq_some_iff.1 h with ⟨l', hl, rfl⟩
    rcases Loop.wake_acts hl with ⟨time, j, j', added, hi, acts, rfl⟩
    exact .turns nofun nofun (Loop.running_of_wake? hl) (.wakes time hi acts)
  | drain ids =>
    rcases Option.map_eq_some_iff.1 h with ⟨l', hl, rfl⟩
    exact .turns nofun nofun (Loop.running_of_drain? hl) (Loop.drain_turns hl)

theorem Sound.steps (sound : b.Sound) (h : Steps b e b') : b'.Sound := by
  cases h with
  | takes accepting =>
    rename_i c
    exact (submit_accepted accepting c).2 ▸ sound.submit c
  | refuses | ignores => exact sound
  | closes => exact sound.shutdown
  | proceeds h => exact sound.proceed h
  | turns _ _ running h => exact sound.turns running h

/-- A loop that has cancelled its jobs does not begin anew. -/
theorem Sound.hasCancelled_mono (sound : b.Sound) (h : b.loop.Turns l')
    (cancelled : b.loop.stage.hasCancelled = true) : l'.stage.hasCancelled = true := by
  refine h.ordinary_or ?_ ?_ ?_ ?_
  · intro ordinary
    rw [ordinary.stage]
    exact cancelled
  · intro rest hb _
    have turning := sound.turning_of_stop hb
    simp [turning, LoopStage.hasCancelled] at cancelled
  · intro ids stopping
    simp [stopping, LoopStage.hasCancelled] at cancelled
  · rintro ids - - - - rfl
    rfl

/-- The jobs of the bridge have the origins, none of which closes the loop. -/
structure Tracked (os : List (Course α)) (b : Bridge α) : Prop where
  sound : b.Sound
  traced : b.loop.work.Traced b.loop.stage.hasCancelled os
  outside : ∀ o ∈ os, o.Outside

theorem tracked_new : Tracked [] ({} : Bridge α) where
  sound := sound_new
  traced := ⟨rfl, by simp [Loop.work]⟩
  outside := by simp

theorem Tracked.origin (tracked : b.Tracked os) (hi : b.loop.jobs[i]? = some j) :
    ∃ o ∈ os, os[i]? = some o ∧ j.Traced b.loop.stage.hasCancelled os o := by
  have inside : i < os.length := tracked.traced.length ▸ (List.getElem?_eq_some_iff.1 hi).1
  have ho := List.getElem?_eq_getElem inside
  exact ⟨os[i], List.getElem_mem inside, ho, tracked.traced.each hi ho⟩

theorem Tracked.outward (tracked : b.Tracked os) : Outward b.loop.jobs := by
  intro i j go cancelled hi hs
  rcases tracked.origin hi with ⟨o, hm, -, traced⟩
  exact (tracked.outside o hm).rest (traced.course hs)

theorem Tracked.turns (tracked : b.Tracked os) (running : b.loop.stage ≠ .over)
    (h : b.loop.Turns l') :
    ∃ more, Tracked (os ++ more) (b.withLoop l') ∧ Inherited l'.stage.hasCancelled os more := by
  have later := tracked.traced.later (tracked.sound.hasCancelled_mono h)
  rcases later.all tracked.sound.work h.moves with ⟨more, traced, inherited⟩
  exact ⟨more, ⟨tracked.sound.turns running h, traced,
    inherited.each hereditary_outside tracked.outside⟩, inherited⟩

theorem shutdown_same (b : Bridge α) :
    b.shutdown.loop.jobs = b.loop.jobs ∧ b.shutdown.loop.stage = b.loop.stage := by
  unfold Bridge.shutdown
  split <;> exact ⟨rfl, rfl⟩

theorem proceed_same (h : b.proceed? = some b') :
    b'.loop.jobs = b.loop.jobs ∧ b'.loop.stage = b.loop.stage := by
  unfold proceed? at h
  split at h <;> cases h <;> exact ⟨rfl, rfl⟩

theorem Tracked.same (tracked : b.Tracked os) (sound : b'.Sound)
    (jobs : b'.loop.jobs = b.loop.jobs)
    (stage : b'.loop.stage.hasCancelled = b.loop.stage.hasCancelled) : b'.Tracked (os ++ []) := by
  rw [List.append_nil]
  refine ⟨sound, ⟨?_, ?_⟩, tracked.outside⟩
  · exact tracked.traced.length.trans (congrArg List.length jobs.symm)
  · intro i j o hi ho
    rw [show b'.loop.work.jobs = b.loop.jobs from jobs] at hi
    rw [stage]
    exact tracked.traced.each hi ho

theorem Tracked.takes {c : Course α} (tracked : b.Tracked os) (accepting : b.loop.accepting = true)
    (outside : c.Outside) : Tracked (os ++ [c]) (b.withLoop (b.loop.taken c)) where
  sound := tracked.sound.steps (.takes accepting)
  traced := tracked.traced.accepts c _
  outside := by
    intro o ho
    rcases List.mem_append.1 ho with old | new
    · exact tracked.outside o old
    · exact List.mem_singleton.1 new ▸ outside

/-- An event adds the work that is taken to the origins, or what is handed down by others. -/
theorem Tracked.steps (tracked : b.Tracked os) (h : Steps b e b')
    (outside : ∀ c, e = .submit c → c.Outside) : ∃ more, b'.Tracked (os ++ more) := by
  have sound := tracked.sound.steps h
  cases h with
  | @takes c accepting => exact ⟨[c], tracked.takes accepting (outside c rfl)⟩
  | refuses | ignores => exact ⟨[], tracked.same sound rfl rfl⟩
  | closes =>
    have same := shutdown_same b
    exact ⟨[], tracked.same sound same.1 (congrArg _ same.2)⟩
  | proceeds h =>
    have same := proceed_same h
    exact ⟨[], tracked.same sound same.1 (congrArg _ same.2)⟩
  | turns own ne running h =>
    rcases tracked.turns running h with ⟨more, tracked', -⟩
    exact ⟨more, tracked'⟩

theorem Steps.stays (h : Steps b e b') : b.loop.work.Stays b'.loop.work := by
  have same {l l' : Loop α} (h : l'.jobs = l.jobs) : l.work.Stays l'.work := by
    intro i j hi
    exact ⟨j, (congrArg (·[i]?) h).trans hi, .refl j⟩
  cases h with
  | takes => exact fun i j hi => ⟨j, accepted_old hi, .refl j⟩
  | refuses | ignores => exact .refl _
  | closes => exact same (shutdown_same b).1
  | proceeds h => exact same (proceed_same h).1
  | turns _ _ _ h => exact .of_moves h.moves

/-! ## Runs -/

/-- An event with the bridges before and after it. -/
structure Moment (α : Type) where
  before : Bridge α
  event : Event α
  after : Bridge α

/-- The runs that start at a bridge, with their moments and what they have led to. -/
inductive Run (b : Bridge α) : List (Moment α) → Bridge α → Prop where
  | refl : Run b [] b
  | tail {tr : List (Moment α)} {m n : Bridge α} {e : Event α} (run : Run b tr m)
      (step : m.next? e = some n) : Run b (tr ++ [⟨m, e, n⟩]) n

/-- The run of a list of events, if they can happen in this order. -/
def replay? (b : Bridge α) : List (Event α) → Option (List (Moment α) × Bridge α)
  | [] => some ([], b)
  | e :: es =>
    match b.next? e with
    | none => none
    | some m => (replay? m es).map fun r => (⟨b, e, m⟩ :: r.1, r.2)

/-- The work that is handed in along the way has the property. -/
def Hands (Q : Course α → Prop) (tr : List (Moment α)) : Prop :=
  ∀ x ∈ tr, ∀ c, x.event = .submit c → Q c

section Runs

variable {m n : Bridge α} {tr u v : List (Moment α)} {x : Moment α}

theorem Run.head (step : b.next? e = some m) (run : Run m tr n) : Run b (⟨b, e, m⟩ :: tr) n := by
  induction run with
  | refl => exact .tail .refl step
  | tail _ hs ih => exact .tail ih hs

theorem Run.of_replay? {es : List (Event α)} (h : replay? b es = some (tr, n)) :
    Run b tr n := by
  induction es generalizing b tr with
  | nil =>
    cases h
    exact .refl
  | cons e es ih =>
    unfold replay? at h
    cases he : b.next? e with
    | none => simp [he] at h
    | some m =>
      rw [he] at h
      rcases Option.map_eq_some_iff.1 h with ⟨r, hr, heq⟩
      cases heq
      exact .head he (ih hr)

theorem Run.tail_inv (run : Run b (u ++ [x]) n) :
    Run b u x.before ∧ x.before.next? x.event = some x.after ∧ n = x.after := by
  generalize ht : u ++ [x] = tr at run
  cases run with
  | refl => simp at ht
  | tail run step =>
    rcases List.append_inj' ht rfl with ⟨rfl, hx⟩
    cases hx
    exact ⟨run, step, rfl⟩

/-- A run that has a moment comes there first, and goes on from there. -/
theorem Run.at (run : Run b (u ++ x :: v) n) :
    Run b u x.before ∧ x.before.next? x.event = some x.after ∧ Run x.after v n := by
  induction v using List.reverseRecOn generalizing n with
  | nil =>
    rcases run.tail_inv with ⟨front, step, rfl⟩
    exact ⟨front, step, .refl⟩
  | append_singleton v y ih =>
    rw [← List.cons_append, ← List.append_assoc] at run
    rcases run.tail_inv with ⟨front, step, rfl⟩
    rcases ih front with ⟨before, at_x, rest⟩
    exact ⟨before, at_x, .tail rest step⟩

theorem Hands.front {Q : Course α → Prop} (h : Hands Q (u ++ v)) : Hands Q u :=
  fun x hx => h x (List.mem_append_left _ hx)

theorem Hands.rest {Q : Course α → Prop} (h : Hands Q (u ++ x :: v)) : Hands Q v :=
  fun y hy => h y (List.mem_append_right _ (List.mem_cons_of_mem _ hy))

theorem Hands.last {Q : Course α → Prop} (h : Hands Q (u ++ [x])) :
    ∀ c, x.event = .submit c → Q c :=
  h x (List.mem_append_right _ List.mem_cons_self)

/-- The jobs of a bridge keep their origins along a run. -/
theorem Run.tracked (run : Run b tr n) (tracked : b.Tracked os)
    (outside : Hands Course.Outside tr) : ∃ more, n.Tracked (os ++ more) := by
  induction run with
  | refl => exact ⟨[], by rwa [List.append_nil]⟩
  | tail run step ih =>
    rcases ih outside.front with ⟨more, tracked'⟩
    have steps := steps_of_next? tracked'.outward step
    rcases tracked'.steps steps outside.last with ⟨new, tracked''⟩
    exact ⟨more ++ new, by rwa [← List.append_assoc]⟩

/-- Each moment of a run from a new bridge is a step of a bridge whose jobs have origins. -/
theorem Run.moment (run : Run ({} : Bridge α) tr n) (outside : Hands Course.Outside tr)
    (hx : x ∈ tr) : ∃ os, x.before.Tracked os ∧ Steps x.before x.event x.after := by
  rcases List.append_of_mem hx with ⟨u, v, rfl⟩
  rcases run.at with ⟨front, step, -⟩
  rcases front.tracked tracked_new outside.front with ⟨os, tracked⟩
  exact ⟨os, tracked, steps_of_next? tracked.outward step⟩

theorem Run.stays (run : Run ({} : Bridge α) (u ++ x :: v) n)
    (outside : Hands Course.Outside (u ++ x :: v)) : x.after.loop.work.Stays n.loop.work := by
  -- On what has happened since, the last moment first.
  induction v using List.reverseRecOn generalizing n with
  | nil =>
    rcases run.tail_inv with ⟨-, -, rfl⟩
    exact .refl _
  | append_singleton v y ih =>
    have hy : y ∈ u ++ x :: (v ++ [y]) := by simp
    rcases run.moment outside hy with ⟨os, -, steps⟩
    rw [← List.cons_append, ← List.append_assoc] at run outside
    rcases run.tail_inv with ⟨front, -, rfl⟩
    exact (ih front outside.front).trans steps.stays

end Runs
end Bridge
end Background
end Testbed

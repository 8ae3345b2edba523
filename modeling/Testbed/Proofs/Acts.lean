import Testbed.Background.Bridge
import Testbed.Proofs.Courses

/-!
# What a loop does with its jobs

Everything that a loop does after it has taken work is one of a few acts of a single job (`Acts`),
or it cancels a job (`Cancels`), or no job notices (`Idle`).  `Turns` lists the steps of a loop in
these terms, and the lemmas about `turn?`, `wake?` and `drain?` read it off the program.
-/

namespace Testbed
namespace Background

variable {α : Type}

/-- The course of a job whose turn has come. -/
def Job.course (j : Job α) (go cancelled : Course α) : Course α :=
  if j.cancelled then cancelled else go

/-- A job that is started for another one. -/
def Job.part (owner : Nat) (c : Course α) : Job α :=
  { stage := .queued c .abandoned, owner := some owner }

/-- The stage of a job whose wait is over. -/
def JobStage.resuming {β : Type} (resume : Except Fault β → Course α) (x : Except Fault β) :
    JobStage α :=
  .queued (resume x) (resume (.error Fault.cancelled))

/-- The value that a job has ended with. -/
def value? (jobs : List (Job α)) (i : Nat) : Option α :=
  match (jobs[i]?).map Job.stage with
  | some (.ended (.ok a)) => some a
  | _ => none

/-! ## The acts of a job -/

/-- What the end of a part brings to the job that waits for it: nothing as long as others are
missing. -/
inductive Brings (jobs : List (Job α)) (parts : List Nat) (left : Nat) :
    Except Fault α → Except Fault (List α) → Prop where
  | error (f : Fault) : Brings jobs parts left (.error f) (.error f)
  | last (a : α) (hl : left ≤ 1) :
      Brings jobs parts left (.ok a) (.ok ((parts.mapM (value? jobs)).getD []))

/-- A job acts: the callbacks that it uses up, what it becomes, the jobs that it starts, and the
callbacks that it adds. -/
inductive Acts (jobs : List (Job α)) (i : Nat) (j : Job α) :
    List Callback → Job α → List (Job α) → List Callback → Prop where
  | made {c : Course α} (hs : j.stage = .accepted c) :
      Acts jobs i j [.make i] { j with stage := .queued c .abandoned } [] [.step i]
  | ends {go cancelled : Course α} {r : Except Fault α} (hs : j.stage = .queued go cancelled)
      (hc : (j.course go cancelled).skip = .ended r) :
      Acts jobs i j [.step i] { j with stage := .ended r, cancelled := false } [] [.settle i]
  | yields {go cancelled : Course α} {resume : Except Fault Unit → Course α}
      (hs : j.stage = .queued go cancelled)
      (hc : (j.course go cancelled).skip = .wait .turn resume) :
      Acts jobs i j [.step i] { j with stage := .resuming resume (.ok ()), cancelled := false } []
        [.step i]
  | waits {go cancelled : Course α} {w : Wait} {resume : Except Fault Unit → Course α} {due : Due}
      (hs : j.stage = .queued go cancelled) (hc : (j.course go cancelled).skip = .wait w resume)
      (hd : due = .never → w = .never) :
      Acts jobs i j [.step i] { j with stage := .waiting due resume, cancelled := false } [] []
  | gathers {go cancelled : Course α} {parts : List (Course α)}
      {resume : Except Fault (List α) → Course α} {ids : List Nat}
      (hs : j.stage = .queued go cancelled)
      (hc : (j.course go cancelled).skip = .gather parts resume) (some : parts ≠ [])
      (hids : ids = List.range' jobs.length parts.length) :
      Acts jobs i j [.step i]
        { j with stage := .joining ids parts.length resume, cancelled := false }
        (parts.map (Job.part i)) (ids.map .step)
  | tells {r : Except Fault α} (hs : j.stage = .ended r) (ho : j.owner = none)
      (hf : j.future = none) :
      Acts jobs i j [.settle i] { j with future := some (Loop.crossing r) } [] []
  | joins {parts : List Nat} {left p : Nat} {resume : Except Fault (List α) → Course α} {k : Job α}
      {r : Except Fault α} {x : Except Fault (List α)} (hs : j.stage = .joining parts left resume)
      (hp : p ∈ parts) (hk : jobs[p]? = some k) (hr : k.stage = .ended r) (ho : k.owner = some i)
      (hx : Brings jobs parts left r x) :
      Acts jobs i j [.settle p] { j with stage := .resuming resume x } [] [.step i]
  | counts {parts : List Nat} {left p : Nat} {resume : Except Fault (List α) → Course α}
      {k : Job α} {a : α} (hs : j.stage = .joining parts left resume) (hp : p ∈ parts)
      (hk : jobs[p]? = some k) (hr : k.stage = .ended (.ok a)) (ho : k.owner = some i)
      (hl : 1 < left) :
      Acts jobs i j [.settle p] { j with stage := .joining parts (left - 1) resume } [] []
  | wakes {due : Due} {resume : Except Fault Unit → Course α} (hs : j.stage = .waiting due resume)
      (hd : due ≠ .never) :
      Acts jobs i j [] { j with stage := .resuming resume (.ok ()) } [] [.step i]

/-- A job is cancelled: what it becomes, and the callbacks that are added. -/
inductive Cancels (jobs : List (Job α)) (i : Nat) (j : Job α) : Job α → List Callback → Prop where
  | waiting {due : Due} {resume : Except Fault Unit → Course α}
      (hs : j.stage = .waiting due resume) :
      Cancels jobs i j { j with stage := .resuming resume (.ok ()), cancelled := true } [.step i]
  | queued {go cancelled : Course α} (hs : j.stage = .queued go cancelled) :
      Cancels jobs i j { j with cancelled := true } []
  | joined {parts : List Nat} {left : Nat} {resume : Except Fault (List α) → Course α}
      (hs : j.stage = .joining parts left resume) :
      Cancels jobs i j { j with cancelled := true } []
  | joining {parts : List Nat} {left : Nat} {resume : Except Fault (List α) → Course α}
      (hs : j.stage = .joining parts left resume) :
      Cancels jobs i j { j with stage := .joining parts left (Loop.interrupted resume) } []

/-- The callback without which a job does not go on. -/
def Job.needs (i : Nat) (j : Job α) : Option Callback :=
  match j.stage, j.owner, j.future with
  | .accepted _, _, _ => some (.make i)
  | .queued .., _, _ => some (.step i)
  | .ended _, none, none => some (.settle i)
  | _, _, _ => none

theorem Job.needs_eq {i : Nat} {j : Job α} {c : Callback} (h : j.needs i = some c) :
    (c = .make i ∧ ∃ d, j.stage = .accepted d) ∨
      (c = .step i ∧ ∃ go cancelled, j.stage = .queued go cancelled) ∨
        (c = .settle i ∧ ∃ r, j.stage = .ended r ∧ j.owner = none ∧ j.future = none) := by
  rcases j with ⟨stage, mark, owner, future⟩
  cases stage with
  | accepted d =>
    cases h
    exact .inl ⟨rfl, d, rfl⟩
  | queued go cancelled =>
    cases h
    exact .inr (.inl ⟨rfl, go, cancelled, rfl⟩)
  | waiting due resume => cases h
  | joining parts left resume => cases h
  | ended r =>
    cases owner with
    | some o => cases h
    | none =>
      cases future with
      | some x => cases h
      | none =>
        cases h
        exact .inr (.inr ⟨rfl, r, rfl, rfl, rfl⟩)

/-- No job notices the callback. -/
structure Idle (jobs : List (Job α)) (c : Callback) : Prop where
  notNeeded : ∀ {i : Nat} {j : Job α}, jobs[i]? = some j → j.needs i ≠ some c
  notWaitedFor : ∀ {p i left : Nat} {k j : Job α} {r : Except Fault α} {parts : List Nat}
    {resume : Except Fault (List α) → Course α}, c = .settle p → jobs[p]? = some k →
    k.stage = .ended r → k.owner = some i → jobs[i]? = some j →
    j.stage = .joining parts left resume → p ∉ parts

/-- Every job whose turn is coming goes on along a course that does not close the loop. -/
def Outward (jobs : List (Job α)) : Prop :=
  ∀ {i : Nat} {j : Job α} {go cancelled : Course α}, jobs[i]? = some j →
    j.stage = .queued go cancelled → (j.course go cancelled).Outside

namespace Loop

variable {l l' : Loop α} {i : Nat} {j : Job α} {c : Callback} {parts : List (Course α)}

/-- The loop after an act of a job. -/
def acted (l : Loop α) (i : Nat) (j : Job α) (started : List (Job α)) (added : List Callback) :
    Loop α :=
  { l with jobs := l.jobs.set i j ++ started, queue := l.queue ++ added }

/-- One step of a loop. -/
inductive Turns (l : Loop α) : Loop α → Prop where
  | fetches (hb : l.batch = []) (hq : l.queue ≠ []) (hs : l.stage ≠ .stopping) :
      Turns l { l with batch := l.queue, queue := [] }
  | idles {c : Callback} {rest : List Callback} (hb : l.batch = c :: rest) (hc : c ≠ .stop)
      (idle : Idle l.jobs c) : Turns l { l with batch := rest }
  | stops {rest : List Callback} (hb : l.batch = .stop :: rest) :
      Turns l { l with batch := rest, stage := .stopping }
  | acts {c : Callback} {rest : List Callback} {i : Nat} {j j' : Job α} {started : List (Job α)}
      {added : List Callback} (hb : l.batch = c :: rest) (hi : l.jobs[i]? = some j)
      (h : Acts l.jobs i j [c] j' started added) :
      Turns l (acted { l with batch := rest } i j' started added)
  | wakes {i : Nat} {j j' : Job α} {added : List Callback} (time : Float)
      (hi : l.jobs[i]? = some j) (h : Acts l.jobs i j [] j' [] added) :
      Turns l (acted { l with clock := time } i j' [] added)
  | drains {ids : List Nat} (hs : l.stage = .stopping) (hb : l.batch = [])
      (perm : ids.Perm l.pending) : Turns l (ids.foldl cancel { l with stage := .draining ids })
  | isOver {ids : List Nat} (hs : l.stage = .draining ids) (hb : l.batch = []) (hq : l.queue = [])
      (ended : l.haveEnded ids = true) : Turns l { l with stage := .over }

/-! ## Reading the steps off the program -/

theorem alter_eq (hi : l.jobs[i]? = some j) (f : Job α → Job α) :
    l.alter i f = l.acted i (f j) [] [] := by
  rcases l with ⟨accepting, stage, batch, queue, jobs, clock⟩
  simp only [alter, acted, List.append_nil]
  congr 1
  rw [List.modify_eq_set_getElem?, show jobs[i]? = some j from hi]
  rfl

theorem place_eq (hi : l.jobs[i]? = some j) (s : JobStage α) :
    l.place i s = l.acted i { j with stage := s } [] [] :=
  alter_eq hi _

theorem enqueue_eq (hi : l.jobs[i]? = some j) (go cancelled : Course α) :
    l.enqueue i go cancelled = l.acted i { j with stage := .queued go cancelled } [] [.step i] := by
  rw [enqueue, place_eq hi]
  simp [push, acted]

@[simp] theorem acted_acted (k : Job α) (started : List (Job α)) (added : List Callback) :
    (l.acted i j [] []).acted i k started added = l.acted i k started added := by
  simp [acted]

theorem acted_getElem? (hi : l.jobs[i]? = some j) (k : Job α) (added : List Callback) :
    (l.acted i k [] added).jobs[i]? = some k := by
  simp [acted, (List.getElem?_eq_some_iff.1 hi).1]

theorem proceed_skip (c : Course α) : l.proceed i c = l.proceed i c.skip := by
  fun_induction Course.skip c with
  | case1 resume ih => exact ih
  | case2 c _ => rfl

theorem spawn_eq (hi : l.jobs[i]? = some j) (resume : Except Fault (List α) → Course α) :
    l.spawn i parts resume =
      l.acted i { j with
        stage := .joining (List.range' l.jobs.length parts.length) parts.length resume }
        (parts.map (Job.part i)) ((List.range' l.jobs.length parts.length).map .step) := by
  have inside : i < l.jobs.length := (List.getElem?_eq_some_iff.1 hi).1
  rw [spawn, place_eq (j := j)]
  · simp [acted, Job.part, List.set_append_left _ _ inside]
  · simp [List.getElem?_append_left inside, hi]

/-- A job that has its turn acts. -/
theorem step_acts {go cancelled : Course α} (hi : l.jobs[i]? = some j)
    (hs : j.stage = .queued go cancelled) (out : (j.course go cancelled).Outside) :
    ∃ j' started added, Acts l.jobs i j [.step i] j' started added ∧
      l.step i = l.acted i j' started added := by
  have turn : l.step i =
      (l.acted i { j with cancelled := false } [] []).proceed i (j.course go cancelled).skip := by
    rcases j with ⟨stage, mark, owner, future⟩
    cases hs
    rw [← proceed_skip, ← alter_eq hi fun j => { j with cancelled := false }]
    unfold step
    rw [hi]
    rfl
  have hi' := acted_getElem? hi { j with cancelled := false } []
  rw [turn]
  -- The course is what is left of it past all gatherings of nothing; its first construct says how
  -- the job acts.
  cases hc : (j.course go cancelled).skip with
  | ended r =>
    refine ⟨_, _, _, .ends hs hc, ?_⟩
    rw [proceed, place_eq hi']
    simp [push, acted]
  | wait w resume =>
    by_cases hw : w = .turn
    · subst hw
      refine ⟨_, _, _, .yields hs hc, ?_⟩
      rw [proceed, enqueue_eq hi', acted_acted]
      rfl
    · have never : l.due w = .never → w = .never := by cases w <;> simp [due]
      refine ⟨_, _, _, .waits hs hc never, ?_⟩
      rw [proceed, place_eq hi', acted_acted]
      · rfl
      · exact hw
  | gather parts resume =>
    cases parts with
    | nil => exact absurd hc (Course.skip_ne _ _)
    | cons p ps =>
      refine ⟨_, _, _, .gathers hs hc (List.cons_ne_nil p ps) rfl, ?_⟩
      rw [proceed, spawn_eq hi', acted_acted]
      · simp [acted]
      · simp
  | close next => cases hc ▸ out.skip

/-- What a job does whose part has ended. -/
theorem tell_acts {ids : List Nat} {left p : Nat} {resume : Except Fault (List α) → Course α}
    {k : Job α} {r : Except Fault α} (hi : l.jobs[i]? = some j)
    (hs : j.stage = .joining ids left resume) (hp : p ∈ ids) (hk : l.jobs[p]? = some k)
    (hr : k.stage = .ended r) (ho : k.owner = some i) :
    ∃ j' added, Acts l.jobs i j [.settle p] j' [] added ∧ l.tell i p r = l.acted i j' [] added := by
  unfold tell
  rw [hi, Option.map_some, hs]
  simp only [List.contains_eq_mem, hp, decide_true, if_true]
  cases r with
  | error f => exact ⟨_, _, .joins hs hp hk hr ho (.error f), enqueue_eq hi _ _⟩
  | ok a =>
    by_cases hl : left ≤ 1
    · refine ⟨_, _, .joins hs hp hk hr ho (.last a hl), ?_⟩
      simp only [hl, if_true]
      exact enqueue_eq hi _ _
    · refine ⟨_, _, .counts hs hp hk hr ho (by omega), ?_⟩
      simp only [hl, if_false]
      exact place_eq hi _

theorem tell_idle {p : Nat} {r : Except Fault α} (h : ∀ {j : Job α} {ids : List Nat} {left : Nat}
    {resume : Except Fault (List α) → Course α}, l.jobs[i]? = some j →
    j.stage = .joining ids left resume → p ∉ ids) : l.tell i p r = l := by
  unfold tell
  split
  · rename_i hs
    rcases Option.map_eq_some_iff.1 hs with ⟨j, hi, hs⟩
    simp [h hi hs]
  · rfl

theorem call_needed (out : Outward l.jobs) (hi : l.jobs[i]? = some j) (hn : j.needs i = some c) :
    ∃ j' started added, Acts l.jobs i j [c] j' started added ∧
      l.call c = l.acted i j' started added := by
  rcases Job.needs_eq hn with ⟨rfl, d, hs⟩ | ⟨rfl, go, cancelled, hs⟩ | ⟨rfl, r, hs, ho, hf⟩
  · refine ⟨_, _, _, .made hs, ?_⟩
    rw [call, hi, Option.map_some, hs]
    exact enqueue_eq hi _ _
  · exact step_acts hi hs (out hi hs)
  · refine ⟨_, _, _, .tells hs ho hf, ?_⟩
    rcases j with ⟨stage, mark, owner, future⟩
    cases hs
    cases ho
    cases hf
    rw [call, settle, hi]
    exact alter_eq hi _

theorem call_idle (idle : Idle l.jobs c) (hc : c ≠ .stop) : l.call c = l := by
  -- A callback that nobody needs any more finds nothing to do.
  cases c with
  | make i =>
    rw [call]
    split
    · rename_i hs
      rcases Option.map_eq_some_iff.1 hs with ⟨j, hi, hs⟩
      exact absurd (by simp [Job.needs, hs]) (idle.notNeeded hi)
    · rfl
  | step i =>
    rw [call, step]
    split
    · rename_i hi
      exact absurd rfl (idle.notNeeded hi)
    · rfl
  | settle p =>
    rw [call, settle]
    split
    · rename_i hk
      exact absurd rfl (idle.notNeeded hk)
    · rename_i hk
      refine tell_idle ?_
      intro j ids left resume hi hs
      exact idle.notWaitedFor rfl hk rfl rfl hi hs
    · rfl
  | stop => exact absurd rfl hc

/-- A callback makes a job act, or no job notices it. -/
theorem call_acts (out : Outward l.jobs) (hc : c ≠ .stop) :
    (Idle l.jobs c ∧ l.call c = l) ∨ ∃ i j j' started added, l.jobs[i]? = some j ∧
      Acts l.jobs i j [c] j' started added ∧ l.call c = l.acted i j' started added := by
  -- A callback is needed by the job that it is about, or it is news for a job that waits for that.
  by_cases needed : ∃ (i : Nat) (j : Job α), l.jobs[i]? = some j ∧ j.needs i = some c
  · rcases needed with ⟨i, j, hi, hn⟩
    rcases call_needed out hi hn with ⟨j', started, added, h, he⟩
    exact .inr ⟨i, j, j', started, added, hi, h, he⟩
  by_cases waitedFor : ∃ (p i left : Nat) (k j : Job α) (r : Except Fault α) (ids : List Nat)
      (resume : Except Fault (List α) → Course α), c = .settle p ∧ l.jobs[p]? = some k ∧
      k.stage = .ended r ∧ k.owner = some i ∧ l.jobs[i]? = some j ∧
      j.stage = .joining ids left resume ∧ p ∈ ids
  · rcases waitedFor with ⟨p, i, left, k, j, r, ids, resume, rfl, hk, hr, ho, hi, hs, hp⟩
    rcases tell_acts hi hs hp hk hr ho with ⟨j', added, h, he⟩
    refine .inr ⟨i, j, j', [], added, hi, h, ?_⟩
    rcases k with ⟨stage, mark, owner, future⟩
    cases hr
    cases ho
    rw [call, settle, hk]
    exact he
  · have idle : Idle l.jobs c := by
      constructor
      · intro i j hi hn
        exact needed ⟨i, j, hi, hn⟩
      · intro p i left k j r ids resume he hk hr ho hi hs hp
        exact waitedFor ⟨p, i, left, k, j, r, ids, resume, he, hk, hr, ho, hi, hs, hp⟩
    exact .inl ⟨idle, call_idle idle hc⟩

theorem wake_acts (h : l.wake? i = some l') : ∃ time j j' added, l.jobs[i]? = some j ∧
    Acts l.jobs i j [] j' [] added ∧ l' = acted { l with clock := time } i j' [] added := by
  unfold wake? at h
  split at h
  · cases h
  · rename_i hs _
    rcases Option.map_eq_some_iff.1 hs with ⟨j, hi, hs⟩
    cases h
    exact ⟨l.clock, j, _, _, hi, .wakes hs nofun, enqueue_eq hi _ _⟩
  · rename_i t resume hs _
    rcases Option.map_eq_some_iff.1 hs with ⟨j, hi, hs⟩
    cases h
    refine ⟨if l.clock < t then t else l.clock, j, _, _, hi, .wakes hs nofun, ?_⟩
    rw [enqueue_eq hi]
    rfl
  · cases h

/-- A job that has been made and has not ended notices that it is cancelled. -/
theorem cancel_cancels (l : Loop α) (i : Nat) :
    (l.cancel i = l ∧ ∀ j, l.jobs[i]? = some j → j.isPending = false) ∨ ∃ j j' added,
      l.jobs[i]? = some j ∧ Cancels l.jobs i j j' added ∧ l.cancel i = l.acted i j' [] added := by
  unfold cancel
  split
  · rename_i hs
    rcases Option.map_eq_some_iff.1 hs with ⟨j, hi, hs⟩
    refine .inr ⟨j, _, _, hi, .waiting hs, ?_⟩
    rw [alter_eq hi, enqueue_eq (acted_getElem? hi _ _), acted_acted]
    rfl
  · rename_i hs
    rcases Option.map_eq_some_iff.1 hs with ⟨j, hi, hs⟩
    exact .inr ⟨j, _, _, hi, .queued hs, alter_eq hi _⟩
  · rename_i hs
    rcases Option.map_eq_some_iff.1 hs with ⟨j, hi, hs⟩
    split
    · exact .inr ⟨j, _, _, hi, .joined hs, alter_eq hi _⟩
    · exact .inr ⟨j, _, _, hi, .joining hs, place_eq hi _⟩
  -- What is left has ended, or has not been made yet.
  · rename_i waiting queued joining
    refine .inl ⟨rfl, ?_⟩
    intro j hi
    rw [hi] at waiting queued joining
    cases hs : j.stage with
    | waiting due resume => exact (waiting due resume (congrArg some hs)).elim
    | queued go cancelled => exact (queued go cancelled (congrArg some hs)).elim
    | joining parts left resume => exact (joining parts left resume (congrArg some hs)).elim
    | _ => simp [Job.isPending, hs]

theorem turn_turns (out : Outward l.jobs) (h : l.turn? = some l') : Turns l l' := by
  unfold turn? at h
  split at h
  · cases h
  · rename_i c rest hb _
    cases h
    -- The first callback of the batch either stops the loop or concerns a job.
    by_cases hc : c = .stop
    · subst hc
      exact .stops hb
    · rcases call_acts (l := { l with batch := rest }) out hc with ⟨idle, he⟩ |
        ⟨i, j, j', started, added, hi, ha, he⟩
      · rw [he]
        exact .idles hb hc idle
      · rw [he]
        exact .acts hb hi ha
  · rename_i hs hb
    cases h
    exact .drains hs hb (.refl _)
  · rename_i hs hb hq
    split at h
    · rename_i ended
      cases h
      exact .isOver hs hb hq ended
    · cases h
  · cases h
  · rename_i hb notOver notStopping drained turned
    cases h
    refine .fetches hb ?_ notStopping
    intro hq
    cases hs : l.stage with
    | turning => exact turned hs hq
    | stopping => exact notStopping hs
    | draining ids => exact drained ids hs hq
    | _ => exact notOver hs

theorem drain_turns {ids : List Nat} (h : Bridge.drain? l ids = some l') : Turns l l' := by
  unfold Bridge.drain? at h
  split at h
  · rename_i hs hb
    split at h
    · rename_i perm
      cases h
      exact .drains hs hb (List.isPerm_iff.1 perm)
    · cases h
  · cases h

theorem running_of_turn? (h : l.turn? = some l') : l.stage ≠ .over := by
  intro isOver
  rcases l with ⟨accepting, stage, batch, queue, jobs, clock⟩
  cases isOver
  cases h

theorem running_of_wake? (h : l.wake? i = some l') : l.stage ≠ .over := by
  intro isOver
  rcases l with ⟨accepting, stage, batch, queue, jobs, clock⟩
  cases isOver
  cases h

theorem running_of_drain? {ids : List Nat} (h : Bridge.drain? l ids = some l') :
    l.stage ≠ .over := by
  intro isOver
  rcases l with ⟨accepting, stage, batch, queue, jobs, clock⟩
  cases isOver
  cases h

end Loop
end Background
end Testbed

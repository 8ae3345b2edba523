import Mathlib.Data.List.Forall2
import Testbed.Proofs.Provisioner
import Testbed.Proofs.Undisturbed

/-!
# Two runs

Two undisturbed runs beside each other.  A `Likeness` says which worlds and which calls count as
alike; of two programs that are `Twins`, the second one does from a world alike what the first one
does: its calls are alike and are made at the same times, and it ends in a world alike with a
value that fits.
-/

namespace Testbed

/-- What counts as alike in two runs, and which calls of the first run are covered: of a run that
makes another call nothing is said. -/
structure Likeness where
  worlds : World → World → Prop
  calls : Call → Call → Prop
  covers : Call → Prop
  /-- The clocks of worlds that are alike agree. -/
  clock : ∀ {w w' : World}, worlds w w' → w'.clock = w.clock

namespace Likeness

/-- Calls that are alike and made at the same time. -/
def Moments (K : Likeness) (x y : Float × Call) : Prop := y.1 = x.1 ∧ K.calls x.2 y.2

/-- In worlds that are alike two calls are alike and are answered by replies that fit. -/
structure Keeps (K : Likeness) (c c' : Call) (R : c.Reply → c'.Reply → Prop) : Prop where
  calls : K.calls c c'
  answers : ∀ {w w' w₁ : World} {r : c.Reply}, K.worlds w w' → K.covers c →
    w.perform c = some (r, w₁) →
      ∃ r' w₁', w'.perform c' = some (r', w₁') ∧ K.worlds w₁ w₁' ∧ R r r'

end Likeness

namespace Task

variable {α β γ δ : Type} {w w' w₁ : World} {es : List Exchange} {a : α}

/-- The calls of a program up to its end, or to one that has to wait, each with its time. -/
def timeline {α : Type} : Task α → World → List (Float × Call)
  | .done _, _ => []
  | .call c next, w => (w.clock, c) ::
    match w.perform c with
    | some (r, w') => timeline (next r) w'
    | none => []

theorem timeline_call {c : Call} {next : c.Reply → Task α} {r : c.Reply}
    (reply : w.perform c = some (r, w')) :
    timeline (.call c next) w = (w.clock, c) :: timeline (next r) w' := by
  rw [timeline, reply]

theorem Ends.timeline_bind {t : Task α} {f : α → Task β} (h : Ends t w es a w₁) :
    timeline (t.bind f) w = timeline t w ++ timeline (f a) w₁ := by
  induction h with
  | done => rfl
  | call reply _ ih =>
    rw [Program.bind, timeline_call reply, timeline_call reply, ih]
    rfl

/-- From a world alike the second program does what the first one does, as long as that makes
covered calls only. -/
def Twins (K : Likeness) (Q : α → β → Prop) (t : Task α) (t' : Task β) : Prop :=
  ∀ ⦃w w' : World⦄ ⦃es : List Exchange⦄ ⦃a : α⦄ ⦃w₁ : World⦄, K.worlds w w' → Ends t w es a w₁ →
    (∀ e ∈ es, K.covers e.call) →
      ∃ es' b w₁', Ends t' w' es' b w₁' ∧ K.worlds w₁ w₁' ∧ Q a b ∧
        List.Forall₂ K.Moments (timeline t w) (timeline t' w')

variable {K : Likeness} {Q : α → β → Prop}

theorem twins_done {b : β} (h : Q a b) : Twins K Q (.done a) (.done b) := by
  intro w w' es x w₁ alike ends _
  obtain ⟨rfl, rfl, rfl⟩ := ends.eq_done
  exact ⟨[], b, w', .done b w', alike, h, .nil⟩

/-- Calls that are kept, and programs after them that are twins for replies that fit. -/
theorem twins_call {c c' : Call} {R : c.Reply → c'.Reply → Prop} {next : c.Reply → Task α}
    {next' : c'.Reply → Task β} (kept : K.Keeps c c' R)
    (rest : ∀ r r', R r r' → Twins K Q (next r) (next' r')) :
    Twins K Q (.call c next) (.call c' next') := by
  intro w w' es x w₁ alike ends covered
  obtain ⟨r, w₂, es, rfl, reply, ends⟩ := ends.of_call
  rw [List.forall_mem_cons] at covered
  obtain ⟨r', w₂', reply', alike', fits⟩ := kept.answers alike covered.1 reply
  obtain ⟨es', b, w₁', ends', last, value, moments⟩ := rest r r' fits alike' ends covered.2
  refine ⟨_, b, w₁', .call reply' ends', last, value, ?_⟩
  rw [timeline_call reply, timeline_call reply']
  exact .cons ⟨K.clock alike, kept.calls⟩ moments

/-- Of a call that is not covered nothing is said. -/
theorem twins_uncovered {c : Call} {next : c.Reply → Task α} {t' : Task β} (h : ¬ K.covers c) :
    Twins K Q (.call c next) t' := by
  intro w w' es x w₁ _ ends covered
  obtain ⟨r, w₂, es, rfl, -, -⟩ := ends.of_call
  exact absurd (covered _ (List.mem_cons_self ..)) h

theorem Twins.bind {Q₁ : γ → δ → Prop} {t : Task α} {t' : Task β} {f : α → Task γ}
    {f' : β → Task δ} (h : Twins K Q t t') (hf : ∀ a b, Q a b → Twins K Q₁ (f a) (f' b)) :
    Twins K Q₁ (t.bind f) (t'.bind f') := by
  intro w w' es x w₁ alike ends covered
  obtain ⟨es₁, a, w₂, es₂, rfl, first, second⟩ := ends.split
  rw [List.forall_mem_append] at covered
  obtain ⟨es₁', b, w₂', first', alike', fits, moments⟩ := h alike first covered.1
  obtain ⟨es₂', y, w₁', second', last, value, moments'⟩ := hf a b fits alike' second covered.2
  -- Each timeline is that of the first part and then that of the second.
  refine ⟨_, y, w₁', first'.bind second', last, value, ?_⟩
  rw [first.timeline_bind, first'.timeline_bind]
  exact List.rel_append moments moments'

/-- A program is a twin of itself if all of its calls are kept. -/
theorem Twins.of_follows {P : Call → Prop} {S : Unit → α → Prop} {t : Task α}
    (h : Follows (Rule.only P) S t ()) (kept : ∀ c, P c → K.Keeps c c Eq) :
    Twins K Eq t t := by
  induction t with
  | done a => exact twins_done rfl
  | call c next ih =>
    refine twins_call (kept c h.1) ?_
    rintro r _ rfl
    exact ih r (h.2 r)

/-- A program is a twin of itself if every call is kept. -/
theorem Twins.refl (kept : ∀ c, K.Keeps c c Eq) (t : Task α) : Twins K Eq t t := by
  induction t with
  | done a => exact twins_done rfl
  | call c next ih =>
    refine twins_call (kept c) ?_
    rintro r _ rfl
    exact ih r

section

variable {work work' : Work α} {f : α → Work β} {f' : α → Work γ}
  {Q : Except Fault β → Except Fault γ → Prop}

/-- Work that ends alike, and then work that fits; an error of the former goes through. -/
theorem Twins.andThen (h : Twins K Eq work.run work'.run)
    (hf : ∀ a, Twins K Q (f a).run (f' a).run) (raised : ∀ e, Q (.error e) (.error e)) :
    Twins K Q (work >>= f).run (work' >>= f').run := by
  refine Twins.bind h ?_
  rintro (e | a) _ rfl
  · exact twins_done (raised e)
  · exact hf a

theorem Twins.tryCatch {handler : Fault → Work α} (h : Twins K Eq work.run work'.run)
    (hh : ∀ e, Twins K Eq (handler e).run (handler e).run) :
    Twins K Eq (tryCatch work handler : Work α).run (tryCatch work' handler : Work α).run := by
  refine Twins.bind h ?_
  rintro (e | a) _ rfl
  · exact hh e
  · exact twins_done rfl

theorem Twins.of_prepares {S : α → Prop} (kept : ∀ c, c.Prepares → K.Keeps c c Eq)
    (h : work.Gives Call.Prepares S) : Twins K Eq work.run work.run :=
  .of_follows h kept

end
end Task

/-! ## Waiting in two runs -/

section

open Work

variable {K : Likeness} (kept : ∀ c, c.Prepares → K.Keeps c c Eq) {probe probe' : Work Bool}

include kept

namespace Readiness

theorem remaining_twins (p : Plan Float) (start : Float) :
    Task.Twins K Eq (remaining Timescale.float (surroundings probe) p start).run
      (remaining Timescale.float (surroundings probe') p start).run := by
  have asks : Work.Gives Call.Prepares (fun _ => True)
      (remaining Timescale.float (surroundings probe) p start) :=
    gives_then (gives_ask trivial) fun _ => gives_pure trivial
  exact .of_prepares kept asks

/-- Polling is the same in two runs, whatever the delays, if the first attempts are the same and
what follows one that has not succeeded is. -/
theorem loop_twins (p : Plan Float) (initialDelay maxDelay start : Float) (fuel fuel' done : Nat)
    (delay delay' : Float) (last : Option Fault)
    (attempts : ∀ bound, Task.Twins K Eq (within bound probe).run (within bound probe').run)
    (retries : ∀ last, Task.Twins K Eq
      (retry Timescale.float (surroundings probe) p start fuel done delay last).run
      (retry Timescale.float (surroundings probe')
        { p with initialDelay := initialDelay, maxDelay := maxDelay } start fuel' done delay'
        last).run) :
    Task.Twins K Eq
      (loop Timescale.float (surroundings probe) p start (fuel + 1) done delay last).run
      (loop Timescale.float (surroundings probe')
        { p with initialDelay := initialDelay, maxDelay := maxDelay } start (fuel' + 1) done delay'
        last).run := by
  have logged (level : Level) (text : String) :
      Task.Twins K Eq (Work.log level text).run (Work.log level text).run :=
    .of_prepares kept (gives_log trivial)
  refine Task.Twins.andThen (remaining_twins kept p start) (fun bound => ?_) fun _ => rfl
  refine Task.Twins.andThen (attempts _) (fun found => ?_) fun _ => rfl
  -- The delays are looked at by a retry only.
  rcases found with f | _ | _
  · simp only [surroundings]
    split
    · exact Task.Twins.andThen (logged _ _) (fun _ => retries (some f)) fun _ => rfl
    · exact retries (some f)
  · exact retries last
  · simp only [surroundings]
    split
    · exact Task.Twins.andThen (logged _ _) (fun _ => Task.twins_done rfl) fun _ => rfl
    · exact Task.twins_done rfl

theorem polling_twins (timeout : Seconds) (service : Option String) (p : Plan Float)
    (initialDelay maxDelay : Float)
    (loops : ∀ start, Task.Twins K Eq
      (loop Timescale.float (surroundings probe) p start (attemptBound p) 0 p.initialDelay
        none).run
      (loop Timescale.float (surroundings probe')
        { p with initialDelay := initialDelay, maxDelay := maxDelay } start
        (attemptBound { p with initialDelay := initialDelay, maxDelay := maxDelay }) 0 initialDelay
        none).run) :
    Task.Twins K Eq (polling probe timeout service p).run
      (polling probe' timeout service
        { p with initialDelay := initialDelay, maxDelay := maxDelay }).run := by
  have clock : Task.Twins K Eq (Work.ask .now).run (Work.ask .now).run :=
    .of_prepares kept (gives_ask trivial)
  refine Task.Twins.andThen (Task.Twins.andThen clock loops fun _ => rfl) (fun outcome => ?_)
    fun _ => rfl
  cases outcome with
  | ready n => exact Task.twins_done rfl
  | timedOut n last => exact Task.twins_done rfl

end Readiness

/-- A service is waited for in the same way in two runs if polling is the same. -/
theorem Provisioner.waitReady_twins (service : Service) (k : Capability) (timeout : Seconds)
    (description : String)
    (waits : Task.Twins K Eq (Readiness.await probe timeout description service.word).run
      (Readiness.await probe' timeout description service.word).run) :
    Task.Twins K Eq (waitReady service k probe timeout description).run
      (waitReady service k probe' timeout description).run := by
  refine Task.Twins.andThen (Task.Twins.tryCatch waits fun f => ?_)
    (fun _ => Task.twins_done rfl) fun _ => rfl
  split
  · exact Task.twins_done rfl
  · refine .of_prepares (S := fun _ => True) kept ?_
    exact gives_then (gives_looks (Client.containerStatus_gives _)) fun _ =>
      gives_then (gives_log trivial) fun _ => gives_throw

end
end Testbed

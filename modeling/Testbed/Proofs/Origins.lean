import Mathlib.Data.List.Forall2
import Testbed.Proofs.Families

/-!
# Where jobs come from

Each job of a loop has begun with some course, its origin, and whatever it does is what may remain
of that course (`Work.Traced`).  Work that is handed in is the origin of its own job; the parts of
a course that gathers are the origins of the jobs that it starts.
-/

namespace Testbed
namespace Background

variable {α : Type} {s : Bool} {c d o : Course α} {j j' : Job α} {os : List (Course α)}

/-- A property that the course of a job hands down to what remains of it and to its parts. -/
structure Hereditary (stopped : Bool) (Q : Course α → Prop) : Prop where
  rest : ∀ {c d : Course α}, Q c → c.Rest stopped d → Q d
  part : ∀ {p : Course α} {parts : List (Course α)} {resume : Except Fault (List α) → Course α},
    Q (.gather parts resume) → p ∈ parts → Q p

theorem hereditary_outside : Hereditary s (Course.Outside (α := α)) where
  rest := Course.Outside.rest
  part := by
    intro p parts resume h hp
    cases h with
    | gather each _ => exact each p hp

theorem hereditary_yields : Hereditary false (Course.Yields (α := α)) where
  rest := Course.Yields.rest
  part := by
    intro p parts resume h hp
    cases h with
    | gather each _ _ _ => exact each p hp

/-- A job at the stage goes on along what may remain of its origin.  A job that is cancelled while
it waits for others forgets their values. -/
def JobStage.Traces (stopped : Bool) (os : List (Course α)) (o : Course α) : JobStage α → Prop
  | .accepted c => c = o
  | .queued go cancelled => o.Rest stopped go ∧ o.Cut stopped cancelled
  | .waiting _ resume => ∃ w, o.Rest stopped (.wait w resume)
  | .joining ids _ resume =>
    ∃ parts whole, List.Forall₂ (fun p c => os[p]? = some c) ids parts ∧
      o.Rest stopped (.gather parts whole) ∧
        (resume = whole ∨ (stopped = true ∧ resume = Loop.interrupted whole))
  | .ended r => o.Comes stopped r

/-- The job has the origin. -/
structure Job.Traced (stopped : Bool) (os : List (Course α)) (o : Course α) (j : Job α) :
    Prop where
  stage : j.stage.Traces stopped os o
  /-- Jobs are cancelled only by a loop that has been stopped. -/
  mark : j.cancelled = true → stopped = true
  /-- What the caller is told is how the job has ended. -/
  future : ∀ x, j.future = some x → ∃ r, j.stage = .ended r ∧ x = Loop.crossing r

/-- The jobs have the origins. -/
structure Work.Traced (stopped : Bool) (os : List (Course α)) (w : Work α) : Prop where
  length : os.length = w.jobs.length
  each : ∀ {i : Nat} {j : Job α} {o : Course α}, w.jobs[i]? = some j → os[i]? = some o →
    j.Traced stopped os o

/-! ## More origins, later -/

theorem forall₂_more {more parts : List (Course α)} {ids : List Nat}
    (h : List.Forall₂ (fun p c => os[p]? = some c) ids parts) :
    List.Forall₂ (fun p c => (os ++ more)[p]? = some c) ids parts := by
  refine h.imp ?_
  intro p c hp
  rw [List.getElem?_append_left (List.getElem?_eq_some_iff.1 hp).1]
  exact hp

theorem JobStage.Traces.mono {st : JobStage α} {s' : Bool} {more : List (Course α)}
    (h : st.Traces s os o) (later : s = true → s' = true) : st.Traces s' (os ++ more) o := by
  cases st with
  | accepted c => exact h
  | queued go cancelled => exact ⟨h.1.mono_of later, h.2.mono_of later⟩
  | waiting due resume =>
    rcases h with ⟨w, h⟩
    exact ⟨w, h.mono_of later⟩
  | joining ids left resume =>
    rcases h with ⟨parts, whole, same, h, ways⟩
    refine ⟨parts, whole, forall₂_more same, h.mono_of later, ?_⟩
    exact ways.imp_right fun h => ⟨later h.1, h.2⟩
  | ended r => exact h.mono_of later

theorem Job.Traced.mono {s' : Bool} {more : List (Course α)} (h : j.Traced s os o)
    (later : s = true → s' = true) : j.Traced s' (os ++ more) o where
  stage := h.stage.mono later
  mark := fun hm => later (h.mark hm)
  future := h.future

/-- The course of a job whose turn has come is what remains of its origin. -/
theorem Job.Traced.course {go cancelled : Course α} (h : j.Traced s os o)
    (hs : j.stage = .queued go cancelled) : o.Rest s (j.course go cancelled) := by
  have stage := h.stage
  rw [hs] at stage
  unfold Job.course
  split
  · rename_i mark
    rw [h.mark mark]
    exact stage.2.rest
  · exact stage.1

/-- Nobody has been told anything of a job that has not ended. -/
theorem Job.Traced.future_of_unended (h : j.Traced s os o) (hs : ∀ r, j.stage ≠ .ended r)
    {x : Except Fault α} (hx : j.future = some x) : False := by
  rcases h.future x hx with ⟨r, hr, -⟩
  exact hs r hr

/-! ## What the parts of a job come to -/

theorem mapM_eq_some {β : Type} {f : Nat → Option β} {ids : List Nat}
    (all : ∀ p ∈ ids, ∃ a, f p = some a) :
    ∃ vs, ids.mapM f = some vs ∧ List.Forall₂ (fun p a => f p = some a) ids vs := by
  induction ids with
  | nil => exact ⟨[], rfl, .nil⟩
  | cons p ids ih =>
    rcases all p List.mem_cons_self with ⟨a, ha⟩
    rcases ih (fun q hq => all q (List.mem_cons_of_mem p hq)) with ⟨vs, hv, each⟩
    exact ⟨a :: vs, by simp [List.mapM_cons, ha, hv], .cons ha each⟩

theorem value?_eq_some {jobs : List (Job α)} {p : Nat} {a : α} : value? jobs p = some a ↔
    ∃ k, jobs[p]? = some k ∧ k.stage = .ended (.ok a) := by
  unfold value?
  cases jobs[p]? with
  | none => simp
  | some k => cases hs : k.stage with
    | ended r => cases r <;> simp [hs]
    | _ => simp [hs]

theorem partner {β γ : Type} {R : β → γ → Prop} {xs : List β} {ys : List γ} {m : Nat} {y : γ}
    (h : List.Forall₂ R xs ys) (hy : ys[m]? = some y) : ∃ x, xs[m]? = some x ∧ R x y := by
  rcases List.forall₂_iff_get.1 h with ⟨len, each⟩
  rcases List.getElem?_eq_some_iff.1 hy with ⟨hm, rfl⟩
  have hm' : m < xs.length := len ▸ hm
  exact ⟨xs[m], List.getElem?_eq_getElem hm', each m hm' hm⟩

theorem forall₂_started (os parts : List (Course α)) :
    List.Forall₂ (fun p c => (os ++ parts)[p]? = some c) (List.range' os.length parts.length)
      parts := by
  rw [List.forall₂_iff_get]
  refine ⟨List.length_range', ?_⟩
  intro m hm hm'
  rw [List.get_eq_getElem, List.getElem_range', List.getElem?_append_right (by omega)]
  simp [List.getElem?_eq_getElem hm']

section Parts

variable {w : Work α} {ids : List Nat} {parts : List (Course α)} {i p left : Nat}
  {r : Except Fault α} {x : Except Fault (List α)} {k : Job α}

theorem Work.Traced.comes (traced : w.Traced s os) (hk : w.jobs[p]? = some k)
    (hr : k.stage = .ended r) (ho : os[p]? = some c) : c.Comes s r := by
  have stage := (traced.each hk ho).stage
  rwa [hr] at stage

/-- The other parts have told the job how they ended. -/
theorem Work.Family.others_told {q : Nat} (family : w.Family i ids left) (hl : left ≤ 1)
    (hp : p ∈ ids) (news : .settle p ∈ w.calls) (hq : q ∈ ids) (hne : q ≠ p) :
    w.untold q = false := by
  have untold : w.untold p = true := Work.untold_eq_true.2 (.inr news)
  have counted := family.left_eq
  rw [(List.perm_cons_erase hp).countP_eq, List.countP_cons_of_pos untold] at counted
  have none : (ids.erase p).countP w.untold = 0 := by omega
  have rest := List.countP_eq_zero.1 none q (family.nodup.mem_erase_iff.2 ⟨hne, hq⟩)
  exact Bool.eq_false_of_not_eq_true rest

/-- The last part that tells the job how it has ended brings what the parts may come to. -/
theorem Work.Traced.joins (traced : w.Traced s os) (family : w.Family i ids left)
    (same : List.Forall₂ (fun p c => os[p]? = some c) ids parts) (hp : p ∈ ids)
    (hk : w.jobs[p]? = some k) (hr : k.stage = .ended r) (news : .settle p ∈ w.calls)
    (hx : Brings w.jobs ids left r x) : Course.Joins s parts x := by
  cases hx with
  | error f =>
    rcases List.mem_iff_getElem?.1 hp with ⟨m, hm⟩
    rcases partner same.flip hm with ⟨c, hc, ho⟩
    exact .failed (List.mem_of_getElem? hc) (traced.comes hk hr ho)
  | last a hl =>
    have ended : ∀ q ∈ ids, ∃ b, value? w.jobs q = some b := by
      intro q hq
      by_cases hne : q = p
      · exact ⟨a, value?_eq_some.2 ⟨k, hne ▸ hk, hr⟩⟩
      · rcases family.told q hq (family.others_told hl hp news hq hne) with ⟨k', b, hk', hb⟩
        exact ⟨b, value?_eq_some.2 ⟨k', hk', hb⟩⟩
    -- Hence the values are complete, and each is what one of the parts has come to.
    rcases mapM_eq_some ended with ⟨vs, hv, values⟩
    rw [hv, Option.getD_some]
    refine .all (values.length_eq.symm.trans same.length_eq) ?_
    intro m c v hc hv
    rcases partner same hc with ⟨q, hq, ho⟩
    rcases partner values hv with ⟨q', hq', value⟩
    cases hq.symm.trans hq'
    rcases value?_eq_some.1 value with ⟨k', hk', hb⟩
    exact traced.comes hk' hb ho

end Parts

/-! ## Acts and cancellations -/

theorem traced_part (owner : Nat) (c : Course α) : (Job.part owner c).Traced s os c where
  stage := ⟨.begins c, .early⟩
  mark := nofun
  future := nofun

/-- What a job hands down to the jobs that it starts: they begin with the parts of what remains of
its own origin. -/
inductive Starts (stopped : Bool) (o : Course α) (i : Nat) : List (Job α) → List (Course α) → Prop
  | nothing : Starts stopped o i [] []
  | parts {parts : List (Course α)} {resume : Except Fault (List α) → Course α}
      (h : o.Rest stopped (.gather parts resume)) :
      Starts stopped o i (parts.map (Job.part i)) parts

section Changes

variable {w : Work α} {i : Nat} {used rest added : List Callback} {started : List (Job α)}

/-- A job that has not ended goes on. -/
theorem Job.Traced.goes {st : JobStage α} {m : Bool} {os' : List (Course α)}
    (h : j.Traced s os o) (hs : ∀ r, j.stage ≠ .ended r) (new : st.Traces s os' o)
    (hm : m = true → s = true) :
    Job.Traced s os' o { j with stage := st, cancelled := m } :=
  ⟨new, hm, fun _ hx => (h.future_of_unended hs hx).elim⟩

/-- The wait of a job is over. -/
theorem JobStage.Traces.resumed {due : Due} {resume : Except Fault Unit → Course α}
    (h : (JobStage.waiting due resume).Traces s os o) :
    (JobStage.resuming resume (.ok ())).Traces s os o := by
  rcases h with ⟨w, h⟩
  exact ⟨.goesOn h, .wait h⟩

/-- A job learns what its parts have come to. -/
theorem JobStage.Traces.joined {ids : List Nat} {left : Nat}
    {resume : Except Fault (List α) → Course α}
    (h : (JobStage.joining ids left resume).Traces s os o) :
    ∃ parts, List.Forall₂ (fun p c => os[p]? = some c) ids parts ∧
      ∀ x, Course.Joins s parts x → (JobStage.resuming resume x).Traces s os o := by
  rcases h with ⟨parts, whole, same, h, rfl | ⟨rfl, rfl⟩⟩
  · exact ⟨parts, same, fun x hx => ⟨h.joined hx, .gather h⟩⟩
  · have cut : o.Cut true (whole (.error Fault.cancelled)) := .gather h
    refine ⟨parts, same, fun x hx => ⟨?_, cut⟩⟩
    cases x with
    | ok vs => exact .cutOff rfl h
    | error f => exact h.joined hx

theorem Job.Traced.acts (h : j.Traced s os o) (sound : w.Sound) (traced : w.Traced s os)
    (hi : w.jobs[i]? = some j) (acts : Acts w.jobs i j used j' started added)
    (hc : w.calls = used ++ rest) :
    ∃ more, Starts s o i started more ∧ j'.Traced s (os ++ more) o := by
  have stage := h.stage
  -- A course that goes on is a rest of its origin; only one that gathers brings in new origins.
  cases acts with
  | made hs =>
    rw [hs] at stage
    cases (stage : _ = o)
    exact ⟨[], .nothing, h.goes (by simp [hs]) ⟨.begins _, .early⟩ h.mark⟩
  | ends hs hc' =>
    have comes := hc' ▸ (h.course hs).skip
    exact ⟨[], .nothing, h.goes (by simp [hs]) comes nofun⟩
  | yields hs hc' =>
    have waits := hc' ▸ (h.course hs).skip
    exact ⟨[], .nothing, h.goes (by simp [hs]) ⟨.goesOn waits, .wait waits⟩ nofun⟩
  | waits hs hc' hd =>
    have waits := hc' ▸ (h.course hs).skip
    exact ⟨[], .nothing, h.goes (by simp [hs]) ⟨_, waits⟩ nofun⟩
  | @gathers go cancelled parts resume ids hs hc' some hids =>
    have gathers := hc' ▸ (h.course hs).skip
    refine ⟨parts, .parts gathers, h.goes (by simp [hs]) ?_ nofun⟩
    exact ⟨parts, resume, hids ▸ traced.length ▸ forall₂_started os parts, gathers, .inl rfl⟩
  | tells hs ho hf =>
    refine ⟨[], .nothing, ⟨h.stage.mono id, h.mark, ?_⟩⟩
    intro x hx
    cases hx
    exact ⟨_, hs, rfl⟩
  | joins hs hp hk hr ho hx =>
    rw [hs] at stage
    rcases stage.joined with ⟨parts, same, joined⟩
    have news := traced.joins (sound.families hi hs) same hp hk hr (by simp [hc]) hx
    exact ⟨[], .nothing, h.goes (by simp [hs]) ((joined _ news).mono id) h.mark⟩
  | @counts parts left p resume k a hs hp hk hr ho hl =>
    rw [hs] at stage
    have same : JobStage.Traces s os o (.joining parts (left - 1) resume) := stage
    exact ⟨[], .nothing, h.goes (by simp [hs]) (same.mono id) h.mark⟩
  | wakes hs hd =>
    rw [hs] at stage
    exact ⟨[], .nothing, h.goes (by simp [hs]) (stage.resumed.mono id) h.mark⟩

theorem Job.Traced.cancels (h : j.Traced true os o) (cancels : Cancels w.jobs i j j' added) :
    j'.Traced true os o := by
  have stage := h.stage
  cases cancels with
  | waiting hs =>
    rw [hs] at stage
    exact h.goes (by simp [hs]) stage.resumed fun _ => rfl
  | queued hs => exact ⟨stage, fun _ => rfl, h.future⟩
  | joined hs => exact ⟨stage, fun _ => rfl, h.future⟩
  | joining hs =>
    rw [hs] at stage
    rcases stage with ⟨parts, whole, same, hr, ways⟩
    refine h.goes (by simp [hs]) ⟨parts, whole, same, hr, .inr ⟨rfl, ?_⟩⟩ h.mark
    rcases ways with rfl | ⟨-, rfl⟩
    · rfl
    · -- Cancelling it once more changes nothing.
      funext x
      cases x <;> rfl

/-- Jobs and their origins after a change, which may start jobs. -/
theorem Work.Traced.changed (traced : w.Traced s os) (sound : w.Sound) (hi : w.jobs[i]? = some j)
    (h : Changes s w.jobs i j used j' started added) (hc : w.calls = used ++ rest)
    (ho : os[i]? = some o) (calls : List Callback) :
    ∃ more, Starts s o i started more ∧ (w.changed i j' started calls).Traced s (os ++ more) := by
  have new : ∃ more, Starts s o i started more ∧ j'.Traced s (os ++ more) o := by
    cases h with
    | act acts => exact (traced.each hi ho).acts sound traced hi acts hc
    | cancel hs cancels =>
      cases hs
      exact ⟨[], .nothing, ((traced.each hi ho).cancels cancels).mono id⟩
  rcases new with ⟨more, starts, new⟩
  -- The jobs that are started and their origins are added in the same order.
  have same : more.length = started.length := by
    cases starts with
    | nothing => rfl
    | parts => exact (List.length_map _).symm
  refine ⟨more, starts, ?_, ?_⟩
  · simp [Work.changed, traced.length, same]
  · intro k x c hk hko
    rcases changed_cases hk with ⟨rfl, rfl⟩ | ⟨hne, hk⟩ | ⟨m, rfl, hx⟩
    · rw [List.getElem?_append_left (List.getElem?_eq_some_iff.1 ho).1] at hko
      cases ho.symm.trans hko
      exact new
    · have inside : k < os.length := traced.length ▸ (List.getElem?_eq_some_iff.1 hk).1
      rw [List.getElem?_append_left inside] at hko
      exact (traced.each hk hko).mono id
    · rw [← traced.length, List.getElem?_append_right (by omega), Nat.add_sub_cancel_left] at hko
      cases starts with
      | nothing => cases hx
      | parts =>
        rw [List.getElem?_map, hko] at hx
        cases hx
        exact traced_part i c

/-- A job hands down the courses of the jobs that it starts. -/
theorem Starts.eq {parts more : List (Course α)} (h : Starts s o i (parts.map (Job.part i)) more) :
    more = parts := by
  generalize hst : parts.map (Job.part i) = started at h
  cases h with
  | nothing => exact (List.map_eq_nil_iff.1 hst).symm
  | parts =>
    refine (List.map_injective_iff.2 ?_ hst).symm
    intro c d hcd
    cases hcd
    rfl

theorem Starts.hereditary {Q : Course α → Prop} {more : List (Course α)}
    (h : Starts s o i started more) (hereditary : Hereditary s Q) (ho : Q o) :
    ∀ m ∈ more, Q m := by
  intro m hm
  cases h with
  | nothing => cases hm
  | parts gathers => exact hereditary.part (hereditary.rest ho gathers) hm

end Changes

/-! ## Runs of a loop -/

section

variable {w w' : Work α}

/-- The origins of the jobs that are started have what is handed down to them. -/
structure Inherited (stopped : Bool) (os more : List (Course α)) : Prop where
  each : ∀ {Q : Course α → Prop}, Hereditary stopped Q → (∀ o ∈ os, Q o) → ∀ o ∈ os ++ more, Q o

theorem Inherited.refl : Inherited s os [] where
  each := fun _ h => by simpa using h

theorem Inherited.trans {more new : List (Course α)} (h : Inherited s os more)
    (h' : Inherited s (os ++ more) new) : Inherited s os (more ++ new) where
  each := by
    intro Q hereditary each
    rw [← List.append_assoc]
    exact h'.each hereditary (h.each hereditary each)

theorem Work.Traced.moves (traced : w.Traced s os) (sound : w.Sound) (h : Work.Moves s w w') :
    ∃ more, w'.Traced s (os ++ more) ∧ Inherited s os more := by
  cases h with
  | @idles c rest hc idle =>
    have same : Work.Traced s os ⟨w.jobs, rest⟩ := ⟨traced.length, traced.each⟩
    exact ⟨[], by simpa using same, .refl⟩
  | @changes i j j' started used rest added hi h hc =>
    have inside : i < os.length := traced.length ▸ (List.getElem?_eq_some_iff.1 hi).1
    rcases traced.changed sound hi h hc (List.getElem?_eq_getElem inside) _ with
      ⟨more, starts, traced'⟩
    refine ⟨more, traced', ⟨?_⟩⟩
    intro Q hereditary each o ho
    rcases List.mem_append.1 ho with old | new
    · exact each o old
    · exact starts.hereditary hereditary (each _ (List.getElem_mem inside)) o new

theorem Work.Traced.all (traced : w.Traced s os) (sound : w.Sound)
    (h : Relation.ReflTransGen (Work.Moves s) w w') :
    ∃ more, w'.Traced s (os ++ more) ∧ Inherited s os more := by
  induction h with
  | refl => exact ⟨[], by simpa using traced, .refl⟩
  | tail moves move ih =>
    rcases ih with ⟨more, traced', inherited⟩
    rcases traced'.moves (sound.all moves) move with ⟨new, traced'', inherited'⟩
    exact ⟨more ++ new, by simpa using traced'', inherited.trans inherited'⟩

/-- Work that is handed in is the origin of its own job. -/
theorem Work.Traced.accepts (traced : w.Traced s os) (d : Course α) (calls : List Callback) :
    (Work.mk (w.jobs ++ [{ stage := .accepted d }]) calls).Traced s (os ++ [d]) where
  length := by simp [traced.length]
  each := by
    intro i j o hi ho
    rcases accepted_cases hi with old | ⟨rfl, rfl⟩
    · have inside : i < os.length := traced.length ▸ (List.getElem?_eq_some_iff.1 old).1
      rw [List.getElem?_append_left inside] at ho
      exact (traced.each old ho).mono id
    · rw [← traced.length, List.getElem?_append_right le_rfl] at ho
      cases (by simpa using ho : d = o)
      exact ⟨rfl, nofun, nofun⟩

theorem Work.Traced.later (traced : w.Traced s os) {s' : Bool} (h : s = true → s' = true) :
    w.Traced s' os where
  length := traced.length
  each := by
    intro i j o hi ho
    have same : j.Traced s' (os ++ []) o := (traced.each hi ho).mono h
    rwa [List.append_nil] at same

end

end Background
end Testbed

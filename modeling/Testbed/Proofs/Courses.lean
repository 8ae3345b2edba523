import Mathlib.SetTheory.Ordinal.Family
import Testbed.Background.Course

/-!
# What may remain of a course

`c.Rest stopped d` says that a job with the course `c` may come to have the course `d`: its waits
come to an end, what it gathers comes to what may be the end of each of its parts, and it may be
cancelled if the loop has been stopped.  The results that a job may have (`Course.Comes`) are read
off this relation.  The height of a course, an ordinal, falls whenever a job goes on.
-/

namespace Testbed
namespace Background
namespace Course

variable {α : Type} {s : Bool} {c d : Course α} {w : Wait} {f : Fault} {r : Except Fault α}
  {parts : List (Course α)}

/-! ## One job -/

/-- A job that begins with the first course may come to have the second one. -/
inductive Rest (stopped : Bool) : Course α → Course α → Prop where
  | begins (c : Course α) : Rest stopped c c
  /-- It is cancelled before its first turn. -/
  | abandons (c : Course α) (hs : stopped = true) : Rest stopped c abandoned
  | goesOn {c : Course α} {w : Wait} {resume : Except Fault Unit → Course α}
      (h : Rest stopped c (.wait w resume)) : Rest stopped c (resume (.ok ()))
  | interrupted {c : Course α} {w : Wait} {resume : Except Fault Unit → Course α}
      (hs : stopped = true) (h : Rest stopped c (.wait w resume)) :
      Rest stopped c (resume (.error Fault.cancelled))
  /-- All parts have ended with a value. -/
  | joins {c : Course α} {parts : List (Course α)} {resume : Except Fault (List α) → Course α}
      {vs : List α} (h : Rest stopped c (.gather parts resume)) (len : vs.length = parts.length)
      (each : ∀ (k : Nat) (p : Course α) (v : α), parts[k]? = some p → vs[k]? = some v →
        Rest stopped p (.ended (.ok v))) :
      Rest stopped c (resume (.ok vs))
  /-- A part has failed. -/
  | fails {c p : Course α} {parts : List (Course α)} {resume : Except Fault (List α) → Course α}
      {f : Fault} (h : Rest stopped c (.gather parts resume)) (hp : p ∈ parts)
      (failed : Rest stopped p (.ended (.error f))) : Rest stopped c (resume (.error f))
  | cutOff {c : Course α} {parts : List (Course α)} {resume : Except Fault (List α) → Course α}
      (hs : stopped = true) (h : Rest stopped c (.gather parts resume)) :
      Rest stopped c (resume (.error Fault.cancelled))

/-- A job with the course may end like this. -/
def Comes (stopped : Bool) (c : Course α) (r : Except Fault α) : Prop := c.Rest stopped (.ended r)

/-- What gathering the parts may come to: all values, or the error of one of them. -/
inductive Joins (stopped : Bool) (parts : List (Course α)) : Except Fault (List α) → Prop where
  | all {vs : List α} (len : vs.length = parts.length)
      (each : ∀ (k : Nat) (p : Course α) (v : α), parts[k]? = some p → vs[k]? = some v →
        p.Comes stopped (.ok v)) : Joins stopped parts (.ok vs)
  | failed {p : Course α} {f : Fault} (hp : p ∈ parts) (h : p.Comes stopped (.error f)) :
      Joins stopped parts (.error f)

theorem Rest.joined {resume : Except Fault (List α) → Course α} {x : Except Fault (List α)}
    (h : c.Rest s (.gather parts resume)) (hx : Joins s parts x) : c.Rest s (resume x) := by
  cases hx with
  | all len each => exact .joins h len each
  | failed hp failed => exact .fails h hp failed

/-- What may happen to a loop that runs may also happen to one that has been stopped. -/
theorem Rest.mono (h : c.Rest s d) : c.Rest true d := by
  induction h with
  | begins c => exact .begins c
  | abandons c hs => exact .abandons c rfl
  | goesOn _ ih => exact .goesOn ih
  | interrupted hs _ ih => exact .interrupted rfl ih
  | joins _ len _ ih each => exact .joins ih len each
  | fails _ hp _ ih failed => exact .fails ih hp failed
  | cutOff hs _ ih => exact .cutOff rfl ih

theorem Rest.mono_of {s' : Bool} (h : c.Rest s d) (later : s = true → s' = true) :
    c.Rest s' d := by
  cases s' with
  | true => exact h.mono
  | false =>
    cases s with
    | true => exact absurd (later rfl) (by decide)
    | false => exact h

/-- What remains of a job if it is cancelled now. -/
inductive Cut (stopped : Bool) (c : Course α) : Course α → Prop where
  | early : Cut stopped c abandoned
  | wait {w : Wait} {resume : Except Fault Unit → Course α} (h : c.Rest stopped (.wait w resume)) :
      Cut stopped c (resume (.error Fault.cancelled))
  | gather {parts : List (Course α)} {resume : Except Fault (List α) → Course α}
      (h : c.Rest stopped (.gather parts resume)) : Cut stopped c (resume (.error Fault.cancelled))

theorem Cut.rest (h : c.Cut s d) : c.Rest true d := by
  cases h with
  | early => exact .abandons c rfl
  | wait h => exact .interrupted rfl h.mono
  | gather h => exact .cutOff rfl h.mono

theorem Cut.mono_of {s' : Bool} (h : c.Cut s d) (later : s = true → s' = true) : c.Cut s' d := by
  cases h with
  | early => exact .early
  | wait h => exact .wait (h.mono_of later)
  | gather h => exact .gather (h.mono_of later)

/-! ## What a job comes to by itself -/

theorem rest_wait {resume : Except Fault Unit → Course α}
    (h : (Course.wait w resume).Rest false d) :
    d = .wait w resume ∨ (resume (.ok ())).Rest false d := by
  generalize hc : Course.wait w resume = c at h
  induction h with
  | begins c => exact .inl rfl
  | abandons c hs | interrupted hs | cutOff hs => cases hs
  | goesOn _ ih =>
    subst hc
    rcases ih rfl with same | rest
    · cases same
      exact .inr (.begins _)
    · exact .inr (.goesOn rest)
  | joins _ len each ih =>
    rcases ih hc with same | rest
    · cases hc.trans same.symm
    · exact .inr (.joins rest len each)
  | fails _ hp failed ih =>
    rcases ih hc with same | rest
    · cases hc.trans same.symm
    · exact .inr (.fails rest hp failed)

theorem rest_gather {resume : Except Fault (List α) → Course α}
    (h : (Course.gather parts resume).Rest false d) :
    d = .gather parts resume ∨ ∃ x, Joins false parts x ∧ (resume x).Rest false d := by
  generalize hc : Course.gather parts resume = c at h
  induction h with
  | begins c => exact .inl rfl
  | abandons c hs | interrupted hs | cutOff hs => cases hs
  | goesOn _ ih =>
    rcases ih hc with same | ⟨x, hx, rest⟩
    · cases hc.trans same.symm
    · exact .inr ⟨x, hx, .goesOn rest⟩
  | joins _ len each ih =>
    subst hc
    rcases ih rfl with same | ⟨x, hx, rest⟩
    · cases same
      exact .inr ⟨_, .all len each, .begins _⟩
    · exact .inr ⟨x, hx, .joins rest len each⟩
  | fails _ hp failed ih =>
    subst hc
    rcases ih rfl with same | ⟨x, hx, rest⟩
    · cases same
      exact .inr ⟨_, .failed hp failed, .begins _⟩
    · exact .inr ⟨x, hx, .fails rest hp failed⟩

theorem rest_ended (h : (Course.ended r).Rest false d) : d = .ended r := by
  generalize hc : Course.ended r = c at h
  induction h with
  | begins c => rfl
  | abandons c hs | interrupted hs | cutOff hs => cases hs
  | goesOn _ ih | joins _ _ _ ih | fails _ _ _ ih => cases hc.trans (ih hc).symm

theorem Rest.trans {e : Course α} (h : c.Rest false d) (h' : d.Rest false e) : c.Rest false e := by
  induction h' with
  | begins d => exact h
  | abandons d hs | interrupted hs | cutOff hs => cases hs
  | goesOn _ ih => exact .goesOn (ih h)
  | joins _ len each ih _ => exact .joins (ih h) len each
  | fails _ hp failed ih _ => exact .fails (ih h) hp failed

theorem comes_ended {r' : Except Fault α} : (Course.ended r).Comes false r' ↔ r' = r := by
  constructor
  · intro h
    cases rest_ended h
    rfl
  · rintro rfl
    exact .begins _

theorem comes_wait {resume : Except Fault Unit → Course α} :
    (Course.wait w resume).Comes false r ↔ (resume (.ok ())).Comes false r := by
  constructor
  · intro h
    exact (rest_wait h).resolve_left (by simp)
  · intro h
    exact .trans (.goesOn (.begins _)) h

theorem comes_gather {resume : Except Fault (List α) → Course α} :
    (Course.gather parts resume).Comes false r ↔
      ∃ x, Joins false parts x ∧ (resume x).Comes false r := by
  constructor
  · intro h
    exact (rest_gather h).resolve_left (by simp)
  · rintro ⟨x, joins, h⟩
    exact .trans (Rest.joined (.begins _) joins) h

/-! ## Gathering nothing -/

/-- The course after the beginning of it that takes no time: nothing is gathered. -/
def skip : Course α → Course α
  | .gather [] resume => skip (resume (.ok []))
  | c => c

theorem skip_ne (c : Course α) (resume : Except Fault (List α) → Course α) :
    c.skip ≠ .gather [] resume := by
  fun_induction skip c with
  | case1 next ih => exact ih
  | case2 c hc =>
    intro h
    exact hc resume h

theorem Rest.skip (h : c.Rest s d) : c.Rest s d.skip := by
  fun_induction Course.skip d with
  | case1 resume ih =>
    refine ih (.joins h rfl ?_)
    intro k p v hp
    simp at hp
  | case2 d _ => exact h

/-! ## Well-behaved courses -/

/-- The job does not shut down the loop that it runs on. -/
inductive Outside : Course α → Prop where
  | ended (r : Except Fault α) : Outside (.ended r)
  | wait {w : Wait} {resume : Except Fault Unit → Course α} (h : ∀ x, Outside (resume x)) :
      Outside (.wait w resume)
  | gather {parts : List (Course α)} {resume : Except Fault (List α) → Course α}
      (hp : ∀ p ∈ parts, Outside p) (h : ∀ x, Outside (resume x)) :
      Outside (.gather parts resume)

theorem Outside.rest (h : c.Outside) (hr : c.Rest s d) : d.Outside := by
  induction hr with
  | begins c => exact h
  | abandons c hs => exact .ended _
  | goesOn _ ih | interrupted _ _ ih =>
    cases ih h with
    | wait h => exact h _
  | joins _ _ _ ih _ | fails _ _ _ ih _ | cutOff _ _ ih =>
    cases ih h with
    | gather _ h => exact h _

theorem Outside.skip (h : c.Outside) : c.skip.Outside :=
  h.rest (s := true) (Rest.begins c).skip

/-- The job ends if it is not cancelled (any more), whatever its parts come to. -/
inductive Ends : Course α → Prop where
  | ended (r : Except Fault α) : Ends (.ended r)
  | wait {w : Wait} {resume : Except Fault Unit → Course α} (comes : w ≠ .never)
      (h : Ends (resume (.ok ()))) : Ends (.wait w resume)
  | gather {parts : List (Course α)} {resume : Except Fault (List α) → Course α}
      (hp : ∀ p ∈ parts, Ends p) (h : ∀ x, Joins true parts x → Ends (resume x)) :
      Ends (.gather parts resume)

/-- The job ends once it is cancelled, and so do its parts.  What it gathers may come to the error
of a part although it has been cancelled: the part may have failed before. -/
inductive Yields : Course α → Prop where
  | ended (r : Except Fault α) : Yields (.ended r)
  | wait {w : Wait} {resume : Except Fault Unit → Course α} (h : Yields (resume (.ok ())))
      (hc : Ends (resume (.error Fault.cancelled))) : Yields (.wait w resume)
  | gather {parts : List (Course α)} {resume : Except Fault (List α) → Course α}
      (hp : ∀ p ∈ parts, Yields p) (h : ∀ x, Joins false parts x → Yields (resume x))
      (hf : ∀ f, Joins true parts (.error f) → Ends (resume (.error f)))
      (hc : Ends (resume (.error Fault.cancelled))) : Yields (.gather parts resume)

theorem joins_nil : Joins s ([] : List (Course α)) (.ok []) := by
  refine .all rfl ?_
  intro k p v hp
  simp at hp

theorem Ends.skip (h : c.Ends) : c.skip.Ends := by
  fun_induction Course.skip c with
  | case1 resume ih =>
    cases h with
    | gather _ h => exact ih (h _ joins_nil)
  | case2 c _ => exact h

theorem Yields.rest (h : c.Yields) (hr : c.Rest false d) : d.Yields := by
  induction hr with
  | begins c => exact h
  | abandons c hs => cases hs
  | goesOn _ ih =>
    cases ih h with
    | wait h _ => exact h
  | interrupted hs => cases hs
  | joins _ len each ih _ =>
    cases ih h with
    | gather _ h _ _ => exact h _ (.all len each)
  | fails _ hp failed ih _ =>
    cases ih h with
    | gather _ h _ _ => exact h _ (.failed hp failed)
  | cutOff hs => cases hs

theorem Yields.cut (h : c.Yields) (hc : c.Cut false d) : d.Ends := by
  cases hc with
  | early => exact .ended _
  | wait hr =>
    cases h.rest hr with
    | wait _ hc => exact hc
  | gather hr =>
    cases h.rest hr with
    | gather _ _ _ hc => exact hc

/-! ## Heights -/

mutual

/-- How much of a course is left.  Two is added for each wait, for a job that waits is between the
turn before and the turn after. -/
noncomputable def height : Course α → Ordinal.{0}
  | .ended _ => 0
  | .wait _ resume => (⨆ x, height (resume x)) + 2
  | .gather parts resume => max (heights parts) (⨆ x, height (resume x)) + 2
  | .close next => height next

/-- The greatest height of several courses. -/
noncomputable def heights : List (Course α) → Ordinal.{0}
  | [] => 0
  | c :: cs => max (height c) (heights cs)

end

theorem height_le_heights (h : c ∈ parts) : c.height ≤ heights parts := by
  induction parts with
  | nil => cases h
  | cons p ps ih =>
    rw [heights]
    rcases List.mem_cons.1 h with rfl | h
    · exact le_max_left _ _
    · exact le_max_of_le_right (ih h)

theorem height_resume {β : Type} (resume : Except Fault β → Course α) (x : Except Fault β) :
    (resume x).height ≤ ⨆ y, (resume y).height :=
  Ordinal.le_iSup _ x

theorem height_part {resume : Except Fault (List α) → Course α} (h : c ∈ parts) :
    c.height < (Course.gather parts resume).height := by
  rw [height]
  calc c.height ≤ max (heights parts) (⨆ x, (resume x).height) :=
        le_max_of_le_left (height_le_heights h)
    _ < max (heights parts) (⨆ x, (resume x).height) + 2 := lt_add_of_pos_right _ two_pos

theorem height_skip (c : Course α) : c.skip.height ≤ c.height := by
  fun_induction Course.skip c with
  | case1 resume ih =>
    rw [height]
    calc (resume (.ok [])).skip.height ≤ (resume (.ok [])).height := ih
      _ ≤ max (heights []) (⨆ x, (resume x).height) := le_max_of_le_right (height_resume resume _)
      _ ≤ max (heights []) (⨆ x, (resume x).height) + 2 := le_self_add
  | case2 c _ => exact le_rfl

end Course
end Background
end Testbed

import Mathlib.Logic.Relation
import Testbed.Proofs.Acts
import Testbed.Proofs.Frame

/-!
# The work of a loop

The work of a loop is its jobs and the callbacks to come.  What a loop makes of it are the moves
below, and they keep it sound (`Work.Sound`): whatever a job needs in order to go on is among the
callbacks, and a job that waits for others counts exactly those that have not told it how they
ended.
-/

namespace Testbed
namespace Background

variable {α : Type} {s : Bool} {jobs : List (Job α)} {i k : Nat} {j j' : Job α}
  {used added : List Callback} {started : List (Job α)} {c : Callback}

/-- A job acts, or is cancelled by a loop that has been stopped. -/
inductive Changes (stopped : Bool) (jobs : List (Job α)) (i : Nat) (j : Job α) :
    List Callback → Job α → List (Job α) → List Callback → Prop where
  | act {used added : List Callback} {j' : Job α} {started : List (Job α)}
      (h : Acts jobs i j used j' started added) : Changes stopped jobs i j used j' started added
  | cancel {added : List Callback} {j' : Job α} (hs : stopped = true)
      (h : Cancels jobs i j j' added) : Changes stopped jobs i j [] j' [] added

/-- The jobs of a loop and the callbacks to come. -/
structure Work (α : Type) where
  jobs : List (Job α)
  calls : List Callback

/-- The work of the loop, the rest of the batch first. -/
def Loop.work (l : Loop α) : Work α := ⟨l.jobs, l.batch ++ l.queue⟩

/-- What a loop makes of its work. -/
inductive Work.Moves (stopped : Bool) (w : Work α) : Work α → Prop where
  | idles {c : Callback} {rest : List Callback} (hc : w.calls = c :: rest) (idle : Idle w.jobs c) :
      Moves stopped w ⟨w.jobs, rest⟩
  | changes {i : Nat} {j j' : Job α} {started : List (Job α)} {used rest added : List Callback}
      (hi : w.jobs[i]? = some j) (h : Changes stopped w.jobs i j used j' started added)
      (hc : w.calls = used ++ rest) : Moves stopped w ⟨w.jobs.set i j' ++ started, rest ++ added⟩

/-! ## What a change does -/

namespace Changes

theorem owner (h : Changes s jobs i j used j' started added) : j'.owner = j.owner := by
  cases h with
  | act h => cases h <;> rfl
  | cancel _ h => cases h <;> rfl

theorem ended {r : Except Fault α} (h : Changes s jobs i j used j' started added)
    (hr : j.stage = .ended r) : j'.stage = .ended r := by
  cases h with
  | act h =>
    cases h
    case tells => exact hr
    all_goals simp_all
  | cancel _ h => cases h <;> simp_all

/-- A job that ends tells so in a callback. -/
theorem ends {r : Except Fault α} (h : Changes s jobs i j used j' started added)
    (hr : j'.stage = .ended r) : j.stage = .ended r ∨ (added = [.settle i] ∧ used = [.step i]) := by
  cases h with
  | act h =>
    cases h
    case ends => exact .inr ⟨rfl, rfl⟩
    case tells => exact .inl hr
    all_goals cases hr
  | cancel _ h =>
    cases h
    case queued hs | joined hs => exact .inl hr
    all_goals cases hr

/-- Whatever the job needs from now on is added, or it needed it before. -/
theorem needs (h : Changes s jobs i j used j' started added) (hn : j'.needs i = some c) :
    c ∈ added ∨ (j.needs i = some c ∧ used = []) := by
  rcases j with ⟨stage, mark, owner, future⟩
  -- By what the job does: the stage that it comes to says what it needs.
  cases h with
  | act h =>
    cases h
    case ends =>
      rcases Job.needs_eq hn with ⟨-, d, hs⟩ | ⟨-, go, cancelled, hs⟩ | ⟨rfl, -⟩
      · cases hs
      · cases hs
      · exact .inl (List.mem_singleton_self _)
    case tells hs ho hf =>
      cases hs
      cases ho
      cases hn
    case waits | gathers | counts => cases hn
    all_goals
      cases hn
      exact .inl (List.mem_singleton_self _)
  | cancel _ h =>
    cases h
    case waiting =>
      cases hn
      exact .inl (List.mem_singleton_self _)
    case queued hs =>
      cases hs
      exact .inr ⟨hn, rfl⟩
    case joined hs =>
      cases hs
      cases hn
    case joining => cases hn

/-- A job that is started is a part of the one that acts, and its turn is coming. -/
theorem started_cases {m : Nat} {x : Job α} (h : Changes s jobs i j used j' started added)
    (hx : started[m]? = some x) :
    (∃ c, x = Job.part i c) ∧ .step (jobs.length + m) ∈ added := by
  cases h with
  | act h =>
    cases h
    case gathers parts resume ids hs hc some hids =>
      rcases List.getElem?_eq_some_iff.1 hx with ⟨hm, rfl⟩
      rw [List.length_map] at hm
      refine ⟨⟨parts[m], by simp⟩, List.mem_map.2 ⟨_, ?_, rfl⟩⟩
      rw [hids, List.mem_range'_1]
      omega
    all_goals cases hx
  | cancel _ h => cases hx

/-- A change adds nothing but turns of jobs, and the news of the end of the job. -/
theorem added_cases (h : Changes s jobs i j used j' started added) (hc : c ∈ added) :
    (∃ k, c = .step k) ∨ (c = .settle i ∧ added = [.settle i] ∧ (∃ r, j'.stage = .ended r) ∧
      ∀ r, j.stage ≠ .ended r) := by
  cases h with
  | act h =>
    cases h
    case ends hs _ =>
      refine .inr ⟨List.mem_singleton.1 hc, rfl, ⟨_, rfl⟩, ?_⟩
      intro r hr
      cases hs.symm.trans hr
    case gathers =>
      rcases List.mem_map.1 hc with ⟨k, -, rfl⟩
      exact .inl ⟨k, rfl⟩
    case waits | tells | counts => cases hc
    all_goals exact .inl ⟨i, List.mem_singleton.1 hc⟩
  | cancel _ h =>
    cases h
    case waiting => exact .inl ⟨i, List.mem_singleton.1 hc⟩
    all_goals cases hc

/-- What a change uses up is needed by no other job. -/
theorem used_cases (h : Changes s jobs i j used j' started added) (hi : jobs[i]? = some j)
    (hc : c ∈ used) :
    used = [c] ∧ (c = .make i ∨ c = .step i ∨ ∃ p x r, c = .settle p ∧ jobs[p]? = some x ∧
      x.stage = .ended r ∧ (x.owner = some i ∨ (p = i ∧ x.owner = none))) := by
  cases h with
  | act h =>
    cases h
    case wakes => cases hc
    case made => exact ⟨by rw [List.mem_singleton.1 hc], .inl (List.mem_singleton.1 hc)⟩
    case tells hs ho hf =>
      have he := List.mem_singleton.1 hc
      exact ⟨by rw [he], .inr (.inr ⟨i, j, _, he, hi, hs, .inr ⟨rfl, ho⟩⟩)⟩
    case joins hk hr ho hx | counts hk hr ho hx =>
      have he := List.mem_singleton.1 hc
      exact ⟨by rw [he], .inr (.inr ⟨_, _, _, he, hk, hr, .inl ho⟩)⟩
    all_goals exact ⟨by rw [List.mem_singleton.1 hc], .inr (.inl (List.mem_singleton.1 hc))⟩
  | cancel _ h => cases hc

end Changes

/-! ## Looking up jobs after a change -/

section

variable {x : Job α}

theorem changed_cases (h : (jobs.set i j' ++ started)[k]? = some x) :
    (k = i ∧ x = j') ∨ (k ≠ i ∧ jobs[k]? = some x) ∨
      ∃ m, k = jobs.length + m ∧ started[m]? = some x := by
  by_cases inside : k < jobs.length
  · rw [List.getElem?_append_left (by simpa using inside)] at h
    rcases getElem?_set_cases h with same | other
    · exact .inl same
    · exact .inr (.inl other)
  · rw [List.getElem?_append_right (by simpa using inside), List.length_set] at h
    exact .inr (.inr ⟨_, by omega, h⟩)

theorem changed_other (hk : jobs[k]? = some x) (hne : k ≠ i) :
    (jobs.set i j' ++ started)[k]? = some x := by
  rw [List.getElem?_append_left, List.getElem?_set_ne (Ne.symm hne)]
  · exact hk
  · simpa using (List.getElem?_eq_some_iff.1 hk).1

theorem accepted_cases (h : (jobs ++ [j])[k]? = some x) :
    jobs[k]? = some x ∨ (k = jobs.length ∧ x = j) := by
  by_cases inside : k < jobs.length
  · rw [List.getElem?_append_left inside] at h
    exact .inl h
  · rw [List.getElem?_append_right (by omega)] at h
    rcases List.getElem?_eq_some_iff.1 h with ⟨hm, rfl⟩
    rw [List.length_singleton] at hm
    exact .inr ⟨by omega, by simp⟩

theorem accepted_old (hk : jobs[k]? = some x) : (jobs ++ [j])[k]? = some x := by
  rw [List.getElem?_append_left (List.getElem?_eq_some_iff.1 hk).1]
  exact hk

theorem changed_self (hi : jobs[i]? = some j) : (jobs.set i j' ++ started)[i]? = some j' := by
  have inside : i < jobs.length := (List.getElem?_eq_some_iff.1 hi).1
  rw [List.getElem?_append_left (by simpa using inside)]
  simp [inside]

end

theorem Job.hasEnded_eq_false : j.hasEnded = false ↔ ∀ r, j.stage ≠ .ended r := by
  unfold Job.hasEnded
  split
  · rename_i r hs
    simp [hs]
  · rename_i hs
    simpa using hs

/-! ## Sound work -/

namespace Work

variable {w w' : Work α}

/-- A part of a job that has not told it how it has ended, if it has. -/
def untold (w : Work α) (p : Nat) : Bool :=
  !(w.jobs[p]?).any Job.hasEnded || w.calls.contains (.settle p)

/-- A job that waits for others: they are parts of it and younger, it counts those that have not
told it how they ended, and the others have ended with a value. -/
structure Family (w : Work α) (i : Nat) (parts : List Nat) (left : Nat) : Prop where
  nodup : parts.Nodup
  younger : ∀ p ∈ parts, i < p
  owned : ∀ p ∈ parts, ∃ k, w.jobs[p]? = some k ∧ k.owner = some i
  left_eq : left = parts.countP w.untold
  left_pos : 0 < left
  told : ∀ p ∈ parts, w.untold p = false → ∃ k a, w.jobs[p]? = some k ∧ k.stage = .ended (.ok a)

/-- The work of a loop is sound. -/
structure Sound (w : Work α) : Prop where
  attended : ∀ {i : Nat} {j : Job α} {c : Callback}, w.jobs[i]? = some j → j.needs i = some c →
    c ∈ w.calls
  settles : ∀ {p : Nat}, .settle p ∈ w.calls → ∃ j r, w.jobs[p]? = some j ∧ j.stage = .ended r
  once : ∀ p, w.calls.count (.settle p) ≤ 1
  families : ∀ {i left : Nat} {j : Job α} {parts : List Nat}
    {resume : Except Fault (List α) → Course α}, w.jobs[i]? = some j →
    j.stage = .joining parts left resume → w.Family i parts left

theorem untold_eq_true {p : Nat} : w.untold p = true ↔
    (∀ k r, w.jobs[p]? = some k → k.stage ≠ .ended r) ∨ .settle p ∈ w.calls := by
  unfold untold
  rw [Bool.or_eq_true, List.contains_iff_mem]
  refine or_congr ?_ Iff.rfl
  cases w.jobs[p]? with
  | none => simp
  | some k =>
    rw [Option.any_some, Bool.not_eq_true', Job.hasEnded_eq_false]
    constructor
    · rintro h k' r ⟨⟩
      exact h r
    · intro h r
      exact h k r rfl

theorem countP_one_less {f g : Nat → Bool} {parts : List Nat} {p : Nat} (nodup : parts.Nodup)
    (hp : p ∈ parts) (hf : f p = true) (hg : g p = false)
    (same : ∀ q ∈ parts, q ≠ p → g q = f q) : parts.countP f = parts.countP g + 1 := by
  have perm := List.perm_cons_erase hp
  have rest : (parts.erase p).countP g = (parts.erase p).countP f := by
    refine List.countP_congr ?_
    intro q hq
    rw [same q (List.mem_of_mem_erase hq) (nodup.mem_erase_iff.1 hq).1]
  rw [perm.countP_eq f, perm.countP_eq g, List.countP_cons_of_pos hf,
    List.countP_cons_of_neg (by simp [hg]), rest]

/-- A family stays one as long as its parts stay what they are. -/
theorem Family.keeps {i left : Nat} {parts : List Nat} (family : w.Family i parts left)
    (kept : ∀ {p : Nat} {k : Job α}, p ∈ parts → w.jobs[p]? = some k →
      ∃ k', w'.jobs[p]? = some k' ∧ k'.owner = k.owner ∧
        ∀ r, k.stage = .ended r → k'.stage = .ended r)
    (same : ∀ p ∈ parts, w'.untold p = w.untold p) : w'.Family i parts left where
  nodup := family.nodup
  younger := family.younger
  owned := by
    intro p hp
    rcases family.owned p hp with ⟨k, hk, ho⟩
    rcases kept hp hk with ⟨k', hk', ho', -⟩
    exact ⟨k', hk', ho'.trans ho⟩
  left_eq := family.left_eq.trans (List.countP_congr fun p hp => by rw [same p hp])
  left_pos := family.left_pos
  told := by
    intro p hp told
    rcases family.told p hp ((same p hp) ▸ told) with ⟨k, a, hk, ha⟩
    rcases kept hp hk with ⟨k', hk', -, stays⟩
    exact ⟨k', a, hk', stays _ ha⟩

section Change

variable {x : Job α} {p : Nat} {rest : List Callback}

/-- The work after a change. -/
def changed (w : Work α) (i : Nat) (j : Job α) (started : List (Job α)) (calls : List Callback) :
    Work α :=
  ⟨w.jobs.set i j ++ started, calls⟩

/-- A job has told how it ended before the change or has not, and so it is afterwards, unless the
change used up what it told. -/
theorem untold_changed (hi : w.jobs[i]? = some j)
    (h : Changes s w.jobs i j used j' started added) (hc : w.calls = used ++ rest)
    (hp : w.jobs[p]? = some x) (unused : .settle p ∉ used) :
    (w.changed i j' started (rest ++ added)).untold p = w.untold p := by
  rw [Bool.eq_iff_iff, untold_eq_true, untold_eq_true]
  constructor
  -- Nothing is forgotten: what has ended stays so, and news are added only by a job that ends.
  · rintro (unended | news)
    · refine .inl ?_
      intro k r hk hr
      by_cases hpi : p = i
      · subst hpi
        cases hi.symm.trans hk
        exact unended j' r (changed_self hi) (h.ended hr)
      · exact unended k r (changed_other hk hpi) hr
    · rcases List.mem_append.1 news with old | new
      · exact .inr (hc ▸ List.mem_append_right _ old)
      · rcases h.added_cases new with ⟨k, he⟩ | ⟨he, -, -, unended⟩
        · cases he
        · cases he
          refine .inl ?_
          intro k r hk
          cases hi.symm.trans hk
          exact unended r
  -- A part that ends now has its news added in the same change.
  · rintro (unended | news)
    · by_cases hpi : p = i
      · subst hpi
        by_cases ended : ∃ r, j'.stage = .ended r
        · rcases ended with ⟨r, hr⟩
          rcases h.ends hr with before | ⟨rfl, -⟩
          · exact absurd before (unended j r hi)
          · exact .inr (List.mem_append_right _ (List.mem_singleton_self _))
        · refine .inl ?_
          intro k r hk hr
          cases (changed_self hi).symm.trans hk
          exact ended ⟨r, hr⟩
      · refine .inl ?_
        intro k r hk
        cases (changed_other hp hpi).symm.trans hk
        exact unended _ r hp
    · rw [hc] at news
      exact .inr (List.mem_append_left _ ((List.mem_append.1 news).resolve_left unused))

theorem Sound.attended_changed (sound : w.Sound) (hi : w.jobs[i]? = some j)
    (h : Changes s w.jobs i j used j' started added) (hc : w.calls = used ++ rest)
    (hk : (w.changed i j' started (rest ++ added)).jobs[k]? = some x) (hn : x.needs k = some c) :
    c ∈ rest ++ added := by
  rcases changed_cases hk with ⟨rfl, rfl⟩ | ⟨hne, hk⟩ | ⟨m, rfl, hx⟩
  · rcases h.needs hn with new | ⟨old, rfl⟩
    · exact List.mem_append_right _ new
    · exact List.mem_append_left _ (by simpa [hc] using sound.attended hi old)
  · have before := sound.attended hk hn
    rw [hc] at before
    refine List.mem_append_left _ ((List.mem_append.1 before).resolve_left ?_)
    -- A callback that another job needs is not the one that is used up.
    intro taken
    rcases Job.needs_eq hn with ⟨rfl, -⟩ | ⟨rfl, -⟩ | ⟨rfl, r, -, ho, -⟩
    · rcases (h.used_cases hi taken).2 with he | he | ⟨p, x', r, he, -⟩ <;> cases he
      exact hne rfl
    · rcases (h.used_cases hi taken).2 with he | he | ⟨p, x', r, he, -⟩ <;> cases he
      exact hne rfl
    · rcases (h.used_cases hi taken).2 with he | he | ⟨p, x', r, he, hp, -, ways⟩ <;> cases he
      cases hk.symm.trans hp
      rcases ways with owned | ⟨same, -⟩
      · cases ho.symm.trans owned
      · exact hne same
  · rcases h.started_cases hx with ⟨⟨d, rfl⟩, turn⟩
    cases hn
    exact List.mem_append_right _ turn

theorem Sound.settles_changed (sound : w.Sound) (hi : w.jobs[i]? = some j)
    (h : Changes s w.jobs i j used j' started added) (hc : w.calls = used ++ rest)
    (hp : .settle p ∈ rest ++ added) :
    ∃ k r, (w.changed i j' started (rest ++ added)).jobs[p]? = some k ∧ k.stage = .ended r := by
  rcases List.mem_append.1 hp with old | new
  · rcases sound.settles (hc ▸ List.mem_append_right _ old) with ⟨k, r, hk, hr⟩
    by_cases hpi : p = i
    · subst hpi
      cases hi.symm.trans hk
      exact ⟨j', r, changed_self hi, h.ended hr⟩
    · exact ⟨k, r, changed_other hk hpi, hr⟩
  · rcases h.added_cases new with ⟨k, he⟩ | ⟨he, -, ⟨r, hr⟩, -⟩
    · cases he
    · cases he
      exact ⟨j', r, changed_self hi, hr⟩

theorem Sound.once_changed (sound : w.Sound) (hi : w.jobs[i]? = some j)
    (h : Changes s w.jobs i j used j' started added) (hc : w.calls = used ++ rest) (p : Nat) :
    (rest ++ added).count (.settle p) ≤ 1 := by
  have before : rest.count (.settle p) ≤ w.calls.count (.settle p) := by
    rw [hc, List.count_append]
    exact Nat.le_add_left _ _
  rw [List.count_append]
  by_cases new : .settle p ∈ added
  · rcases h.added_cases new with ⟨k, he⟩ | ⟨he, ha, -, unended⟩
    · cases he
    · cases he
      -- It had not ended, hence had not told anybody how.
      have absent : w.calls.count (.settle i) = 0 := by
        refine List.count_eq_zero.2 ?_
        intro present
        rcases sound.settles present with ⟨k, r, hk, hr⟩
        cases hi.symm.trans hk
        exact unended r hr
      rw [ha, List.count_singleton_self]
      omega
  · rw [List.count_eq_zero.2 new]
    exact before.trans (sound.once p)

/-- Nobody else takes the news of a part away from the job that waits for it. -/
theorem Family.unused {parts : List Nat} {left : Nat} (family : w.Family k parts left)
    (hi : w.jobs[i]? = some j) (h : Changes s w.jobs i j used j' started added) (hne : k ≠ i)
    (hp : p ∈ parts) : .settle p ∉ used := by
  intro taken
  rcases family.owned p hp with ⟨x, hx, ho⟩
  rcases (h.used_cases hi taken).2 with he | he | ⟨q, y, r, he, hy, -, ways⟩ <;> cases he
  cases hx.symm.trans hy
  rcases ways with owned | ⟨-, owned⟩
  · exact hne (Option.some.inj (ho.symm.trans owned))
  · cases ho.symm.trans owned

theorem Family.changed {parts : List Nat} {left : Nat} (family : w.Family k parts left)
    (hi : w.jobs[i]? = some j) (h : Changes s w.jobs i j used j' started added)
    (hc : w.calls = used ++ rest) (unused : ∀ p ∈ parts, .settle p ∉ used) :
    (w.changed i j' started (rest ++ added)).Family k parts left := by
  refine family.keeps ?_ ?_
  · intro p x hp hx
    by_cases hpi : p = i
    · subst hpi
      cases hi.symm.trans hx
      exact ⟨j', changed_self hi, h.owner, fun r hr => h.ended hr⟩
    · exact ⟨x, changed_other hx hpi, rfl, fun r hr => hr⟩
  · intro p hp
    rcases family.owned p hp with ⟨x, hx, -⟩
    exact untold_changed hi h hc hx (unused p hp)

/-- A job that has ended tells so once. -/
theorem Sound.told_after {y : Job α} {r : Except Fault α} (sound : w.Sound) (hne : p ≠ i)
    (hy : w.jobs[p]? = some y) (hr : y.stage = .ended r) (hc : w.calls = .settle p :: rest) :
    (w.changed i j' started rest).untold p = false := by
  rw [← Bool.not_eq_true, untold_eq_true]
  rintro (unended | twice)
  · exact unended y r (changed_other hy hne) hr
  · have once := sound.once p
    rw [hc, List.count_cons_self] at once
    have more : 0 < rest.count (.settle p) := List.count_pos_iff.2 twice
    omega

/-- One part has told the job that it ended with a value, and others are missing. -/
theorem Sound.family_counts {parts : List Nat} {left : Nat} {y : Job α} {a : α}
    {resume : Except Fault (List α) → Course α} (sound : w.Sound) (hi : w.jobs[i]? = some j)
    (hs : j.stage = .joining parts left resume) (hp : p ∈ parts) (hy : w.jobs[p]? = some y)
    (hr : y.stage = .ended (.ok a)) (ho : y.owner = some i) (hl : 1 < left)
    (hc : w.calls = .settle p :: rest) :
    (w.changed i { j with stage := .joining parts (left - 1) resume } [] rest).Family i parts
      (left - 1) := by
  have family := sound.families hi hs
  have other {q : Nat} (hq : q ∈ parts) : q ≠ i := (family.younger q hq).ne'
  have h : Changes false w.jobs i j [.settle p]
      { j with stage := .joining parts (left - 1) resume } [] [] :=
    .act (.counts hs hp hy hr ho hl)
  -- The part that has told is told now, and nothing changes for all others.
  have told : (w.changed i { j with stage := .joining parts (left - 1) resume } [] rest).untold p =
      false := sound.told_after (other hp) hy hr hc
  have same : ∀ q ∈ parts, q ≠ p →
      (w.changed i { j with stage := .joining parts (left - 1) resume } [] rest).untold q =
        w.untold q := by
    intro q hq hne
    rcases family.owned q hq with ⟨x, hx, -⟩
    have unused : Callback.settle q ∉ [Callback.settle p] := by simpa using hne
    have := untold_changed hi h hc hx unused
    rwa [List.append_nil] at this
  have counted := countP_one_less family.nodup hp
    (untold_eq_true.2 (.inr (hc ▸ List.mem_cons_self))) told same
  refine ⟨family.nodup, family.younger, ?_, ?_, by omega, ?_⟩
  · intro q hq
    rcases family.owned q hq with ⟨x, hx, hxo⟩
    exact ⟨x, changed_other hx (other hq), hxo⟩
  · have := family.left_eq
    omega
  · intro q hq hu
    by_cases hqp : q = p
    · subst hqp
      exact ⟨y, a, changed_other hy (other hq), hr⟩
    · rcases family.told q hq ((same q hq hqp) ▸ hu) with ⟨x, b, hx, hb⟩
      exact ⟨x, b, changed_other hx (other hq), hb⟩

/-- Nobody has told a job anything that has just started others. -/
theorem family_gathers {parts : List (Course α)} {ids : List Nat}
    {resume : Except Fault (List α) → Course α} (hi : w.jobs[i]? = some j)
    (some : parts ≠ []) (hids : ids = List.range' w.jobs.length parts.length)
    (calls : List Callback) :
    (w.changed i { j with stage := .joining ids parts.length resume, cancelled := false }
      (parts.map (Job.part i)) calls).Family i ids parts.length := by
  have inside : i < w.jobs.length := (List.getElem?_eq_some_iff.1 hi).1
  -- The parts have been added at the end of the jobs and have not moved yet.
  have fresh {p : Nat} (hp : p ∈ ids) : ∃ c, (w.changed i
      { j with stage := .joining ids parts.length resume, cancelled := false }
      (parts.map (Job.part i)) calls).jobs[p]? = .some (Job.part i c) := by
    rw [hids, List.mem_range'_1] at hp
    refine ⟨parts[p - w.jobs.length], ?_⟩
    rw [changed, List.getElem?_append_right (by simpa using hp.1), List.length_set,
      List.getElem?_map, List.getElem?_eq_getElem (by omega)]
    rfl
  have missing {p : Nat} (hp : p ∈ ids) : (w.changed i
      { j with stage := .joining ids parts.length resume, cancelled := false }
      (parts.map (Job.part i)) calls).untold p = true := by
    rcases fresh hp with ⟨c, hk⟩
    refine untold_eq_true.2 (.inl ?_)
    intro k r hk' hr
    cases hk.symm.trans hk'
    cases hr
  refine ⟨hids ▸ List.nodup_range', ?_, ?_, ?_, List.length_pos_iff.2 some, ?_⟩
  · intro p hp
    rw [hids, List.mem_range'_1] at hp
    omega
  · intro p hp
    rcases fresh hp with ⟨c, hk⟩
    exact ⟨_, hk, rfl⟩
  · rw [List.countP_eq_length.2 fun p hp => missing hp, hids, List.length_range']
  · intro p hp told
    rw [missing hp] at told
    cases told

theorem Sound.families_changed {parts : List Nat} {left : Nat}
    {resume : Except Fault (List α) → Course α} (sound : w.Sound) (hi : w.jobs[i]? = some j)
    (h : Changes s w.jobs i j used j' started added) (hc : w.calls = used ++ rest)
    (hk : (w.changed i j' started (rest ++ added)).jobs[k]? = some x)
    (hs : x.stage = .joining parts left resume) :
    (w.changed i j' started (rest ++ added)).Family k parts left := by
  rcases changed_cases hk with ⟨rfl, rfl⟩ | ⟨hne, hk⟩ | ⟨m, rfl, hx⟩
  · -- The job itself waits for others now: it has just started them, or it did before.
    cases h with
    | act h =>
      cases h
      case gathers hids =>
        cases hs
        exact family_gathers hi ‹_› hids _
      case counts hs' hp hy hr ho hl =>
        cases hs
        rw [List.append_nil]
        exact sound.family_counts hi hs' hp hy hr ho hl hc
      case tells hr _ _ => cases hr.symm.trans hs
      all_goals cases hs
    | cancel stopped h =>
      have family : w.Family k parts left := by
        cases h
        case joined hs' => exact sound.families hi hs
        case joining hs' =>
          cases hs
          exact sound.families hi hs'
        case queued hs' => cases hs'.symm.trans hs
        case waiting => cases hs
      exact family.changed hi (.cancel stopped h) hc (by simp)
  · have family := sound.families hk hs
    exact family.changed hi h hc fun p hp => family.unused hi h hne hp
  · rcases h.started_cases hx with ⟨⟨d, rfl⟩, -⟩
    cases hs

theorem Sound.changed (sound : w.Sound) (hi : w.jobs[i]? = some j)
    (h : Changes s w.jobs i j used j' started added) (hc : w.calls = used ++ rest) :
    (w.changed i j' started (rest ++ added)).Sound where
  attended := fun hk hn => sound.attended_changed hi h hc hk hn
  settles := fun hp => sound.settles_changed hi h hc hp
  once := sound.once_changed hi h hc
  families := fun hk hs => sound.families_changed hi h hc hk hs

end Change

/-! ## The other moves -/

/-- The work stays sound when callbacks change that no job notices. -/
theorem Sound.calls {calls : List Callback} (sound : w.Sound)
    (needed : ∀ {i : Nat} {j : Job α} {c : Callback}, w.jobs[i]? = some j → j.needs i = some c →
      c ∈ calls)
    (fewer : ∀ p, calls.count (.settle p) ≤ w.calls.count (.settle p))
    (news : ∀ {i p left : Nat} {j k : Job α} {parts : List Nat}
      {resume : Except Fault (List α) → Course α}, w.jobs[i]? = some j →
      j.stage = .joining parts left resume → p ∈ parts → w.jobs[p]? = some k →
      k.owner = some i → (Callback.settle p ∈ calls ↔ .settle p ∈ w.calls)) :
    (Work.mk w.jobs calls).Sound where
  attended := needed
  settles := fun hp => sound.settles
    (List.count_pos_iff.1 ((List.count_pos_iff.2 hp).trans_le (fewer _)))
  once := fun p => (fewer p).trans (sound.once p)
  families := by
    intro i left j parts resume hi hs
    have family := sound.families hi hs
    refine family.keeps ?_ ?_
    · intro p k _ hk
      exact ⟨k, hk, rfl, fun r hr => hr⟩
    · intro p hp
      rcases family.owned p hp with ⟨k, hk, ho⟩
      rw [Bool.eq_iff_iff, untold_eq_true, untold_eq_true]
      exact or_congr Iff.rfl (news hi hs hp hk ho)

theorem Sound.idles {rest : List Callback} (sound : w.Sound) (hc : w.calls = c :: rest)
    (idle : Idle w.jobs c) : (Work.mk w.jobs rest).Sound := by
  refine sound.calls ?_ ?_ ?_
  · intro i j d hi hn
    have before := sound.attended hi hn
    rw [hc] at before
    rcases List.mem_cons.1 before with rfl | after
    · exact absurd hn (idle.notNeeded hi)
    · exact after
  · intro p
    rw [hc]
    exact List.count_le_count_cons
  · intro i p left j k parts resume hi hs hp hk ho
    rw [hc, List.mem_cons]
    constructor
    · exact .inr
    · rintro (rfl | after)
      · rcases sound.settles (hc ▸ List.mem_cons_self) with ⟨k', r, hk', hr⟩
        cases hk.symm.trans hk'
        exact absurd hp (idle.notWaitedFor rfl hk hr ho hi hs)
      · exact after

theorem Sound.shuts (sound : w.Sound) : (Work.mk w.jobs (w.calls ++ [.stop])).Sound := by
  refine sound.calls ?_ ?_ ?_
  · intro i j d hi hn
    exact List.mem_append_left _ (sound.attended hi hn)
  · intro p
    simp
  · intro i p left j k parts resume hi hs hp hk ho
    simp

theorem Sound.accepts (sound : w.Sound) (d : Course α) :
    (Work.mk (w.jobs ++ [{ stage := .accepted d }]) (w.calls ++ [.make w.jobs.length])).Sound where
  -- The job that is accepted comes last, and it only waits for the callback that makes it.
  attended := by
    intro k x c hk hn
    rcases accepted_cases hk with before | ⟨rfl, rfl⟩
    · exact List.mem_append_left _ (sound.attended before hn)
    · cases hn
      exact List.mem_append_right _ (List.mem_singleton_self _)
  settles := by
    intro p hp
    rcases List.mem_append.1 hp with before | new
    · rcases sound.settles before with ⟨k, r, hk, hr⟩
      exact ⟨k, r, accepted_old hk, hr⟩
    · simp at new
  once := by
    intro p
    simpa using sound.once p
  families := by
    intro k left x parts resume hk hs
    rcases accepted_cases hk with before | ⟨rfl, rfl⟩
    · have family := sound.families before hs
      refine family.keeps ?_ ?_
      · intro p y _ hy
        exact ⟨y, accepted_old hy, rfl, fun r hr => hr⟩
      · intro p hp
        rcases family.owned p hp with ⟨y, hy, -⟩
        rw [Bool.eq_iff_iff, untold_eq_true, untold_eq_true]
        refine or_congr ?_ (by simp)
        simp [accepted_old hy, hy]
    · cases hs

theorem Sound.moves (sound : w.Sound) (h : Moves s w w') : w'.Sound := by
  cases h with
  | idles hc idle => exact sound.idles hc idle
  | changes hi h hc => exact sound.changed hi h hc

theorem sound_empty : (Work.mk ([] : List (Job α)) []).Sound where
  attended := by simp
  settles := by simp
  once := by simp
  families := by simp

end Work

/-! ## The moves of a loop -/

/-- The loop has cancelled its jobs. -/
def LoopStage.hasCancelled : LoopStage → Bool
  | .draining _ | .over => true
  | .turning | .stopping => false

open Relation (ReflTransGen)

namespace Loop

variable {l l' : Loop α}

theorem cancel_moves (l : Loop α) (i : Nat) :
    ReflTransGen (Work.Moves true) l.work (l.cancel i).work := by
  rcases cancel_cancels l i with ⟨same, -⟩ | ⟨j, j', added, hi, h, he⟩
  · rw [same]
  · have move := Work.Moves.changes (w := l.work) hi (.cancel rfl h) (List.nil_append _).symm
    rw [he]
    simpa [work, acted] using ReflTransGen.single move

theorem foldl_cancel_moves (ids : List Nat) (l : Loop α) :
    ReflTransGen (Work.Moves true) l.work (ids.foldl cancel l).work := by
  induction ids generalizing l with
  | nil => exact .refl
  | cons i ids ih => exact (cancel_moves l i).trans (ih _)

theorem foldl_cancel_stage (ids : List Nat) (l : Loop α) :
    (ids.foldl cancel l).stage = l.stage ∧ (ids.foldl cancel l).accepting = l.accepting := by
  induction ids generalizing l with
  | nil => exact ⟨rfl, rfl⟩
  | cons i ids ih =>
    have same : (l.cancel i).stage = l.stage ∧ (l.cancel i).accepting = l.accepting := by
      rcases cancel_cancels l i with ⟨same, -⟩ | ⟨j, j', added, hi, h, he⟩
      · rw [same]
        exact ⟨rfl, rfl⟩
      · rw [he]
        exact ⟨rfl, rfl⟩
    exact ⟨(ih _).1.trans same.1, (ih _).2.trans same.2⟩

/-- A step of a loop moves its work, if at all. -/
theorem Turns.moves (h : Turns l l') :
    ReflTransGen (Work.Moves l'.stage.hasCancelled) l.work l'.work := by
  -- What the batch still holds comes before what has been queued.
  cases h with
  | fetches hb hq hs =>
    rw [show l.work = ⟨l.jobs, l.queue⟩ by rw [work, hb, List.nil_append]]
    rw [work, List.append_nil]
  | idles hb hc idle =>
    refine .single (.idles ?_ idle)
    rw [work, hb]
    rfl
  | stops hb =>
    refine .single (.idles (c := .stop) ?_ ⟨?_, nofun⟩)
    · rw [work, hb]
      rfl
    · intro i j hi hn
      rcases Job.needs_eq hn with ⟨he, -⟩ | ⟨he, -⟩ | ⟨he, -⟩ <;> cases he
  | acts hb hi h =>
    have move : Work.Moves l.stage.hasCancelled l.work _ :=
      .changes hi (.act h) (by rw [work, hb]; rfl)
    refine .single ?_
    simpa [work, acted] using move
  | wakes time hi h =>
    have move : Work.Moves l.stage.hasCancelled l.work _ :=
      .changes hi (.act h) (List.nil_append _).symm
    refine .single ?_
    simpa [work, acted] using move
  | @drains ids hs hb perm =>
    rw [(foldl_cancel_stage _ _).1]
    exact foldl_cancel_moves ids { l with stage := .draining ids }
  | isOver => exact .refl

end Loop

theorem Work.Sound.all {w w' : Work α} (sound : w.Sound)
    (h : ReflTransGen (Work.Moves s) w w') : w'.Sound := by
  induction h with
  | refl => exact sound
  | tail _ move ih => exact ih.moves move

end Background
end Testbed

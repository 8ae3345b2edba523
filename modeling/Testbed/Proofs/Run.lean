import Mathlib.Data.List.Induction
import Testbed.Lifecycle.Schedule
import Testbed.Proofs.Frame
import Testbed.Proofs.Turn

/-!
# Runs

A run of an environment is the list of its moments: the state before an action, the action and the
state after it.  Callers, work that was left behind and the surroundings take actions in any order.

`Change l a n` lists what an action can be; `Run.replay?` computes the run of a list of actions.
-/

namespace Testbed

namespace Lifecycle

/-- An environment of which nothing has been asked yet.  Its settings and its engine client, the
registry, the engine and everything else in the world are arbitrary. -/
structure Fresh (l : Lifecycle) : Prop where
  history : l.world.history = {}
  ledger : l.world.ledger = {}
  held : l.held = false
  ready : l.ready = false
  settled : l.settled = false
  stopped : l.stopped = false
  report : l.report = {}
  failure : l.failure = none
  leftovers : l.leftovers = []
  callers : l.callers = []

/-- A new environment is fresh. -/
theorem fresh_create {w : World} (hh : w.history = {}) (hl : w.ledger = {}) (settings : Settings)
    (hasClient : Bool) (refusals : Nat) : (create w settings hasClient refusals).Fresh where
  history := hh
  ledger := hl
  held := rfl
  ready := rfl
  settled := rfl
  stopped := rfl
  report := rfl
  failure := rfl
  leftovers := rfl
  callers := rfl

/-! ## Actions -/

/-- What an action can do. -/
inductive Change (l : Lifecycle) : Action → Lifecycle → Prop where
  | enter (d : Demand) : Change l (.enter d) { l with callers := l.callers ++ [.asking d] }
  | caller (i : Nat) {m : Move} {s s' : Stage} {l' : Lifecycle} (hs : l.callers[i]? = some s)
      (turn : Turn l s m s' l') :
      Change l (.caller i m) { l' with callers := l.callers.set i s' }
  | work (i k : Nat) {t t' : Task (Except Fault Unit)} {w : World}
      (hi : l.leftovers[i]? = some (.work t)) (h : l.world.next? t = some (t', w)) :
      Change l (.leftover i k)
        { l with world := w, leftovers := l.leftovers.set i (.work t') }
  | passGoes (i k : Nat) {p p' : StopPass} {w : World}
      (hi : l.leftovers[i]? = some (.pass p)) (h : p.turn? l.world = some (.going p', w)) :
      Change l (.leftover i k)
        { l with world := w, leftovers := l.leftovers.set i (.pass p') }
  | passEnds (i k : Nat) {p : StopPass} {r : Except Fault TeardownReport} {w : World}
      (hi : l.leftovers[i]? = some (.pass p)) (h : p.turn? l.world = some (.ended r, w)) :
      Change l (.leftover i k) { l with world := w, leftovers := l.leftovers.eraseIdx i }
  | passSteps (i k : Nat) {p p' : StopPass} {w : World}
      (hi : l.leftovers[i]? = some (.pass p)) (idle : p.turn? l.world = none)
      (h : p.step? l.world k = some (p', w)) :
      Change l (.leftover i k)
        { l with world := w, leftovers := l.leftovers.set i (.pass p') }
  | refuse (n : Nat) : Change l (.refuse n) { l with refusals := n }
  | gate (isOpen : Bool) :
      Change l (.gate isOpen) { l with world := { l.world with gateOpen := isOpen } }

theorem change_of_step? {l n : Lifecycle} {i : Nat} {m : Move} (h : l.step? i m = some n) :
    Change l (.caller i m) n := by
  unfold step? at h
  cases hs : l.callers[i]? with
  | none => simp [hs] at h
  | some s =>
    cases ht : l.stepStage? s m with
    | none => simp [hs, ht] at h
    | some r =>
      have turn : Turn l s m r.1 r.2 := turn_of_stepStage? ht
      simp only [hs, ht, Option.bind_eq_bind, Option.bind_some, turn.callers_eq] at h
      cases h
      exact .caller i hs turn

theorem change_of_stepLeftover? {l n : Lifecycle} {i k : Nat}
    (h : l.stepLeftover? i k = some n) : Change l (.leftover i k) n := by
  unfold stepLeftover? at h
  simp only at h
  split at h
  · rename_i hi
    rcases Option.map_eq_some_iff.1 h with ⟨r, hr, he⟩
    cases he
    exact .work i k hi hr
  · rename_i hi
    split at h
    · rename_i ht
      cases h
      exact .passGoes i k hi ht
    · rename_i ht
      cases h
      exact .passEnds i k hi ht
    · rename_i ht
      rcases Option.map_eq_some_iff.1 h with ⟨r, hr, he⟩
      cases he
      exact .passSteps i k hi ht hr
  · simp at h

/-- Every action does one of these things. -/
theorem change_of_act? {l n : Lifecycle} {a : Action} (h : l.act? a = some n) : Change l a n := by
  cases a with
  | enter d =>
    cases h
    exact .enter d
  | caller i m => exact change_of_step? h
  | leftover i k => exact change_of_stepLeftover? h
  | refuse n =>
    cases h
    exact .refuse n
  | gate isOpen =>
    cases h
    exact .gate isOpen

/-! ## Runs -/

/-- An action with the states before and after it. -/
structure Moment where
  before : Lifecycle
  action : Action
  after : Lifecycle

/-- The runs that start at a state, with their moments and the state they have led to. -/
inductive Run (l : Lifecycle) : List Moment → Lifecycle → Prop where
  | refl : Run l [] l
  | tail {tr : List Moment} {m n : Lifecycle} {a : Action} (run : Run l tr m)
      (h : m.act? a = some n) : Run l (tr ++ [⟨m, a, n⟩]) n

namespace Run

variable {l l' : Lifecycle} {tr u v : List Moment} {x : Moment}

theorem head {n : Lifecycle} {a : Action} (h : l.act? a = some n) (run : Run n tr l') :
    Run l (⟨l, a, n⟩ :: tr) l' := by
  induction run with
  | refl => exact .tail .refl h
  | tail _ hm ih => exact .tail ih hm

theorem tail_inv (run : Run l (tr ++ [x]) l') :
    Run l tr x.before ∧ x.before.act? x.action = some x.after ∧ x.after = l' := by
  generalize ht : tr ++ [x] = tr' at run
  cases run with
  | refl => simp at ht
  | tail run h =>
    rcases List.append_inj' ht rfl with ⟨rfl, hx⟩
    cases hx
    exact ⟨run, h, rfl⟩

/-- A run can be cut at each of its moments. -/
theorem at_moment (run : Run l (u ++ x :: v) l') :
    Run l u x.before ∧ x.before.act? x.action = some x.after ∧ Run l (u ++ [x]) x.after := by
  induction v using List.reverseRecOn generalizing l' with
  | nil =>
    rcases run.tail_inv with ⟨h, hx, rfl⟩
    exact ⟨h, hx, run⟩
  | append_singleton v y ih =>
    rw [← List.cons_append, ← List.append_assoc] at run
    exact ih run.tail_inv.1

/-- Induction along a run from one of its moments on. -/
theorem since {P : List Moment → Lifecycle → Prop} (run : Run l (u ++ x :: v) l')
    (base : Run l u x.before → x.before.act? x.action = some x.after → P [] x.after)
    (step : ∀ {v y}, Run l (u ++ x :: v) y.before → y.before.act? y.action = some y.after →
      P v y.before → P (v ++ [y]) y.after) : P v l' := by
  induction v using List.reverseRecOn generalizing l' with
  | nil =>
    rcases run.tail_inv with ⟨front, act, rfl⟩
    exact base front act
  | append_singleton v y ih =>
    rw [← List.cons_append, ← List.append_assoc] at run
    rcases run.tail_inv with ⟨front, act, rfl⟩
    exact step front act (ih front)

/-- What holds after a moment of a run and is kept by every action holds at its end. -/
theorem stays {P : Lifecycle → Prop} (run : Run l (u ++ x :: v) l')
    (keeps : ∀ {tr y}, Run l (tr ++ [y]) y.after → P y.before → P y.after) (h : P x.after) :
    P l' :=
  run.since (P := fun _ n => P n) (fun _ _ => h) fun front act ih => keeps (.tail front act) ih

theorem act_of_mem (run : Run l tr l') (hx : x ∈ tr) :
    x.before.act? x.action = some x.after := by
  rcases List.append_of_mem hx with ⟨u, v, rfl⟩
  exact run.at_moment.2.1

/-- The run of a list of actions, if they can happen in this order. -/
def replay? (l : Lifecycle) : List Action → Option (List Moment × Lifecycle)
  | [] => some ([], l)
  | a :: as =>
    match l.act? a with
    | none => none
    | some n => (replay? n as).map fun r => (⟨l, a, n⟩ :: r.1, r.2)

theorem of_replay? {as : List Action} (h : replay? l as = some (tr, l')) : Run l tr l' := by
  induction as generalizing l tr with
  | nil =>
    cases h
    exact .refl
  | cons a as ih =>
    unfold replay? at h
    cases ha : l.act? a with
    | none => simp [ha] at h
    | some n =>
      rw [ha] at h
      rcases Option.map_eq_some_iff.1 h with ⟨r, hr, he⟩
      cases he
      exact .head ha (ih hr)

theorem actions_of_replay? {as : List Action} (h : replay? l as = some (tr, l')) :
    tr.map Moment.action = as := by
  induction as generalizing l tr with
  | nil =>
    cases h
    rfl
  | cons a as ih =>
    unfold replay? at h
    cases ha : l.act? a with
    | none => simp [ha] at h
    | some n =>
      rw [ha] at h
      rcases Option.map_eq_some_iff.1 h with ⟨r, hr, he⟩
      cases he
      rw [List.map_cons, ih hr]

/-- What closes behind it happens at most once: an event that leaves the state closed, does not
happen while it is closed, and is never opened again. -/
theorem countP_le_one {event : Moment → Bool} (Closed : Lifecycle → Prop) (run : Run l tr l')
    (closes : ∀ {tr x}, Run l (tr ++ [x]) x.after → event x = true → Closed x.after)
    (blocks : ∀ {tr x}, Run l (tr ++ [x]) x.after → Closed x.before → event x = false)
    (keeps : ∀ {tr x}, Run l (tr ++ [x]) x.after → Closed x.before → Closed x.after) :
    tr.countP event ≤ 1 ∧ (0 < tr.countP event → Closed l') := by
  induction run with
  | refl => simp
  | @tail tr m n a run h ih =>
    rcases ih with ⟨hle, hc⟩
    have run' : Run l (tr ++ [⟨m, a, n⟩]) n := .tail run h
    rw [List.countP_append, List.countP_singleton]
    by_cases hpos : 0 < tr.countP event
    · have hm := hc hpos
      have hb := blocks run' hm
      simp only [hb]
      exact ⟨by simpa using hle, fun _ => keeps run' hm⟩
    · have hz : tr.countP event = 0 := by omega
      cases he : event ⟨m, a, n⟩ with
      | false => simp [hz]
      | true =>
        refine ⟨by simp [hz], fun _ => closes run' he⟩

end Run

/-! ## The callers of a run -/

section

variable {l : Lifecycle} {x : Moment}

namespace Moment

/-- The stage of the caller that moves, before it does. -/
def stage? (x : Moment) : Option Stage :=
  match x.action with
  | .caller i _ => x.before.callers[i]?
  | _ => none

/-- The stage of the caller that has moved. -/
def reached? (x : Moment) : Option Stage :=
  match x.action with
  | .caller i _ => x.after.callers[i]?
  | _ => none

theorem stage?_caller {i : Nat} {m : Move} (ha : x.action = .caller i m) :
    x.stage? = x.before.callers[i]? := by
  rw [stage?, ha]

theorem reached?_caller {i : Nat} {m : Move} (ha : x.action = .caller i m) :
    x.reached? = x.after.callers[i]? := by
  rw [reached?, ha]

theorem stage?_eq_some {s : Stage} : x.stage? = some s ↔
    ∃ i m, x.action = .caller i m ∧ x.before.callers[i]? = some s := by
  constructor
  · intro h
    unfold stage? at h
    split at h
    · rename_i i m ha
      exact ⟨i, m, ha, h⟩
    · cases h
  · rintro ⟨i, m, ha, hs⟩
    exact (stage?_caller ha).trans hs

theorem reached?_eq_some {s : Stage} : x.reached? = some s ↔
    ∃ i m, x.action = .caller i m ∧ x.after.callers[i]? = some s := by
  constructor
  · intro h
    unfold reached? at h
    split at h
    · rename_i i m ha
      exact ⟨i, m, ha, h⟩
    · cases h
  · rintro ⟨i, m, ha, hs⟩
    exact (reached?_caller ha).trans hs

end Moment

/-- What a change does to the stage of a caller. -/
theorem Change.callers {n : Lifecycle} {a : Action} (h : Change l a n) {j : Nat} {t : Stage}
    (ht : n.callers[j]? = some t) :
    l.callers[j]? = some t ∨ (∃ d, a = .enter d ∧ t = .asking d) ∨
      ∃ m s n', a = .caller j m ∧ l.callers[j]? = some s ∧ Turn l s m t n' ∧
        n = { n' with callers := l.callers.set j t } := by
  cases h with
  | enter d =>
    rcases getElem?_append_singleton_cases ht with ht | rfl
    · exact .inl ht
    · exact .inr (.inl ⟨d, rfl, rfl⟩)
  | caller i hs turn =>
    rcases getElem?_set_cases ht with ⟨rfl, rfl⟩ | ⟨-, ht⟩
    · exact .inr (.inr ⟨_, _, _, rfl, hs, turn, rfl⟩)
    · exact .inl ht
  | _ => exact .inl ht

/-- Only the turn of a caller enters a phase or changes the report. -/
theorem Change.turn_or_same {n : Lifecycle} {a : Action} (h : Change l a n) :
    (∃ i m s s' n', a = .caller i m ∧ l.callers[i]? = some s ∧ Turn l s m s' n' ∧
      n = { n' with callers := l.callers.set i s' }) ∨
      n.world.history = l.world.history ∧ n.report = l.report := by
  cases h with
  | caller i hs turn => exact .inl ⟨i, _, _, _, _, rfl, hs, turn, rfl⟩
  | work i k hi ht => exact .inr ⟨World.next?_history ht, rfl⟩
  | passGoes i k hi ht => exact .inr ⟨StopPass.turn?_history ht, rfl⟩
  | passEnds i k hi ht => exact .inr ⟨StopPass.turn?_history ht, rfl⟩
  | passSteps i k hi idle ht => exact .inr ⟨StopPass.step?_history ht, rfl⟩
  | _ => exact .inr ⟨rfl, rfl⟩

/-- As long as nothing has been left behind only a turn leaves something behind, or does anything to
the registry. -/
theorem Change.turn_or_none_left {n : Lifecycle} {a : Action} (h : Change l a n)
    (left : l.leftovers = []) :
    (∃ i m s s' n', a = .caller i m ∧ l.callers[i]? = some s ∧ Turn l s m s' n' ∧
      n = { n' with callers := l.callers.set i s' }) ∨
      (∀ i m, a ≠ .caller i m) ∧ n.leftovers = [] ∧ n.world.registry = l.world.registry := by
  have nothing {i : Nat} {o : Leftover} (hi : l.leftovers[i]? = some o) : False := by
    rw [left] at hi
    cases hi
  cases h with
  | caller i hs turn => exact .inl ⟨i, _, _, _, _, rfl, hs, turn, rfl⟩
  | work i k hi ht => exact (nothing hi).elim
  | passGoes i k hi ht => exact (nothing hi).elim
  | passEnds i k hi ht => exact (nothing hi).elim
  | passSteps i k hi idle ht => exact (nothing hi).elim
  | _ => exact .inr ⟨nofun, left, rfl⟩

/-- Work that was left behind goes on. -/
inductive Leftover.Advances (w : World) : Leftover → Leftover → Prop where
  | work {t t' : Task (Except Fault Unit)} {w' : World} (h : w.next? t = some (t', w')) :
      Advances w (.work t) (.work t')
  | goes {p p' : StopPass} {w' : World} (h : p.turn? w = some (.going p', w')) :
      Advances w (.pass p) (.pass p')
  | steps {p p' : StopPass} {k : Nat} {w' : World} (h : p.step? w k = some (p', w')) :
      Advances w (.pass p) (.pass p')

/-- Where work comes from that has been left behind. -/
theorem Change.leftover {n : Lifecycle} {a : Action} (h : Change l a n) {o : Leftover}
    (ho : o ∈ n.leftovers) :
    o ∈ l.leftovers ∨ (∃ o' ∈ l.leftovers, Leftover.Advances l.world o' o) ∨
      ∃ i m s s' n', a = .caller i m ∧ l.callers[i]? = some s ∧ Turn l s m s' n' ∧
        n = { n' with callers := l.callers.set i s' } := by
  cases h with
  | caller i hs turn => exact .inr (.inr ⟨i, _, _, _, _, rfl, hs, turn, rfl⟩)
  | work i k hi ht =>
    rcases List.mem_or_eq_of_mem_set ho with old | rfl
    · exact .inl old
    · exact .inr (.inl ⟨_, List.mem_of_getElem? hi, .work ht⟩)
  | passGoes i k hi ht =>
    rcases List.mem_or_eq_of_mem_set ho with old | rfl
    · exact .inl old
    · exact .inr (.inl ⟨_, List.mem_of_getElem? hi, .goes ht⟩)
  | passEnds i k hi ht => exact .inl (List.mem_of_mem_eraseIdx ho)
  | passSteps i k hi idle ht =>
    rcases List.mem_or_eq_of_mem_set ho with old | rfl
    · exact .inl old
    · exact .inr (.inl ⟨_, List.mem_of_getElem? hi, .steps ht⟩)
  | _ => exact .inl ho

/-- A caller makes a turn, or is left at its stage by the change. -/
theorem Change.goes {n : Lifecycle} {a : Action} (h : Change l a n) {j : Nat} {s : Stage}
    (hs : l.callers[j]? = some s) :
    (∀ m, a ≠ .caller j m) ∧ n.callers[j]? = some s ∨
      ∃ m s' n', a = .caller j m ∧ Turn l s m s' n' ∧
        n = { n' with callers := l.callers.set j s' } ∧ n.callers[j]? = some s' := by
  have hj := (List.getElem?_eq_some_iff.1 hs).1
  cases h with
  | enter d =>
    refine .inl ⟨fun m => nofun, ?_⟩
    rw [List.getElem?_append_left hj]
    exact hs
  | @caller i m t s' l' hi turn =>
    by_cases hij : i = j
    · subst hij
      have hst : t = s := Option.some.inj (hi.symm.trans hs)
      subst hst
      refine .inr ⟨m, s', l', rfl, turn, rfl, ?_⟩
      simp [hj]
    · refine .inl ⟨?_, ?_⟩
      · intro m' he
        exact hij (Action.caller.inj he).1
      · rw [List.getElem?_set_ne hij]
        exact hs
  | _ => exact .inl ⟨fun m => nofun, hs⟩

/-- What a caller does at a moment of a run. -/
theorem Moment.turn (h : x.before.act? x.action = some x.after) {s : Stage}
    (hs : x.stage? = some s) :
    ∃ i m s' n, x.action = .caller i m ∧ x.before.callers[i]? = some s ∧
      Turn x.before s m s' n ∧ x.after = { n with callers := x.before.callers.set i s' } ∧
        x.reached? = some s' := by
  rcases x with ⟨before, action, after⟩
  have hc : Change before action after := change_of_act? h
  cases hc with
  | @caller i m s₀ s' n hs₀ turn =>
    have he : s₀ = s := by
      simpa [stage?, hs₀] using hs
    subst he
    refine ⟨i, m, s', n, rfl, hs₀, turn, rfl, ?_⟩
    have hi := List.getElem?_eq_some_iff.1 hs₀
    simp [reached?, hi.1]
  | _ => cases hs

end

/-! ## A small plan -/

/-- A plan that hands over one container at once, without a request to the engine. -/
def Plan.immediate : Plan where
  init := fun _ => .done (.ok
    ⟨[⟨.postgres, "db", "c1", "postgres://db", some ⟨0, "db", "c1", some .postgres, .succeed⟩⟩],
      .settings {}⟩)

/-- The error that the first caller has been answered with. -/
def setupError? (l : Lifecycle) : Option Fault :=
  match (l.callers[0]? : Option Stage) with
  | some (.finished (.error e)) => some e
  | _ => none

theorem setupError?_eq_some {l : Lifecycle} {e : Fault} (h : l.setupError? = some e) :
    l.callers[0]? = some (.finished (.error e)) := by
  unfold setupError? at h
  split at h
  · rename_i hs
    cases h
    exact hs
  · cases h

/-! ## Order -/

/-- Two moments of a run in their order, with what lies before, between and after them. -/
theorem sublist_pair {x y : Moment} {tr : List Moment} :
    [x, y].Sublist tr ↔ ∃ u v w, tr = u ++ x :: (v ++ y :: w) := by
  constructor
  · intro h
    rw [List.cons_sublist_iff] at h
    rcases h with ⟨r, s, rfl, hx, hy⟩
    rw [List.singleton_sublist] at hy
    rcases List.append_of_mem hx with ⟨u, v, rfl⟩
    rcases List.append_of_mem hy with ⟨v', w, rfl⟩
    exact ⟨u, v ++ v', w, by simp⟩
  · rintro ⟨u, v, w, rfl⟩
    refine List.Sublist.trans ?_ (List.sublist_append_right u _)
    refine List.Sublist.cons_cons x ?_
    rw [List.singleton_sublist]
    simp

end Lifecycle
end Testbed

import Testbed.Proofs.Driver

/-!
# The drain of the ledger

Whoever stops containers drains the ledger first.  It is drained at most once in a run; what is
past the drain stays past it, and a terminal phase is only entered past it.
-/

namespace Testbed

/-- The caller has drained the ledger and has not entered the last phase yet. -/
def Stage.isPast : Stage → Bool
  | .confirming .. | .stopping .. | .clearing .. | .closing .. => true
  | _ => false

theorem Stage.isPast_drives? {s : Stage} (h : s.isPast = true) :
    ∃ p : Purpose, s.drives? = some p.source := by
  cases s <;> first | exact ⟨_, rfl⟩ | cases h

theorem Purpose.source_not_terminal (p : Purpose) : p.source.isTerminal = false := by
  cases p <;> rfl

namespace Lifecycle

variable {l n l' : Lifecycle} {a : Action} {tr : List Moment}

/-- The ledger has been drained by a caller that stops containers, or that has. -/
def Drained (l : Lifecycle) : Prop :=
  l.phase.isTerminal = true ∨
    ∃ (i : Nat) (s : Stage), l.callers[i]? = some s ∧ s.isPast = true

namespace Moment

/-- The ledger is drained. -/
def drains (x : Moment) : Bool :=
  match x.stage? with
  | some (.draining _) => true
  | _ => false

/-- A terminal phase is entered. -/
def ends (x : Moment) : Bool := !x.before.phase.isTerminal && x.after.phase.isTerminal

/-- The wait for a stop pass is given up: its bound expires, or the runtime for it cannot be
started. -/
def givesUp (x : Moment) : Bool :=
  match x.action, x.stage?, x.reached? with
  | .caller _ .expire, some (.stopping ..), _ => true
  | _, some (.confirming ..), some (.clearing _ (.error _)) => true
  | _, _, _ => false

/-- The bound of a setup expires while a part of its plan still runs. -/
def timesOut (x : Moment) : Bool :=
  match x.action, x.reached? with
  | .caller _ .expire, some (.failing _) => true
  | _, _ => false

end Moment

/-! ## Past the drain -/

/-- A caller gets past the drain by draining, and back only into a terminal phase. -/
theorem Turn.past {s s' : Stage} {m : Move} (h : Turn l s m s' n) (hs : s.isPast = true)
    (hd : ∀ p, s.drives? = some p → l.phase = p) :
    s'.isPast = true ∨ n.phase.isTerminal = true := by
  cases h
  case closeFailed => exact .inr rfl
  case closeStopped => exact .inr rfl
  case closeRefused p r k report hp =>
    rw [hd p.source rfl] at hp
    exact absurd p.target_mem_next hp
  all_goals first | exact .inl rfl | cases hs

theorem Turn.of_past {s s' : Stage} {m : Move} (h : Turn l s m s' n) (hs : s'.isPast = true) :
    s.isPast = true ∨ ∃ p, s = .draining p := by
  cases h
  case drain p k log => exact .inr ⟨p, rfl⟩
  all_goals first | exact .inl rfl | cases hs

/-- A terminal phase is entered past the drain. -/
theorem Turn.of_terminal {s s' : Stage} {m : Move} (h : Turn l s m s' n)
    (hl : l.phase.isTerminal = false) (hn : n.phase.isTerminal = true) :
    ∃ p r, s = .closing p r := by
  rcases h.history with hh | ⟨q, -, hh, he⟩
  · rw [phase_of_history_eq hh, hl] at hn
    cases hn
  · rw [phase_of_history hh] at hn
    cases he with
    | close p r => exact ⟨p, r, rfl⟩
    | _ => cases hn

/-- What some stage is behind stays behind it: the stage is left for another one behind it, or into
a terminal phase. -/
theorem Change.keeps_past {past : Stage → Bool} (hc : Change l a n) (sound : l.Sound)
    (turns : ∀ {s s' : Stage} {m : Move} {n : Lifecycle}, Turn l s m s' n → past s = true →
      (∀ p, s.drives? = some p → l.phase = p) → past s' = true ∨ n.phase.isTerminal = true)
    (h : l.phase.isTerminal = true ∨
      ∃ (i : Nat) (s : Stage), l.callers[i]? = some s ∧ past s = true) :
    n.phase.isTerminal = true ∨
      ∃ (i : Nat) (s : Stage), n.callers[i]? = some s ∧ past s = true := by
  rcases h with ht | ⟨i, s, hs, hp⟩
  · exact .inl ((sound.terminal hc ht).1 ▸ ht)
  · rcases hc.goes hs with ⟨-, hn⟩ | ⟨m, s', n', -, turn, rfl, hn⟩
    · exact .inr ⟨i, s, hn, hp⟩
    · rcases turns turn hp fun p => sound.phase_eq hs with hp | ht
      · exact .inr ⟨i, s', hn, hp⟩
      · exact .inl ht

/-- What is past the drain stays past it. -/
theorem Drained.change (h : l.Drained) (sound : l.Sound) (hc : Change l a n) : n.Drained :=
  hc.keeps_past sound (fun turn => turn.past) h

/-- Nobody drains the ledger past the drain. -/
theorem Drained.not_draining (h : l.Drained) (sound : l.Sound) {i : Nat} {p : Purpose} :
    l.callers[i]? ≠ some (.draining p) := by
  intro hi
  rcases h with ht | ⟨j, s, hs, hp⟩
  · rw [sound.phase_eq hi rfl, p.source_not_terminal] at ht
    cases ht
  · rcases Stage.isPast_drives? hp with ⟨q, hq⟩
    rcases sound.unique hs hi hq rfl with rfl
    rw [hs] at hi
    cases hi
    cases hp

/-! ## The drain of a run -/

section

variable {u v : List Moment} {x : Moment}

/-- What happens at most once happens at no other moment. -/
theorem others_of_countP_le_one {event : Moment → Bool}
    (most : (u ++ x :: v).countP event ≤ 1) (hx : event x = true) :
    ∀ y ∈ u ++ v, event y = false := by
  simp only [List.countP_append, List.countP_cons, hx, if_true] at most
  have none : (u ++ v).countP event = 0 := by
    rw [List.countP_append]
    omega
  simpa using List.countP_eq_zero.1 none

/-- What happens when the ledger is drained. -/
theorem Moment.drains_turn (h : x.before.act? x.action = some x.after) (hd : x.drains = true) :
    ∃ i k p, x.action = .caller i (.go k) ∧ x.before.callers[i]? = some (.draining p) ∧
      x.after.callers[i]? = some (.confirming p x.before.world.ledger.entries.reverse) ∧
      ∃ cs log, x.after = { x.before with
        callers := cs, world := { x.before.world with ledger := ⟨[]⟩, log := log } } := by
  unfold Moment.drains at hd
  split at hd
  · rename_i p hs
    rcases x.turn h hs with ⟨i, m, s', n, ha, hi, turn, hn, hr⟩
    have hr' : x.after.callers[i]? = some s' := by
      rw [← hr, Moment.reached?, ha]
    cases turn with
    | drain _ k log => exact ⟨i, k, p, ha, hi, hr', _, log, hn⟩
  · cases hd

theorem Run.keeps_drained (fresh : l.Fresh) (run : Run l (tr ++ [x]) x.after)
    (h : x.before.Drained) : x.after.Drained :=
  h.change (run.tail_inv.1.sound fresh) (change_of_act? run.tail_inv.2.1)

/-- After the drain an environment is drained. -/
theorem Run.drained (fresh : l.Fresh) (run : Run l (u ++ x :: v) l') (hx : x.drains = true) :
    l'.Drained := by
  refine run.stays (fun run h => run.keeps_drained fresh h) ?_
  rcases Moment.drains_turn run.at_moment.2.1 hx with ⟨i, k, p, -, -, hn, -⟩
  exact .inr ⟨i, .confirming p _, hn, rfl⟩

/-- The ledger is drained at most once. -/
theorem Run.drains_once (fresh : l.Fresh) (run : Run l tr l') :
    tr.countP Moment.drains ≤ 1 := by
  refine (run.countP_le_one Drained ?_ ?_ ?_).1
  · intro tr x hx he
    exact Run.drained (v := []) fresh hx he
  · intro tr x hx hc
    by_contra he
    rcases Moment.drains_turn hx.tail_inv.2.1 (by simpa using he) with ⟨i, k, p, -, hi, -⟩
    exact hc.not_draining (hx.tail_inv.1.sound fresh) hi
  · intro tr x hx hc
    exact hx.keeps_drained fresh hc

/-- Nothing but one moment drains the ledger. -/
theorem Run.drains_only (fresh : l.Fresh) (run : Run l (u ++ x :: v) l') (hx : x.drains = true) :
    ∀ y ∈ u ++ v, y.drains = false :=
  others_of_countP_le_one (run.drains_once fresh) hx

/-- Before a caller is past the drain the ledger has been drained. -/
theorem Run.drains_of_past (fresh : l.Fresh) (run : Run l tr l') {i : Nat} {s : Stage}
    (hs : l'.callers[i]? = some s) (hp : s.isPast = true) : ∃ x ∈ tr, x.drains = true := by
  induction run generalizing s with
  | refl => simp [fresh.callers] at hs
  | @tail tr m n a run h ih =>
    rcases (change_of_act? h).callers hs with hm | ⟨d, -, rfl⟩ | ⟨mv, t, n', rfl, ht, turn, -⟩
    · rcases ih hm hp with ⟨x, hx, hd⟩
      exact ⟨x, List.mem_append_left _ hx, hd⟩
    · cases hp
    · rcases turn.of_past hp with hp | ⟨p, rfl⟩
      · rcases ih ht hp with ⟨x, hx, hd⟩
        exact ⟨x, List.mem_append_left _ hx, hd⟩
      · exact ⟨⟨m, .caller i mv, n⟩, by simp, by simp [Moment.drains, Moment.stage?, ht]⟩

/-- A terminal phase has been entered after the ledger was drained. -/
theorem Run.ends_after_drain (fresh : l.Fresh) (run : Run l tr l')
    (ht : l'.phase.isTerminal = true) :
    ∃ x y, [x, y].Sublist tr ∧ x.drains = true ∧ y.ends = true := by
  induction run with
  | refl =>
    rw [fresh.phase_eq] at ht
    cases ht
  | @tail tr m n a run h ih =>
    cases hm : m.phase.isTerminal with
    | true =>
      rcases ih hm with ⟨x, y, hxy, hx, hy⟩
      exact ⟨x, y, hxy.trans (List.sublist_append_left ..), hx, hy⟩
    | false =>
      -- The last phase is entered now, by a caller that is past the drain.
      have closing : ∃ (i : Nat) (p : Purpose) (r : Except Fault TeardownReport),
          m.callers[i]? = some (.closing p r) := by
        rcases (change_of_act? h).turn_or_same with ⟨i, mv, s, s', n', -, hs, turn, rfl⟩ | ⟨hh, -⟩
        · rcases turn.of_terminal hm ht with ⟨p, r, rfl⟩
          exact ⟨i, p, r, hs⟩
        · rw [phase_of_history_eq hh, hm] at ht
          cases ht
      rcases closing with ⟨i, p, r, hi⟩
      rcases run.drains_of_past fresh hi rfl with ⟨x, hx, hd⟩
      refine ⟨x, ⟨m, a, n⟩, ?_, hd, ?_⟩
      · exact List.Sublist.append (List.singleton_sublist.2 hx) (List.Sublist.refl _)
      · simp [Moment.ends, hm, ht]

end

/-! ## What is left behind -/

/-- A turn leaves work behind when its bound expires, and all that was left behind ends with the
runtime. -/
theorem Turn.leftovers {s s' : Stage} {m : Move} (h : Turn l s m s' n) :
    n.leftovers = l.leftovers ∨ n.leftovers = [] ∨
      (∃ t, n.leftovers = l.leftovers ++ [.work t] ∧ n.world = l.world ∧
        m = .expire ∧ ∃ f, s' = .failing f) ∨
      ∃ p pass, s = .stopping p pass ∧ m = .expire := by
  cases h
  case initExpired t _ => exact .inr (.inr (.inl ⟨_, rfl, rfl, rfl, _, rfl⟩))
  case finishExpired t _ => exact .inr (.inr (.inl ⟨_, rfl, rfl, rfl, _, rfl⟩))
  case passExpired p pass => exact .inr (.inr (.inr ⟨p, pass, rfl, rfl⟩))
  all_goals first | exact .inl rfl | exact .inr (.inl rfl)

/-- A stop pass is left behind by the caller that has waited for it. -/
theorem Change.pass_left (hc : Change l a n) {p : StopPass} (hp : .pass p ∈ n.leftovers) :
    (∃ q, .pass q ∈ l.leftovers) ∨
      ∃ i q pass, a = .caller i .expire ∧ l.callers[i]? = some (.stopping q pass) := by
  rcases hc.leftover hp with old | ⟨o, ho, advances⟩ | ⟨i, m, s, s', n', rfl, hs, turn, rfl⟩
  · exact .inl ⟨p, old⟩
  · cases advances <;> exact .inl ⟨_, ho⟩
  · have hp : .pass p ∈ n'.leftovers := hp
    rcases turn.leftovers with same | none | ⟨t, added, -⟩ | ⟨q, pass, rfl, rfl⟩
    · exact .inl ⟨p, same ▸ hp⟩
    · rw [none] at hp
      cases hp
    · refine .inl ⟨p, ?_⟩
      simpa [added] using hp
    · exact .inr ⟨i, q, pass, rfl, hs⟩

theorem Moment.not_expired {x : Moment} {i : Nat} {p : Purpose} {pass : StopPass}
    (calm : x.givesUp = false) (ha : x.action = .caller i .expire) :
    x.before.callers[i]? ≠ some (.stopping p pass) := by
  intro hs
  simp [Moment.givesUp, Moment.stage?_caller ha, ha, hs] at calm

theorem Moment.not_refused {x : Moment} {p q : Purpose} {cs : List Capability} {f : Fault}
    (calm : x.givesUp = false) (hx : x.stage? = some (.confirming p cs)) :
    x.reached? ≠ some (.clearing q (.error f)) := by
  intro hr
  simp [Moment.givesUp, hx, hr] at calm

/-- No stop pass is left behind while no wait for one is given up. -/
theorem Run.no_pass_left (fresh : l.Fresh) (run : Run l tr l')
    (calm : ∀ x ∈ tr, x.givesUp = false) (p : StopPass) : Leftover.pass p ∉ l'.leftovers := by
  induction run generalizing p with
  | refl => simp [fresh.leftovers]
  | @tail tr m n a run h ih =>
    have ih := ih fun x hx => calm x (List.mem_append_left _ hx)
    have now := calm ⟨m, a, n⟩ (by simp)
    intro hp
    rcases (change_of_act? h).pass_left hp with ⟨q, old⟩ | ⟨i, q, pass, rfl, hs⟩
    · exact ih q old
    · exact absurd hs (Moment.not_expired now rfl)

/-- Before the drain nothing is left behind while no setup runs into its bound. -/
theorem Run.none_left_or_drained (fresh : l.Fresh) (run : Run l tr l')
    (patient : ∀ x ∈ tr, x.timesOut = false) : l'.leftovers = [] ∨ l'.Drained := by
  induction run with
  | refl => exact .inl fresh.leftovers
  | @tail tr m n a run h ih =>
    have hc : Change m a n := change_of_act? h
    have sound : m.Sound := run.sound fresh
    rcases ih fun x hx => patient x (List.mem_append_left _ hx) with left | drained
    · rcases hc.turn_or_none_left left with ⟨i, mv, s, s', n', rfl, hs, turn, rfl⟩ | ⟨-, none, -⟩
      · rcases turn.leftovers with same | none | ⟨t, -, -, rfl, f, rfl⟩ | ⟨p, pass, rfl, -⟩
        · exact .inl (same.trans left)
        · exact .inl none
        · have now := patient _ (List.mem_append_right tr (List.mem_singleton_self _))
          simp [Moment.timesOut, Moment.reached?, (List.getElem?_eq_some_iff.1 hs).1] at now
        · -- A pass is only given up past the drain.
          have before : m.Drained := .inr ⟨i, _, hs, rfl⟩
          exact .inr (before.change sound hc)
      · exact .inl none
    · exact .inr (drained.change sound hc)

end Lifecycle
end Testbed

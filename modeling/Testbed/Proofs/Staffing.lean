import Testbed.Proofs.Calls
import Testbed.Proofs.Drain

/-!
# Who holds the runtime

Work is only left behind on a runtime that is held, and it ends with that runtime (`Staffed`), as
long as no program shuts the runtime down itself.  So no part of a plan outlives the drain of the
ledger; nor does one if the setup has waited for the end of each part.
-/

namespace Testbed

/-- Whether a runtime is held while the driver is at a stage, if the stage tells. -/
def Stage.holds? : Stage → Option Bool
  | .initializing .. | .publishing .. | .finishing _ | .stopping .. => some true
  | .disconnecting .. | .halting .. => some false
  | _ => none

/-- Work may be left behind while the driver is at a stage, given whether it holds a runtime. -/
def Stage.leaves (held : Bool) : Stage → Bool
  | .failing _ | .clearing .. | .closing .. | .releasing .. => held
  | .disconnecting .. => true
  | _ => false

namespace Lifecycle

variable {l l' n : Lifecycle} {a : Action} {s s' : Stage} {m : Move} {i : Nat} {tr u : List Moment}

theorem effect_workersOpen {w w' : World} {c : Call} (h : World.Effect w c w')
    (hc : c ≠ .shutdownRuntime) : w'.workersOpen = w.workersOpen := by
  cases h with
  | shutdown => exact absurd rfl hc
  | _ => rfl

/-- Only a driver takes or gives up the runtime. -/
theorem Turn.held (turn : Turn l s m s' n) : n.held = l.held ∨ ∃ p, s.drives? = some p := by
  cases turn <;> first | exact .inl rfl | exact .inr ⟨_, rfl⟩

/-- Work is only left behind on a runtime that is held, and a runtime that is held takes calls. -/
structure Staffed (l : Lifecycle) : Prop where
  opened : l.held = true → l.world.workersOpen = true
  stages : ∀ {i : Nat} {s : Stage} {b : Bool},
    l.callers[i]? = some s → s.holds? = some b → l.held = b
  left : l.leftovers = [] ∨
    ∃ (i : Nat) (s : Stage), l.callers[i]? = some s ∧ s.leaves l.held = true

theorem Fresh.staffed (fresh : l.Fresh) : l.Staffed where
  opened := by simp [fresh.held]
  stages := by simp [fresh.callers]
  left := .inl fresh.leftovers

theorem Stage.drives?_of_holds? {b : Bool} (h : s.holds? = some b) :
    ∃ p, s.drives? = some p := by
  cases s <;> first | exact ⟨_, rfl⟩ | cases h

theorem Stage.drives?_of_leaves {held : Bool} (h : s.leaves held = true) :
    ∃ p, s.drives? = some p := by
  cases s <;> first | exact ⟨_, rfl⟩ | cases h

/-- A runtime is opened, or shut down by its driver, or goes on; only one that is opened is newly
held. -/
theorem Turn.workersOpen (turn : Turn l s m s' n) (alive : s.call? m ≠ some .shutdownRuntime) :
    n.world.workersOpen = true ∨ (∃ vs next, s = .halting vs next) ∨
      n.world.workersOpen = l.world.workersOpen ∧ (n.held = true → l.held = true) := by
  -- A program only closes the runtime by the call that is excluded.
  have calls {α : Type} {t t' : Task α} {w : World} (hn : l.world.next? t = some (t', w))
      (ht : s.call? m = t.call?) : w.workersOpen = l.world.workersOpen := by
    rcases World.next?_call hn with ⟨c, hc, he⟩
    refine effect_workersOpen he ?_
    rintro rfl
    exact alive (ht.trans hc)
  have published {d : Delivery} {r : Except Fault EnvironmentSettings} {w : World}
      (hp : publish l.world d = (r, w)) : w.workersOpen = l.world.workersOpen := by
    rcases publish_world hp with ⟨registry, ledger, log, rfl⟩
    rfl
  cases turn
  case launch => exact .inl rfl
  case confirmAnew => exact .inl rfl
  case init hn => exact .inr (.inr ⟨calls hn rfl, id⟩)
  case finish hn => exact .inr (.inr ⟨calls hn rfl, id⟩)
  case disconnectSteps hn => exact .inr (.inr ⟨calls hn rfl, id⟩)
  case publishFailed hp => exact .inr (.inr ⟨published hp, id⟩)
  case publishLast hp _ => exact .inr (.inr ⟨published hp, id⟩)
  case publishThen hp _ _ =>
    have same := published hp
    exact .inr (.inr ⟨same, id⟩)
  case publishClosed hp _ =>
    have same := published hp
    exact .inr (.inr ⟨same, id⟩)
  case passGoes ht =>
    rcases StopPass.turn?_world ht with ⟨log, rfl⟩
    exact .inr (.inr ⟨rfl, id⟩)
  case passEnds ht =>
    rcases StopPass.turn?_world ht with ⟨log, rfl⟩
    exact .inr (.inr ⟨rfl, id⟩)
  case passSteps ht =>
    rcases StopPass.step?_call ht with ⟨c, hc, he⟩
    refine .inr (.inr ⟨effect_workersOpen he ?_, id⟩)
    rintro rfl
    exact alive hc
  all_goals
    first
      | exact .inr (.inr ⟨rfl, id⟩)
      | exact .inr (.inr ⟨rfl, nofun⟩)
      | exact .inr (.inl ⟨_, _, rfl⟩)

theorem Staffed.stage_turn (h : l.Staffed) (hs : l.callers[i]? = some s)
    (turn : Turn l s m s' n) {b : Bool} (hb : s'.holds? = some b) : n.held = b := by
  cases turn
  case confirm p cs k running =>
    cases hb
    exact running.1
  all_goals first | (cases hb; done) | (cases hb; rfl) | (cases hb; exact h.stages hs rfl)

/-- Work that is left behind ends with its runtime. -/
theorem Staffed.left_turn (h : l.Staffed) (sound : l.Sound) (hs : l.callers[i]? = some s)
    (turn : Turn l s m s' n) (mine : l.leftovers = [] ∨ s.leaves l.held = true) :
    n.leftovers = [] ∨ s'.leaves n.held = true := by
  -- Without a runtime nothing can have been left behind on one.
  have closed (no : ¬ (l.held = true ∧ l.world.workersOpen = true))
      (he : s.leaves l.held = l.held) : l.leftovers = [] := by
    rcases mine with none | minds
    · exact none
    · have held : l.held = true := he ▸ minds
      exact absurd ⟨held, h.opened held⟩ no
  cases turn
  case initExpired => exact .inr (h.stages hs rfl)
  case finishExpired => exact .inr (h.stages hs rfl)
  case passExpired => exact .inr (h.stages hs rfl)
  case failHalting => exact .inl rfl
  case failDraining no => exact .inl (closed no rfl)
  case clearFailure => exact mine
  case clear => exact mine
  case closeFailed => exact mine
  case closeStopped => exact mine
  case closeRefused p r k report refused =>
    rw [sound.phase_eq hs rfl] at refused
    exact absurd p.target_mem_next refused
  case disconnect => exact .inr rfl
  case releaseHalting => exact .inl rfl
  case releaseNothing no => exact .inl (closed no rfl)
  case disconnected => exact .inl rfl
  case disconnectSteps => exact .inr rfl
  case disconnectExpired => exact .inl rfl
  all_goals
    rcases mine with none | minds
    · exact .inl none
    · cases minds

theorem Staffed.opened_turn (h : l.Staffed) (hs : l.callers[i]? = some s)
    (turn : Turn l s m s' n) (alive : s.call? m ≠ some .shutdownRuntime) (held : n.held = true) :
    n.world.workersOpen = true := by
  rcases turn.workersOpen alive with opened | ⟨vs, next, rfl⟩ | ⟨same, kept⟩
  · exact opened
  · -- The runtime that is shut down has been given up.
    have given : l.held = false := h.stages hs rfl
    have still : n.held = l.held := by
      cases turn <;> rfl
    rw [still, given] at held
    cases held
  · exact same.trans (h.opened (kept held))

theorem Staffed.turn (h : l.Staffed) (sound : l.Sound) (hs : l.callers[i]? = some s)
    (turn : Turn l s m s' n) (alive : s.call? m ≠ some .shutdownRuntime) :
    Staffed { n with callers := l.callers.set i s' } where
  opened := by
    intro held
    have opened := h.opened_turn hs turn alive held
    exact opened
  stages := by
    intro j t b ht hb
    rcases getElem?_set_cases ht with ⟨rfl, rfl⟩ | ⟨other, ht⟩
    · exact h.stage_turn hs turn hb
    · rcases turn.held with same | ⟨p, hp⟩
      · exact same.trans (h.stages ht hb)
      · rcases Stage.drives?_of_holds? hb with ⟨q, hq⟩
        exact absurd (sound.unique ht hs hq hp) other
  left := by
    have bound := (List.getElem?_eq_some_iff.1 hs).1
    have own (mine : l.leftovers = [] ∨ s.leaves l.held = true) :
        n.leftovers = [] ∨ ∃ (j : Nat) (t : Stage), (l.callers.set i s')[j]? = some t ∧
          t.leaves n.held = true := by
      rcases h.left_turn sound hs turn mine with none | leaves
      · exact .inl none
      · exact .inr ⟨i, s', by simp [bound], leaves⟩
    -- Either the caller itself minds the work that is left, or another one that drives does.
    rcases h.left with none | ⟨j, t, ht, leaves⟩
    · exact own (.inl none)
    · by_cases hij : i = j
      · subst hij
        cases hs.symm.trans ht
        exact own (.inr leaves)
      · rcases turn.held with same | ⟨p, hp⟩
        · refine .inr ⟨j, t, ?_, same ▸ leaves⟩
          rw [List.getElem?_set_ne hij]
          exact ht
        · rcases Stage.drives?_of_leaves leaves with ⟨q, hq⟩
          exact absurd (sound.unique hs ht hp hq) hij

/-- Every action keeps the runtime staffed, unless it shuts the runtime down by a call. -/
theorem Staffed.change (h : l.Staffed) (sound : l.Sound) (hc : Change l a n)
    (alive : l.call? a ≠ some .shutdownRuntime) : n.Staffed := by
  cases a with
  | enter d =>
    cases hc
    refine ⟨h.opened, ?_, ?_⟩
    · intro j t b ht hb
      rcases getElem?_append_singleton_cases ht with ht | rfl
      · exact h.stages ht hb
      · cases hb
    · rcases h.left with none | ⟨j, t, ht, leaves⟩
      · exact .inl none
      · refine .inr ⟨j, t, ?_, leaves⟩
        rw [List.getElem?_append_left (List.getElem?_eq_some_iff.1 ht).1]
        exact ht
  | caller i m =>
    cases hc with
    | @caller i m s s' n hs turn =>
      refine h.turn sound hs turn ?_
      simpa [call?, hs] using alive
  | leftover i k =>
    rcases hc.of_leftover with ⟨⟨o, hi⟩, w, os, rfl, effect⟩
    -- Work is left behind, so somebody minds it.
    have minded : ∃ (j : Nat) (t : Stage), l.callers[j]? = some t ∧ t.leaves l.held = true := by
      rcases h.left with none | minded
      · rw [none] at hi
        cases hi
      · exact minded
    rcases effect with ⟨log, rfl⟩ | ⟨c, called, he⟩
    · exact ⟨h.opened, h.stages, .inr minded⟩
    · refine ⟨fun held => (effect_workersOpen he ?_).trans (h.opened held), h.stages, .inr minded⟩
      rintro rfl
      exact alive called
  | _ =>
    cases hc
    exact ⟨h.opened, h.stages, h.left⟩

theorem Run.staffed (fresh : l.Fresh) (run : Run l tr l')
    (alive : ∀ x ∈ tr, x.call? ≠ some .shutdownRuntime) : l'.Staffed := by
  induction run with
  | refl => exact fresh.staffed
  | @tail tr m n a run h ih =>
    have before := ih fun x hx => alive x (List.mem_append_left _ hx)
    exact before.change (run.sound fresh) (change_of_act? h) (alive ⟨m, a, n⟩ (by simp))

theorem Staffed.none_left (h : l.Staffed) (sound : l.Sound) {p : Purpose}
    (hi : l.callers[i]? = some (.draining p)) : l.leftovers = [] := by
  -- Who minds such work drives, and the one that drives is about to drain.
  rcases h.left with none | ⟨j, t, ht, leaves⟩
  · exact none
  · rcases Stage.drives?_of_leaves leaves with ⟨q, hq⟩
    rcases sound.unique hi ht rfl hq with rfl
    cases hi.symm.trans ht
    cases leaves

/-- No part of a plan outlives the drain, if none has shut its runtime down or the setup has waited
for the end of each. -/
theorem Run.none_left_at_drain (fresh : l.Fresh) (run : Run l u l') {p : Purpose}
    (hi : l'.callers[i]? = some (.draining p))
    (ended : (∀ z ∈ u, z.call? ≠ some .shutdownRuntime) ∨ ∀ z ∈ u, z.timesOut = false) :
    l'.leftovers = [] := by
  have sound : l'.Sound := run.sound fresh
  rcases ended with alive | patient
  · exact (run.staffed fresh alive).none_left sound hi
  · exact (run.none_left_or_drained fresh patient).resolve_right fun drained =>
      drained.not_draining sound hi

theorem Staffed.none_left_idle (h : l.Staffed)
    (idle : ∀ (i : Nat) (s : Stage), l.callers[i]? = some s → s.drives? = none) :
    l.leftovers = [] := by
  rcases h.left with none | ⟨j, t, ht, leaves⟩
  · exact none
  · rcases Stage.drives?_of_leaves leaves with ⟨q, hq⟩
    rw [idle j t ht] at hq
    cases hq

/-- If one caller drives and holds a runtime that takes calls, the runtime is staffed. -/
theorem Sound.staffed (sound : l.Sound) (hs : l.callers[i]? = some s)
    (holds : s.holds? = some true) (held : l.held = true) (opened : l.world.workersOpen = true)
    (left : l.leftovers = []) : l.Staffed where
  opened := fun _ => opened
  stages := by
    intro j t b ht hb
    rcases Stage.drives?_of_holds? holds with ⟨p, hp⟩
    rcases Stage.drives?_of_holds? hb with ⟨q, hq⟩
    rcases sound.unique hs ht hp hq with rfl
    cases hs.symm.trans ht
    exact held.trans (Option.some.inj (holds.symm.trans hb))
  left := .inl left

end Lifecycle
end Testbed

import Testbed.Proofs.FailedSetup
import Testbed.Proofs.Regulation
import Testbed.Proofs.StopOnce

/-!
# Access to the registry

The gate of the registry lets reads through only while setup is complete and no stop pass has begun.
`Gated` ties the state of the registry to the phase of the environment and to the stage of its
driver.  From there on the history of a run says what lies behind a sealed registry (`Behind`), and
that a failed setup never leads to one (`Failed`).
-/

namespace Testbed

/-! ## The registry at each stage -/

/-- The registry while containers are stopped for a purpose. -/
def Purpose.registry : Purpose → RegistryState
  | .failure _ => .opened
  | .teardown _ => .draining

/-- The registry while a runtime is shut down, if it is not up to the phase. -/
def Afterwards.registry? : Afterwards → Option RegistryState
  | .drain _ => some .opened
  | .announce .. => none

/-- The registry while the driver is at a stage, if it is not up to the phase. -/
def Stage.registry? : Stage → Option RegistryState
  | .starting _ | .initializing .. | .publishing .. | .finishing _ | .sealing
  | .failing _ => some .opened
  | .entering | .quieting _ => some .sealed
  | .draining p | .confirming p _ | .stopping p _ | .clearing p _ => some p.registry
  | .halting _ next => next.registry?
  | .closing .. => some .cleared
  | _ => none

/-- The registry in a phase, if it is not up to the driver. -/
def Phase.registry? : Phase → Option RegistryState
  | .uninitialized => some .opened
  | .ready => some .sealed
  | .stopped | .failed => some .cleared
  | .initializing | .tearingDown => none

/-- The caller cleans up after a failed setup and has not entered the last phase yet. -/
def Stage.cleansUp : Stage → Bool
  | .failing _ => true
  | .halting _ next => !next.isLate
  | .draining p | .confirming p _ | .stopping p _ | .clearing p _ | .closing p _ => p.isFailure
  | _ => false

theorem Stage.drives?_of_registry? {s : Stage} {r : RegistryState} (h : s.registry? = some r) :
    ∃ p, s.drives? = some p := by
  cases s <;> first | exact ⟨_, rfl⟩ | cases h

theorem Purpose.source_registry? (p : Purpose) : p.source.registry? = none := by
  cases p <;> rfl

theorem Purpose.target_registry? (p : Purpose) : p.target.registry? = some .cleared := by
  cases p <;> rfl

namespace Lifecycle

variable {l l' n : Lifecycle} {a : Action} {s s' t : Stage} {m : Move} {i : Nat}
  {tr u v : List Moment} {x y : Moment}

/-- Phase, driver and registry agree, and a cleared registry is empty. -/
structure Gated (l : Lifecycle) : Prop where
  stages : ∀ {i : Nat} {s : Stage} {r : RegistryState},
    l.callers[i]? = some s → s.registry? = some r → l.world.registry.state = r
  phases : ∀ {r : RegistryState}, l.phase.registry? = some r → l.world.registry.state = r
  cleared : l.world.registry.state = .cleared → l.world.registry.entries = []

theorem Fresh.gated (fresh : l.Fresh) (opened : l.world.registry.state = .opened) : l.Gated where
  stages := by simp [fresh.callers]
  phases := by
    rw [fresh.phase_eq, opened]
    exact fun h => Option.some.inj h
  cleared := by
    rw [opened]
    exact nofun

theorem Gated.stage_turn (h : l.Gated) (hs : l.callers[i]? = some s) (turn : Turn l s m s' n)
    {r : RegistryState} (hr : s'.registry? = some r) : n.world.registry.state = r := by
  have reg := turn.registry
  have kept (w : l.world.registry.Writes n.world.registry) (same : s.registry? = some r) :
      n.world.registry.state = r :=
    w.state.trans (h.stages hs same)
  -- Where a turn does not change the state, the stage asked for the same state before.
  cases turn
  case begin hp =>
    have opened : l.world.registry.state = r := h.phases (hp ▸ hr)
    exact opened
  case tearDown hp =>
    have shut : l.world.registry.state = r := h.phases (hp ▸ hr)
    exact shut
  case «seal» k r' log hsl =>
    cases hr
    have opened : l.world.registry.state = .opened := h.stages hs rfl
    simp only [Registry.sealEntries, opened] at hsl
    cases hsl
    rfl
  case quiet strict k log =>
    cases hr
    have shut : l.world.registry.state = .sealed := h.stages hs rfl
    simp [Registry.beginDrain, shut, Purpose.registry]
  case clear => exact Option.some.inj hr
  case clearFailure => exact Option.some.inj hr
  all_goals
    first
      | cases hr; done
      | cases reg with
        | writes w => exact kept w hr

/-- What changes the state of the registry is done by the driver. -/
theorem Regulates.state {r r' : Registry} (h : Regulates r s s' r') :
    r'.state = r.state ∨ (∃ q, s.drives? = some q ∧ q.registry? = none) := by
  cases h with
  | writes w => exact .inl w.state
  | seals hr => exact .inr ⟨_, rfl, rfl⟩
  | drains strict => exact .inr ⟨_, rfl, rfl⟩
  | clears p o => exact .inr ⟨_, rfl, p.source_registry?⟩

theorem Gated.phase_turn (h : l.Gated) (sound : l.Sound) (hs : l.callers[i]? = some s)
    (turn : Turn l s m s' n) {r : RegistryState} (hr : n.phase.registry? = some r) :
    n.world.registry.state = r := by
  -- Either the phase is the old one, or the caller has just entered it.
  rcases turn.history with hh | ⟨q, -, hh, enters⟩
  · have same : n.phase = l.phase := phase_of_history_eq hh
    rw [same] at hr
    rcases turn.registry.state with he | ⟨q, hq, none⟩
    · exact he.trans (h.phases hr)
    -- A driver that changes the state does so in a phase that leaves it to the driver.
    · rw [sound.phase_eq hs hq, none] at hr
      cases hr
  · rw [phase_of_history hh] at hr
    have reg := turn.registry
    cases enters with
    | setup p => cases hr
    | teardown strict => cases hr
    | ready =>
      cases reg with
      | writes w => exact w.state.trans ((h.stages hs rfl).trans (Option.some.inj hr))
    | close p o =>
      have cleared : some RegistryState.cleared = some r := p.target_registry?.symm.trans hr
      cases reg with
      | writes w => exact w.state.trans ((h.stages hs rfl).trans (Option.some.inj cleared))

theorem Gated.of_writes (h : l.Gated) (callers : n.callers = l.callers)
    (history : n.world.history = l.world.history)
    (written : l.world.registry.Writes n.world.registry) : n.Gated where
  stages := by
    rw [callers, written.state]
    exact h.stages
  phases := by
    rw [phase_of_history_eq history, written.state]
    exact h.phases
  cleared := by
    intro hc
    exact written.cleared h.cleared hc

theorem Gated.turn (h : l.Gated) (sound : l.Sound) (hs : l.callers[i]? = some s)
    (turn : Turn l s m s' n) : Gated { n with callers := l.callers.set i s' } where
  stages := by
    -- Only the stage of this caller is new; all others see a registry that was written.
    intro j t r ht hr
    rcases getElem?_set_cases ht with ⟨rfl, rfl⟩ | ⟨other, ht⟩
    · exact h.stage_turn hs turn hr
    · rcases turn.registry.state with he | ⟨q, hq, -⟩
      · exact he.trans (h.stages ht hr)
      · rcases Stage.drives?_of_registry? hr with ⟨p, hp⟩
        exact absurd (sound.unique ht hs hp hq) other
  phases := by
    intro r hr
    exact h.phase_turn sound hs turn hr
  cleared := turn.registry.cleared h.cleared

/-- Every action keeps phase, driver and registry in agreement. -/
theorem Gated.change (h : l.Gated) (sound : l.Sound) (hc : Change l a n) : n.Gated := by
  cases a with
  | enter d =>
    cases hc
    refine ⟨?_, h.phases, h.cleared⟩
    intro j t r ht hr
    rcases getElem?_append_singleton_cases ht with ht | rfl
    · exact h.stages ht hr
    · cases hr
  | caller i m =>
    cases hc with
    | caller i hs turn => exact h.turn sound hs turn
  | leftover i k =>
    rcases hc.of_leftover with ⟨-, w, os, rfl, ⟨log, rfl⟩ | ⟨c, -, he⟩⟩
    · exact h.of_writes rfl rfl (.refl _)
    · exact h.of_writes rfl he.history (World.effect_registry he)
  | refuse k =>
    cases hc
    exact ⟨h.stages, h.phases, h.cleared⟩
  | gate isOpen =>
    cases hc
    exact ⟨h.stages, h.phases, h.cleared⟩

theorem Run.gated (fresh : l.Fresh) (opened : l.world.registry.state = .opened)
    (run : Run l tr l') : l'.Gated := by
  induction run with
  | refl => exact fresh.gated opened
  | tail run h ih => exact ih.change (run.sound fresh) (change_of_act? h)

/-! ## Sealed registries -/

/-- A setup has come to its end: the first part of its plan has returned a value, and then so has
the second part, if there is one. -/
def Completed (tr : List Moment) : Prop :=
  ∃ (p : Plan) (d : Delivery) (x : Moment),
    x ∈ tr ∧ x.stage? = some (.initializing p (.done (.ok d))) ∧
      (p.after = none ∨ ∃ y, [x, y].Sublist tr ∧ y.stage? = some (.finishing (.done (.ok ()))))

/-- What lies behind a caller that sets up. -/
def Behind (tr : List Moment) : Stage → Prop
  | .publishing p d => ∃ x ∈ tr, x.stage? = some (.initializing p (.done (.ok d)))
  | .finishing _ => ∃ p d, ∃ x ∈ tr, x.stage? = some (.initializing p (.done (.ok d)))
  | .sealing | .entering => Completed tr
  | _ => True

theorem Completed.append (h : Completed tr) (v : List Moment) : Completed (tr ++ v) := by
  rcases h with ⟨p, d, x, hx, hs, after⟩
  refine ⟨p, d, x, List.mem_append_left _ hx, hs, after.imp_right ?_⟩
  rintro ⟨y, order, hy⟩
  exact ⟨y, order.trans (List.sublist_append_left ..), hy⟩

theorem Behind.append (h : Behind tr s) (v : List Moment) : Behind (tr ++ v) s := by
  unfold Behind at h ⊢
  split at h
  · rcases h with ⟨x, hx, hs⟩
    exact ⟨x, List.mem_append_left _ hx, hs⟩
  · rcases h with ⟨p, d, x, hx, hs⟩
    exact ⟨p, d, x, List.mem_append_left _ hx, hs⟩
  · exact Completed.append h v
  · exact Completed.append h v
  · trivial

theorem Behind.turn (h : Behind tr s) (hx : x.stage? = some s) (turn : Turn l s m s' n) :
    Behind (tr ++ [x]) s' := by
  have now : x ∈ tr ++ [x] := by simp
  cases turn
  case initDone p k d => exact ⟨x, now, hx⟩
  case publishLast p d k frozen w hp after =>
    rcases h with ⟨y, hy, hs⟩
    exact ⟨p, d, y, List.mem_append_left _ hy, hs, .inl after⟩
  case publishThen p d k frozen w after log hp ha running =>
    rcases h with ⟨y, hy, hs⟩
    exact ⟨p, d, y, List.mem_append_left _ hy, hs⟩
  case finish => exact h.append [x]
  case finishDone k =>
    rcases h with ⟨p, d, y, hy, hs⟩
    have order : [y, x].Sublist (tr ++ [x]) :=
      List.Sublist.append (List.singleton_sublist.2 hy) (List.Sublist.refl _)
    exact ⟨p, d, y, List.mem_append_left _ hy, hs, .inr ⟨x, order, hx⟩⟩
  case «seal» => exact Completed.append h [x]
  all_goals trivial

theorem Run.behind (fresh : l.Fresh) (run : Run l tr l') (hs : l'.callers[i]? = some s) :
    Behind tr s := by
  -- What lies behind a caller stays behind it, as the history only grows.
  induction run generalizing i s with
  | refl => simp [fresh.callers] at hs
  | @tail tr m n a run h ih =>
    rcases (change_of_act? h).callers hs with hm | ⟨d, -, rfl⟩ | ⟨mv, t, n', rfl, ht, turn, -⟩
    · exact (ih hm).append _
    · trivial
    · exact (ih ht).turn (x := ⟨m, .caller i mv, n⟩) ht turn

theorem Run.completed (fresh : l.Fresh) (opened : l.world.registry.state = .opened)
    (run : Run l tr l') (shut : l'.world.registry.state = .sealed) : Completed tr := by
  induction run with
  | refl =>
    rw [opened] at shut
    cases shut
  | @tail tr m n a run h ih =>
    rcases (change_of_act? h).registry with w | ⟨i, s, s', hs, -, reg⟩
    · exact (ih (w.state.symm.trans shut)).append _
    -- The registry has been sealed before, or is now, by a caller that has finished its plan.
    · rcases reg.sealed shut with before | rfl
      · exact (ih before).append _
      · exact Completed.append (run.behind fresh hs) _

theorem Run.drained_of_left (fresh : l.Fresh) (run : Run l tr l') {p : StopPass}
    (hp : Leftover.pass p ∈ l'.leftovers) : l'.Drained := by
  -- A pass is left behind by its caller, and that caller is past the drain.
  induction run generalizing p with
  | refl => simp [fresh.leftovers] at hp
  | @tail tr m n a run h ih =>
    have hc := change_of_act? h
    have before : m.Drained := by
      rcases hc.pass_left hp with ⟨q, old⟩ | ⟨i, q, pass, rfl, hs⟩
      · exact ih old
      · exact .inr ⟨i, _, hs, rfl⟩
    exact before.change (run.sound fresh) hc

/-- A stop pass only moves past the drain, also one that was left behind. -/
theorem Run.drained_before_pass (fresh : l.Fresh) (run : Run l (u ++ x :: v) l')
    (hx : x.byPass = true) : x.before.Drained := by
  have front := run.at_moment.1
  unfold Moment.byPass at hx
  split at hx
  · split at hx
    · rename_i pass hi
      exact front.drained_of_left fresh (List.mem_of_getElem? hi)
    · cases hx
  · split at hx
    · rename_i p pass hs
      rcases Moment.stage?_eq_some.1 hs with ⟨j, m, -, hi⟩
      exact .inr ⟨j, _, hi, rfl⟩
    · cases hx

theorem Gated.not_sealed (h : l.Gated) (drained : l.Drained) :
    l.world.registry.state ≠ .sealed := by
  intro shut
  -- A terminal phase wants the registry cleared; before it the driver wants it draining or open.
  rcases drained with ht | ⟨i, s, hs, past⟩
  · have cleared : l.phase.registry? = some .cleared := by
      cases hp : l.phase <;> rw [hp] at ht <;> first | rfl | cases ht
    cases shut.symm.trans (h.phases cleared)
  · have known : ∃ r, s.registry? = some r ∧ r ≠ .sealed := by
      cases s with
      | confirming p cs => exact ⟨_, rfl, by cases p <;> simp [Purpose.registry]⟩
      | stopping p pass => exact ⟨_, rfl, by cases p <;> simp [Purpose.registry]⟩
      | clearing p r => exact ⟨_, rfl, by cases p <;> simp [Purpose.registry]⟩
      | closing p r => exact ⟨_, rfl, nofun⟩
      | _ => cases past
    rcases known with ⟨r, hr, other⟩
    exact other ((h.stages hs hr).symm.trans shut)

/-- Until the registry is no longer sealed no stop pass moves. -/
theorem Run.no_pass (fresh : l.Fresh) (opened : l.world.registry.state = .opened)
    (run : Run l tr l') (shut : l'.world.registry.state = .sealed) :
    ∀ z ∈ tr, z.byPass = false := by
  intro z hz
  by_contra moves
  rcases List.append_of_mem hz with ⟨u, v, rfl⟩
  have before : z.before.Drained := run.drained_before_pass fresh (by simpa using moves)
  have after : z.after.Drained := run.at_moment.2.2.keeps_drained fresh before
  have now : l'.Drained := run.stays (fun run h => run.keeps_drained fresh h) after
  exact (run.gated fresh opened).not_sealed now shut

/-! ## Failed setups -/

/-- A registry is never opened again. -/
theorem Run.stays_closed (run : Run l (u ++ x :: v) l')
    (hx : x.before.world.registry.state ≠ .opened ∨ x.after.world.registry.state ≠ .opened) :
    l'.world.registry.state ≠ .opened := by
  have step {y : Moment} (act : y.before.act? y.action = some y.after)
      (hy : y.before.world.registry.state ≠ .opened) : y.after.world.registry.state ≠ .opened := by
    rcases (change_of_act? act).registry with w | ⟨i, s, s', -, -, reg⟩
    · exact w.state.symm ▸ hy
    · exact reg.closed hy
  have after : x.after.world.registry.state ≠ .opened := by
    rcases hx with hx | hx
    · exact step run.at_moment.2.1 hx
    · exact hx
  exact run.stays (P := fun n => n.world.registry.state ≠ .opened)
    (fun run h => step run.tail_inv.2.1 h) after

/-- A setup has failed. -/
def Failed (l : Lifecycle) : Prop :=
  l.phase = .failed ∨ ∃ (i : Nat) (s : Stage), l.callers[i]? = some s ∧ s.cleansUp = true

theorem Turn.cleansUp (h : Turn l s m s' n) (hs : s.cleansUp = true)
    (hd : ∀ p, s.drives? = some p → l.phase = p) : s'.cleansUp = true ∨ n.phase = .failed := by
  cases h
  case closeFailed => exact .inr rfl
  -- The environment is in the phase that the caller leaves, so that this is not refused.
  case closeRefused p r k report hp =>
    rw [hd p.source rfl] at hp
    exact absurd p.target_mem_next hp
  all_goals first | exact .inl rfl | exact .inl hs

theorem Failed.change (h : l.Failed) (sound : l.Sound) (hc : Change l a n) : n.Failed := by
  rcases h with hp | ⟨i, s, hs, cleansUp⟩
  · exact .inl ((sound.terminal hc (hp ▸ rfl)).1.trans hp)
  · rcases hc.goes hs with ⟨-, hn⟩ | ⟨m, s', n', -, turn, rfl, hn⟩
    · exact .inr ⟨i, s, hn, cleansUp⟩
    · rcases turn.cleansUp cleansUp fun p => sound.phase_eq hs with h | hp
      · exact .inr ⟨i, s', hn, h⟩
      · exact .inl hp

theorem Gated.not_sealed_of_failed (h : l.Gated) (failed : l.Failed) :
    l.world.registry.state ≠ .sealed := by
  intro shut
  rcases failed with hp | ⟨i, s, hs, cleansUp⟩
  · have cleared : l.world.registry.state = .cleared := h.phases (by rw [hp]; rfl)
    cases shut.symm.trans cleared
  · have known : ∃ r, s.registry? = some r ∧ r ≠ .sealed := by
      have opened {p : Purpose} (hp : p.isFailure = true) : p.registry ≠ .sealed := by
        cases p <;> exact nofun
      cases s with
      | failing f => exact ⟨_, rfl, nofun⟩
      | draining p => exact ⟨_, rfl, opened cleansUp⟩
      | confirming p cs => exact ⟨_, rfl, opened cleansUp⟩
      | stopping p pass => exact ⟨_, rfl, opened cleansUp⟩
      | clearing p r => exact ⟨_, rfl, opened cleansUp⟩
      | closing p r => exact ⟨_, rfl, nofun⟩
      | halting vs next =>
        cases next with
        | drain f => exact ⟨_, rfl, nofun⟩
        | announce p r => cases cleansUp
      | _ => cases cleansUp
    rcases known with ⟨r, hr, other⟩
    exact other ((h.stages hs hr).symm.trans shut)

theorem Run.failed (fresh : l.Fresh) (run : Run l (u ++ x :: v) l') {f : Fault}
    (hx : x.reached? = some (.failing f)) : l'.Failed := by
  -- The caller that fails is the first to know.
  refine run.stays (fun run h => ?_) ?_
  · rcases run.tail_inv with ⟨front, act, -⟩
    exact h.change (front.sound fresh) (change_of_act? act)
  · rcases Moment.reached?_eq_some.1 hx with ⟨i, m, -, hi⟩
    exact .inr ⟨i, _, hi, rfl⟩

/-- In a run whose setup fails the registry is sealed at no moment. -/
theorem Run.never_sealed (fresh : l.Fresh) (opened : l.world.registry.state = .opened)
    (run : Run l tr l') {f : Fault} (hx : x ∈ tr) (failing : x.reached? = some (.failing f))
    (hy : y ∈ tr) :
    y.before.world.registry.state ≠ .sealed ∧ y.after.world.registry.state ≠ .sealed := by
  rcases List.append_of_mem hx with ⟨u, v, rfl⟩
  have head : Run l (u ++ [x]) x.after := run.at_moment.2.2
  have earlier (hy : y ∈ u ++ [x]) :
      y.before.world.registry.state = .opened ∧ y.after.world.registry.state = .opened := by
    -- What is closed stays closed, but the registry is open when the setup fails.
    rcases Moment.reached?_eq_some.1 failing with ⟨i, m, -, hi⟩
    have now : x.after.world.registry.state = .opened := (head.gated fresh opened).stages hi rfl
    rcases List.append_of_mem hy with ⟨u₁, u₂, hu⟩
    rw [hu] at head
    constructor
    · by_contra closed
      exact head.stays_closed (.inl closed) now
    · by_contra closed
      exact head.stays_closed (.inr closed) now
  have later (hy : y ∈ v) :
      y.before.world.registry.state ≠ .sealed ∧ y.after.world.registry.state ≠ .sealed := by
    rcases List.append_of_mem hy with ⟨v₁, v₂, rfl⟩
    have cut : Run l ((u ++ x :: v₁) ++ y :: v₂) l' := by simpa using run
    have front : Run l (u ++ x :: v₁) y.before := cut.at_moment.1
    have back : Run l (u ++ x :: (v₁ ++ [y])) y.after := by simpa using cut.at_moment.2.2
    exact ⟨(front.gated fresh opened).not_sealed_of_failed (front.failed fresh failing),
      (back.gated fresh opened).not_sealed_of_failed (back.failed fresh failing)⟩
  obtain hu | rfl | hv : y ∈ u ∨ y = x ∨ y ∈ v := by simpa using hy
  · have both := earlier (by simp [hu])
    simp [both.1, both.2]
  · have both := earlier (by simp)
    simp [both.1, both.2]
  · exact later hv

/-! ## Every run -/

/-- What readers of the registry can rely on in a run that has led to a state. -/
structure GuardsReads (tr : List Moment) (l : Lifecycle) : Prop where
  /-- A read that is let through comes after a completed setup and before any stop pass moves. -/
  reads : ∀ op, l.world.registry.LetsThrough op → Completed tr ∧ ∀ z ∈ tr, z.byPass = false
  /-- If the setup fails, then no read is let through before or after any moment. -/
  failed : ∀ x ∈ tr, ∀ f, x.reached? = some (.failing f) → ∀ y ∈ tr, ∀ op,
    ¬ y.before.world.registry.LetsThrough op ∧ ¬ y.after.world.registry.LetsThrough op
  ready : l.phase = .ready → l.world.registry.state = .sealed
  terminal : l.phase = .stopped ∨ l.phase = .failed → l.world.registry = ⟨.cleared, []⟩

/-- Whatever plans store, and in whatever order callers set up and tear down: a registry that is
open at first guards its reads. -/
theorem registry_guards_reads (fresh : l.Fresh) (opened : l.world.registry.state = .opened)
    (run : Run l tr l') : GuardsReads tr l' where
  reads := by
    intro op h
    -- Whatever is read, the gate asks for a sealed registry.
    have shut : l'.world.registry.state = .sealed := h.sealed
    exact ⟨run.completed fresh opened shut, run.no_pass fresh opened shut⟩
  failed := by
    intro x hx f failing y hy op
    rcases run.never_sealed fresh opened hx failing hy with ⟨before, after⟩
    exact ⟨fun h => before h.sealed, fun h => after h.sealed⟩
  ready := by
    intro hp
    exact (run.gated fresh opened).phases (hp ▸ rfl)
  terminal := by
    intro hp
    have gated : l'.Gated := run.gated fresh opened
    have state : l'.world.registry.state = .cleared := by
      rcases hp with hp | hp
      · exact gated.phases (hp ▸ rfl)
      · exact gated.phases (hp ▸ rfl)
    have entries : l'.world.registry.entries = [] := gated.cleared state
    rcases hr : l'.world.registry with ⟨st, es⟩
    rw [hr] at state entries
    rw [← state, ← entries]

/-- A plan with a second part. -/
def Plan.checked : Plan where
  init := Plan.immediate.init
  after := some fun _ => pure ()

def checkedSetup : List Action :=
  .enter (.setup Plan.checked) :: List.replicate 9 (.caller 0 (.go 0))

theorem registry_guards_reads_of_checked :
    (create {} {} false).Fresh ∧ (create {} {} false).world.registry.state = .opened ∧
      ∃ tr l', Run (create {} {} false) tr l' ∧ l'.phase = .ready ∧
        l'.world.registry.LetsThrough .token ∧ Completed tr ∧ ∀ z ∈ tr, z.byPass = false := by
  have fresh : (create {} {} false).Fresh := fresh_create rfl rfl {} false 0
  have facts : (Run.replay? (create {} {} false) checkedSetup).map (fun r =>
      (r.2.phase, r.2.world.registry.state)) = some (.ready, .sealed) := by
    decide +kernel
  rcases Option.map_eq_some_iff.1 facts with ⟨⟨tr, l'⟩, hr, facts⟩
  simp only [Prod.mk.injEq] at facts
  rcases facts with ⟨ready, shut⟩
  have run : Run (create {} {} false) tr l' := Run.of_replay? hr
  have through : l'.world.registry.LetsThrough .token :=
    Registry.letsThrough_of_sealed rfl rfl shut
  exact ⟨fresh, rfl, tr, l', run, ready, through,
    (registry_guards_reads fresh rfl run).reads .token through⟩

end Lifecycle
end Testbed

import Mathlib.Data.List.Chain
import Testbed.Proofs.Run

/-!
# The driver of an environment

A caller drives an environment while it sets it up, stops its containers or releases it.  There is
at most one driver at any time, whatever other callers do, and the phase of the environment is the
one that the stage of its driver belongs to.
-/

namespace Testbed

/-! ## Phases -/

/-- How far along its path a phase is. -/
def Phase.rank : Phase → Nat
  | .uninitialized => 0
  | .initializing => 1
  | .ready => 2
  | .tearingDown => 3
  | .stopped | .failed => 4

theorem Phase.rank_lt_of_mem_next {p q : Phase} (h : q ∈ p.next) : p.rank < q.rank := by
  cases p <;> simp [Phase.next] at h
  case uninitialized =>
    subst h
    decide
  case initializing =>
    rcases h with rfl | rfl <;> decide
  case ready =>
    subst h
    decide
  case tearingDown =>
    subst h
    decide

/-- A phase is further along than another. -/
def Phase.Below (p q : Phase) : Prop := p.rank < q.rank

instance : Trans Phase.Below Phase.Below Phase.Below := ⟨Nat.lt_trans⟩

theorem Phase.next_eq_nil {p : Phase} (h : p.isTerminal = true) : p.next = [] := by
  cases p <;> simp_all [Phase.isTerminal, Phase.next]

/-- The phases so far are a path of the table from the first phase to the current one. -/
structure PhaseHistory.IsPath (h : PhaseHistory) : Prop where
  head : h.visited.head? = some .uninitialized
  last : h.visited.getLast? = some h.phase
  chain : h.visited.IsChain fun p q => q ∈ p.next

namespace PhaseHistory

variable {h : PhaseHistory}

theorem isPath_default : ({} : PhaseHistory).IsPath :=
  ⟨rfl, rfl, .singleton _⟩

theorem IsPath.push (hp : h.IsPath) {q : Phase} (hq : q ∈ h.phase.next) :
    IsPath ⟨q, h.visited ++ [q]⟩ where
  head := by
    simp [List.head?_append, hp.head]
  last := by simp
  chain := by
    refine List.isChain_append.2 ⟨hp.chain, .singleton _, ?_⟩
    intro p hlast q' hhead
    rw [hp.last] at hlast
    cases hlast
    cases hhead
    exact hq

/-- No phase is entered twice. -/
theorem IsPath.nodup (hp : h.IsPath) : h.visited.Nodup := by
  have sorted : h.visited.IsChain Phase.Below :=
    hp.chain.imp fun _ _ => Phase.rank_lt_of_mem_next
  refine (List.isChain_iff_pairwise.1 sorted).imp ?_
  intro p q hlt he
  rw [he] at hlt
  exact Nat.lt_irrefl _ hlt

end PhaseHistory

/-! ## Drivers -/

/-- The phase in which containers are stopped for a purpose. -/
def Purpose.source : Purpose → Phase
  | .failure _ => .initializing
  | .teardown _ => .tearingDown

theorem Purpose.target_mem_next (p : Purpose) : p.target ∈ p.source.next := by
  cases p <;> simp [target, source, Phase.next]

/-- The phase in which a runtime is shut down. -/
def Afterwards.phase : Afterwards → Phase
  | .drain _ => .initializing
  | .announce p _ => p.target

/-- The phase of an environment that a caller at this stage drives, if it drives it. -/
def Stage.drives? : Stage → Option Phase
  | .starting _ | .initializing .. | .publishing .. | .finishing _ | .sealing | .entering
  | .failing _ => some .initializing
  | .quieting _ => some .tearingDown
  | .draining p | .confirming p _ | .stopping p _ | .clearing p _ | .closing p _ => some p.source
  | .halting _ next => some next.phase
  | .releasing p _ | .disconnecting p _ _ | .announcing p _ | .answering p _ => some p.target
  | _ => none

/-- The caller has announced neither that the environment is ready nor that its setup is over. -/
def Stage.arrives : Stage → Bool
  | .announcingReady | .settling => true
  | _ => false

namespace Lifecycle

/-- At most one caller drives the environment, in the phase that its stage belongs to, and what has
been announced is true. -/
structure Sound (l : Lifecycle) : Prop where
  path : l.world.history.IsPath
  phase_eq : ∀ {i : Nat} {s : Stage} {p : Phase},
    l.callers[i]? = some s → s.drives? = some p → l.phase = p
  unique : ∀ {i j : Nat} {s t : Stage} {p q : Phase}, l.callers[i]? = some s →
    l.callers[j]? = some t → s.drives? = some p → t.drives? = some q → i = j
  arrived : ∀ {i : Nat} {s : Stage}, l.callers[i]? = some s → s.arrives = true →
    2 ≤ l.phase.rank
  settled : l.settled = true → 2 ≤ l.phase.rank
  stopped : l.stopped = true → l.phase = .stopped

theorem Fresh.phase_eq {l : Lifecycle} (h : l.Fresh) : l.phase = .uninitialized := by
  simp [phase, h.history]

theorem Fresh.sound {l : Lifecycle} (h : l.Fresh) : l.Sound where
  path := h.history ▸ PhaseHistory.isPath_default
  phase_eq := by simp [h.callers]
  unique := by simp [h.callers]
  arrived := by simp [h.callers]
  settled := by simp [h.settled]
  stopped := by simp [h.stopped]

/-! ## What a turn does to driving -/

section

variable {l l' : Lifecycle} {s s' : Stage} {m : Move}

/-- The stages between which a phase is entered. -/
inductive Enters : Stage → Stage → Phase → Prop where
  | setup (p : Plan) : Enters (.asking (.setup p)) (.starting p) .initializing
  | ready : Enters .entering .announcingReady .ready
  | teardown (strict : Bool) :
      Enters (.asking (.teardown strict)) (.quieting strict) .tearingDown
  | close (p : Purpose) (r : Except Fault TeardownReport) :
      Enters (.closing p r) (.releasing p r) p.target

/-- A turn leaves the history alone or makes a transition of the table. -/
theorem Turn.history (h : Turn l s m s' l') :
    l'.world.history = l.world.history ∨
      ∃ q ∈ l.phase.next, l'.world.history = ⟨q, l.world.history.visited ++ [q]⟩ ∧
        Enters s s' q := by
  -- Five turns make a transition; programs and passes write no history.
  cases h
  case begin p k log hp => exact .inr ⟨_, by simp [hp, Phase.next], rfl, .setup p⟩
  case enterReady k log hp => exact .inr ⟨_, hp, rfl, .ready⟩
  case tearDown strict k log hp => exact .inr ⟨_, by simp [hp, Phase.next], rfl, .teardown strict⟩
  case closeFailed f r k log hp => exact .inr ⟨_, hp, rfl, .close (.failure f) r⟩
  case closeStopped strict r k log hp => exact .inr ⟨_, hp, rfl, .close (.teardown strict) r⟩
  all_goals
    refine .inl ?_
  case init ht => exact World.next?_history ht
  case finish ht => exact World.next?_history ht
  case publishFailed hp => exact publish_history hp
  case publishLast hp _ => exact publish_history hp
  case publishThen hp _ _ =>
    have same := publish_history hp
    exact same
  case publishClosed hp _ =>
    have same := publish_history hp
    exact same
  case passGoes ht => exact StopPass.turn?_history ht
  case passEnds ht => exact StopPass.turn?_history ht
  case passSteps ht => exact StopPass.step?_history ht
  case disconnectSteps ht => exact World.next?_history ht
  case victimDies ht => exact World.next?_history ht
  case victimGoes ht => exact World.next?_history ht
  case victimCancelled ht => exact World.cancel?_history ht
  case haltedFailing => exact World.Effect.shutdown.history
  case halted => exact World.Effect.shutdown.history
  all_goals rfl

theorem phase_of_history {q : Phase} {v : List Phase} (h : l.world.history = ⟨q, v⟩) :
    l.phase = q := by
  simp [phase, h]

theorem phase_of_history_eq (h : l'.world.history = l.world.history) : l'.phase = l.phase := by
  simp [phase, h]

/-- A caller that drives goes on driving, in the phase after the turn, or stops driving. -/
theorem Turn.drives_of_some (h : Turn l s m s' l') (hs : s.drives? = some l.phase) :
    s'.drives? = none ∨ s'.drives? = some l'.phase := by
  rcases h.history with hh | ⟨q, -, hh, he⟩
  · have hp : l'.phase = l.phase := phase_of_history_eq hh
    rw [hp, ← hs]
    cases h <;> first | exact .inl rfl | exact .inr rfl | exact .inr (hs ▸ hp ▸ rfl)
  · rw [phase_of_history hh]
    cases he with
    | setup p => exact .inr rfl
    | ready => exact .inl rfl
    | teardown strict => exact .inr rfl
    | close p r => exact .inr rfl

/-- A caller that does not drive only begins to while nobody can. -/
theorem Turn.drives_of_none (h : Turn l s m s' l') (hs : s.drives? = none) :
    (s'.drives? = none ∧ l'.world.history = l.world.history) ∨
      ((l.phase = .uninitialized ∨ l.phase = .ready) ∧ s'.drives? = some l'.phase) := by
  rcases h.history with hh | ⟨q, -, hh, he⟩
  · cases h
    case begin hp => exact .inr ⟨.inl hp, rfl⟩
    case tearDown hp => exact .inr ⟨.inr hp, rfl⟩
    all_goals first | exact .inl ⟨rfl, hh⟩ | cases hs
  · rw [phase_of_history hh]
    cases he with
    | setup p =>
      cases h with
      | begin _ _ _ hp => exact .inr ⟨.inl hp, rfl⟩
    | teardown strict =>
      cases h with
      | tearDown _ _ _ hp => exact .inr ⟨.inr hp, rfl⟩
    | ready => cases hs
    | close p r => cases hs

/-- Nobody drives an environment that is not set up or is ready. -/
theorem drives?_ne {s : Stage} {p : Phase} (h : s.drives? = some p) :
    p ≠ .uninitialized ∧ p ≠ .ready := by
  have source (p : Purpose) : p.source ≠ .uninitialized ∧ p.source ≠ .ready := by
    cases p <;> simp [Purpose.source]
  have target (p : Purpose) : p.target ≠ .uninitialized ∧ p.target ≠ .ready := by
    cases p <;> simp [Purpose.target]
  have after (a : Afterwards) : a.phase ≠ .uninitialized ∧ a.phase ≠ .ready := by
    cases a with
    | drain f => simp [Afterwards.phase]
    | announce p r => exact target p
  unfold Stage.drives? at h
  split at h <;> cases h <;> first | exact source _ | exact target _ | exact after _ | simp

end

/-! ## Soundness is kept -/

section

variable {l n : Lifecycle} {a : Action}

theorem Turn.rank_le {l' : Lifecycle} {s s' : Stage} {m : Move} (h : Turn l s m s' l') :
    l.phase.rank ≤ l'.phase.rank := by
  rcases h.history with hh | ⟨q, hq, hh, -⟩
  · rw [phase_of_history_eq hh]
  · rw [phase_of_history hh]
    exact Nat.le_of_lt (Phase.rank_lt_of_mem_next hq)

theorem Change.rank_le {n : Lifecycle} {a : Action} (h : Change l a n) :
    l.phase.rank ≤ n.phase.rank := by
  rcases h.turn_or_same with ⟨i, m, s, s', n', -, -, turn, rfl⟩ | ⟨hh, -⟩
  · exact turn.rank_le
  · exact Nat.le_of_eq (congrArg Phase.rank (phase_of_history_eq hh)).symm

/-- A setup is announced to be over by a caller that has come to its end. -/
theorem Turn.settled {l' : Lifecycle} {s s' : Stage} {m : Move} (h : Turn l s m s' l')
    (hs : l'.settled = true) :
    l.settled = true ∨ s.arrives = true ∨ ∃ f r, s = .announcing (.failure f) r := by
  cases h
  case settle => exact .inr (.inl rfl)
  case announceFailure f r k => exact .inr (.inr ⟨f, r, rfl⟩)
  all_goals exact .inl hs

/-- A teardown is announced to be over by a caller that has come to its end. -/
theorem Turn.stopped {l' : Lifecycle} {s s' : Stage} {m : Move} (h : Turn l s m s' l')
    (hs : l'.stopped = true) :
    l.stopped = true ∨ ∃ strict r, s = .announcing (.teardown strict) r := by
  cases h
  case announceTeardown strict r k => exact .inr ⟨strict, r, rfl⟩
  all_goals exact .inl hs

/-- A caller comes to announce that the environment is ready after it has entered the phase. -/
theorem Turn.arrives {l' : Lifecycle} {s s' : Stage} {m : Move} (h : Turn l s m s' l')
    (hs : s'.arrives = true) :
    s.arrives = true ∨ l'.phase = .ready := by
  cases h
  case enterReady => exact .inr rfl
  case announceReady => exact .inl rfl
  all_goals cases hs

section

variable {l' : Lifecycle} {i j : Nat} {s s' t : Stage} {m : Move} {p : Phase}

/-- A caller that drives after its turn drives in the phase it has come to, and nobody else has
driven before. -/
theorem Sound.driver_turn (h : l.Sound) (hs : l.callers[i]? = some s) (turn : Turn l s m s' l')
    (hp : s'.drives? = some p) :
    l'.phase = p ∧ ∀ {j t q}, l.callers[j]? = some t → t.drives? = some q → j = i := by
  cases hd : s.drives? with
  | none =>
    rcases turn.drives_of_none hd with ⟨hn, -⟩ | ⟨begins, hn⟩
    · cases hn.symm.trans hp
    · refine ⟨Option.some.inj (hn.symm.trans hp), ?_⟩
      -- Nobody drives in a phase in which one begins to.
      intro j t q ht hq
      rw [h.phase_eq ht hq] at begins
      exact absurd begins (by simp [drives?_ne hq])
  | some r =>
    rcases turn.drives_of_some ((h.phase_eq hs hd) ▸ hd) with hn | hn
    · cases hn.symm.trans hp
    · exact ⟨Option.some.inj (hn.symm.trans hp), fun ht hq => h.unique ht hs hq hd⟩

/-- While somebody else drives, the turn of a caller does not lead to another phase. -/
theorem Sound.others_turn (h : l.Sound) (hs : l.callers[i]? = some s) (turn : Turn l s m s' l')
    (other : i ≠ j) (ht : l.callers[j]? = some t) (hp : t.drives? = some p) : l'.phase = p := by
  have phase : l.phase = p := h.phase_eq ht hp
  cases hd : s.drives? with
  | none =>
    rcases turn.drives_of_none hd with ⟨-, hh⟩ | ⟨begins, -⟩
    · exact (phase_of_history_eq hh).trans phase
    · rw [phase] at begins
      exact absurd begins (by simp [drives?_ne hp])
  | some q => exact absurd (h.unique hs ht hd hp) other

/-- A turn of a caller keeps an environment sound. -/
theorem Sound.turn (h : l.Sound) (hs : l.callers[i]? = some s) (turn : Turn l s m s' l') :
    Sound { l' with callers := l.callers.set i s' } where
  path := by
    rcases turn.history with hh | ⟨q, hq, hh, -⟩
    · exact hh ▸ h.path
    · exact hh ▸ h.path.push hq
  phase_eq := by
    intro j t p ht hp
    rcases getElem?_set_cases ht with ⟨rfl, rfl⟩ | ⟨other, ht⟩
    · exact (h.driver_turn hs turn hp).1
    · show l'.phase = p
      exact h.others_turn hs turn (Ne.symm other) ht hp
  -- Of two drivers at most one has moved.
  unique := by
    intro j k t u p q ht hu hp hq
    rcases getElem?_set_cases ht with ⟨rfl, rfl⟩ | ⟨-, ht'⟩
    · rcases getElem?_set_cases hu with ⟨rfl, rfl⟩ | ⟨-, hu'⟩
      · rfl
      · exact ((h.driver_turn hs turn hp).2 hu' hq).symm
    · rcases getElem?_set_cases hu with ⟨rfl, rfl⟩ | ⟨-, hu'⟩
      · exact (h.driver_turn hs turn hq).2 ht' hp
      · exact h.unique ht' hu' hp hq
  arrived := by
    intro j t ht ha
    rcases getElem?_set_cases ht with ⟨rfl, rfl⟩ | ⟨-, ht⟩
    · rcases turn.arrives ha with hb | hb
      · exact Nat.le_trans (h.arrived hs hb) turn.rank_le
      · exact hb ▸ Nat.le_refl 2
    · exact Nat.le_trans (h.arrived ht ha) turn.rank_le
  settled := by
    intro hset
    refine Nat.le_trans ?_ turn.rank_le
    rcases turn.settled hset with hb | hb | ⟨f, r, rfl⟩
    · exact h.settled hb
    · exact h.arrived hs hb
    · rw [h.phase_eq hs rfl]
      exact show 2 ≤ Phase.failed.rank by decide
  stopped := by
    intro hstop
    have hl : l.phase = .stopped := by
      rcases turn.stopped hstop with hb | ⟨strict, r, rfl⟩
      · exact h.stopped hb
      · exact h.phase_eq hs rfl
    rcases turn.history with hh | ⟨q, hq, -, -⟩
    · exact (phase_of_history_eq hh).trans hl
    · rw [hl] at hq
      cases hq

end

/-- A change that leaves callers, phases and announcements alone keeps an environment sound. -/
theorem Sound.of_eq (h : l.Sound) (hc : n.callers = l.callers)
    (hh : n.world.history = l.world.history) (hs : n.settled = l.settled)
    (ht : n.stopped = l.stopped) : n.Sound := by
  have hp : n.phase = l.phase := phase_of_history_eq hh
  exact
    { path := hh ▸ h.path
      phase_eq := by
        rw [hc, hp]
        exact h.phase_eq
      unique := by
        rw [hc]
        exact h.unique
      arrived := by
        rw [hc, hp]
        exact h.arrived
      settled := by
        rw [hs, hp]
        exact h.settled
      stopped := by
        rw [ht, hp]
        exact h.stopped }

/-- A new caller keeps an environment sound. -/
theorem Sound.enter (h : l.Sound) (d : Demand) :
    Sound { l with callers := l.callers ++ [.asking d] } where
  path := h.path
  phase_eq := by
    intro j t p ht hp
    rcases getElem?_append_singleton_cases ht with ht | rfl
    · exact h.phase_eq ht hp
    · cases hp
  unique := by
    intro j k t u p q ht hu hp hq
    rcases getElem?_append_singleton_cases ht with ht | rfl
    · rcases getElem?_append_singleton_cases hu with hu | rfl
      · exact h.unique ht hu hp hq
      · cases hq
    · cases hp
  arrived := by
    intro j t ht ha
    rcases getElem?_append_singleton_cases ht with ht | rfl
    · exact h.arrived ht ha
    · cases ha
  settled := h.settled
  stopped := h.stopped

/-- Every action keeps an environment sound. -/
theorem Sound.change (h : l.Sound) (hc : Change l a n) : n.Sound := by
  cases hc with
  | enter d => exact h.enter d
  | caller i hs turn => exact h.turn hs turn
  | work i k hi ht => exact h.of_eq rfl (World.next?_history ht) rfl rfl
  | passGoes i k hi ht => exact h.of_eq rfl (StopPass.turn?_history ht) rfl rfl
  | passEnds i k hi ht => exact h.of_eq rfl (StopPass.turn?_history ht) rfl rfl
  | passSteps i k hi idle ht => exact h.of_eq rfl (StopPass.step?_history ht) rfl rfl
  | refuse k => exact h.of_eq rfl rfl rfl rfl
  | gate isOpen => exact h.of_eq rfl rfl rfl rfl

/-- A terminal phase and the report stay as they are. -/
theorem Sound.terminal (h : l.Sound) {n : Lifecycle} {a : Action} (hc : Change l a n)
    (ht : l.phase.isTerminal = true) : n.phase = l.phase ∧ n.report = l.report := by
  rcases hc.turn_or_same with ⟨i, m, s, s', n', -, hs, turn, rfl⟩ | ⟨hh, hr⟩
  · have source {p : Purpose} (hd : s.drives? = some p.source) : False := by
      rw [h.phase_eq hs hd] at ht
      cases p <;> cases ht
    refine ⟨?_, ?_⟩
    · rcases turn.history with hh | ⟨q, hq, -, -⟩
      · exact phase_of_history_eq hh
      · rw [Phase.next_eq_nil ht] at hq
        cases hq
    · cases turn
      case clearFailure f r k log => exact (source (p := .failure f) rfl).elim
      case closeStopped strict r k log hp => exact (source (p := .teardown strict) rfl).elim
      case closeRefused p r k report hp => exact (source (p := p) rfl).elim
      all_goals rfl
  · exact ⟨phase_of_history_eq hh, hr⟩

/-- Every state of a run is sound. -/
theorem Run.sound {l' : Lifecycle} {tr : List Moment} (fresh : l.Fresh) (run : Run l tr l') :
    l'.Sound := by
  induction run with
  | refl => exact fresh.sound
  | tail _ h ih => exact ih.change (change_of_act? h)

end

end Lifecycle
end Testbed

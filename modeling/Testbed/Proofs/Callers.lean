import Testbed.Proofs.Driver

/-!
# Concurrent callers

What any number of callers that set up, tear down and await one environment can rely on, whatever
the order of their steps is: `Orderly` collects it and `callers_are_orderly` shows that every run
is orderly.
-/

namespace Testbed

/-- Why and with which outcome containers have been stopped before a runtime is shut down. -/
def Afterwards.closed? : Afterwards → Option (Purpose × Except Fault TeardownReport)
  | .drain _ => none
  | .announce p r => some (p, r)

namespace Lifecycle

/-! ## What happens at a moment -/

namespace Moment

/-- A caller asks for a setup and is the first one to do so. -/
def takesUp (x : Moment) : Bool :=
  match x.stage? with
  | some (.asking (.setup _)) => x.before.phase == .uninitialized
  | _ => false

/-- The first part of a plan is handed to the runtime. -/
def startsPlan (x : Moment) : Bool :=
  match x.stage?, x.reached? with
  | some (.starting _), some (.initializing ..) => true
  | _, _ => false

/-- The stop pass of a teardown is handed to the runtime. -/
def startsTeardownPass (x : Moment) : Bool :=
  match x.stage?, x.reached? with
  | some (.confirming (.teardown _) _), some (.stopping ..) => true
  | _, _ => false

/-- The phase that the caller that moves tries to enter. -/
def target? (x : Moment) : Option Phase :=
  match x.stage? with
  | some (.asking (.setup _)) =>
    if x.before.phase = .uninitialized then some .initializing else none
  | some (.asking (.teardown _)) => if x.before.phase = .ready then some .tearingDown else none
  | some .entering => some .ready
  | some (.closing p _) => some p.target
  | _ => none

/-- The i-th caller asks for a teardown and sees that the environment has been set up, or is. -/
def AsksTeardown (x : Moment) (i : Nat) : Prop :=
  ∃ m strict, x.action = .caller i m ∧ x.before.callers[i]? = some (.asking (.teardown strict)) ∧
    x.before.phase ≠ .uninitialized

end Moment

/-- What callers can rely on in a run that has led to a state. -/
structure Orderly (tr : List Moment) (l : Lifecycle) : Prop where
  /-- The phases so far are a path of the table from the first phase to the current one. -/
  path : l.world.history.IsPath
  /-- No phase is entered twice. -/
  nodup : l.world.history.visited.Nodup
  /-- No transition is ever refused. -/
  transitions : ∀ x ∈ tr, ∀ q, x.target? = some q → ∃ n, x.before.transition q = .ok n
  /-- One setup is taken up. -/
  one_setup : tr.countP Moment.takesUp ≤ 1
  /-- Every other setup is told that it is too late and changes nothing. -/
  other_setups : ∀ x ∈ tr, ∀ p, x.stage? = some (.asking (.setup p)) → x.takesUp = false →
    x.reached? = some (.finished (.error (alreadyInitialized x.before.phase))) ∧
      x.after = { x.before with callers := x.after.callers }
  /-- The plan of a setup is started once. -/
  one_plan : tr.countP Moment.startsPlan ≤ 1
  /-- The stop pass of a teardown is started once. -/
  one_pass : tr.countP Moment.startsTeardownPass ≤ 1
  /-- A teardown that saw more than a new environment comes back in a terminal phase. -/
  teardown_terminal : ∀ x ∈ tr, ∀ (i : Nat) (r : Except Fault Result), x.AsksTeardown i →
    l.callers[i]? = some (.finished r) → l.phase.isTerminal = true
  /-- All such teardowns that are not answered with an error are answered with one report. -/
  same_report : ∀ x ∈ tr, ∀ y ∈ tr, ∀ (i j : Nat) (a b : Result), x.AsksTeardown i →
    y.AsksTeardown j →
    l.callers[i]? = some (.finished (.ok a)) → l.callers[j]? = some (.finished (.ok b)) →
      ∃ r, a = .report r ∧ b = .report r
  /-- Who is told that the environment is ready was waiting when it was. -/
  ready : ∀ i : Nat, l.callers[i]? = some (.finished (.ok (.flag true))) →
    ∃ x ∈ tr, x.before.phase = .ready ∧
      ∃ s, x.before.callers[i]? = some s ∧ ∀ r, s ≠ Stage.finished r

/-! ## Moments of a run -/

section

variable {l l' : Lifecycle} {tr : List Moment} {x : Moment}

/-- A group of stages of the driver that is entered in an earlier phase is left once. -/
theorem Run.leaves_once {event : Moment → Bool} (group : Stage → Bool) (p : Phase)
    (fresh : l.Fresh) (run : Run l tr l')
    (drives : ∀ s, group s = true → s.drives? = some p)
    (leaves : ∀ x, event x = true → ∃ s s', x.stage? = some s ∧ x.reached? = some s' ∧
      group s = true ∧ group s' = false)
    (enters : ∀ {l n : Lifecycle} {s s' : Stage} {m : Move}, Turn l s m s' n → group s' = true →
      group s = true ∨ l.phase.rank < p.rank) : tr.countP event ≤ 1 := by
  refine (run.countP_le_one (fun (n : Lifecycle) => p.rank ≤ n.phase.rank ∧
    ∀ (j : Nat) (t : Stage), n.callers[j]? = some t → group t = false) ?_ ?_ ?_).1
  · -- Once the group has been left, its phase has come, so that nobody enters the group again.
    intro tr x hx he
    rcases leaves x he with ⟨s, s', hs, hr, hg, hg'⟩
    rcases hx.tail_inv with ⟨run, hact, -⟩
    have sound := run.sound fresh
    rcases x.turn hact hs with ⟨i, m, t, n, ha, hi, turn, hn, ht⟩
    have hst : t = s' := Option.some.inj (ht.symm.trans hr)
    subst hst
    refine ⟨?_, ?_⟩
    · rw [hn]
      exact sound.phase_eq hi (drives s hg) ▸ turn.rank_le
    · intro j u hu
      rw [hn] at hu
      rcases getElem?_set_cases hu with ⟨rfl, rfl⟩ | ⟨hne, hu⟩
      · exact hg'
      · by_contra hu'
        have hd := drives u (by simpa using hu')
        exact hne (sound.unique hu hi hd (drives s hg))
  · intro tr x hx hc
    by_contra he
    rcases leaves x (by simpa using he) with ⟨s, s', hs, -, hg, -⟩
    rcases x.turn hx.tail_inv.2.1 hs with ⟨i, m, t, n, -, hi, -⟩
    rw [hc.2 i s hi] at hg
    cases hg
  · intro tr x hx hc
    have hch := change_of_act? hx.tail_inv.2.1
    refine ⟨Nat.le_trans hc.1 hch.rank_le, ?_⟩
    intro j t ht
    rcases hch.callers ht with ht | ⟨d, -, rfl⟩ | ⟨m, s, n, -, hs, turn, -⟩
    · exact hc.2 j t ht
    · by_contra hg
      cases drives _ (by simpa using hg)
    · by_contra hg
      rcases enters turn (by simpa using hg) with hg | hlt
      · rw [hc.2 j s hs] at hg
        cases hg
      · exact absurd hc.1 (Nat.not_le.2 hlt)

/-! ## Transitions -/

/-- A transition of the table succeeds. -/
theorem transition_ok {q : Phase} (h : q ∈ l.phase.next) : ∃ n, l.transition q = .ok n := by
  rw [transition_eq, if_pos h]
  exact ⟨_, rfl⟩

/-- In a sound environment no transition is refused. -/
theorem Sound.transition_ok (h : x.before.Sound) {q : Phase} (hq : x.target? = some q) :
    ∃ n, x.before.transition q = .ok n := by
  refine Lifecycle.transition_ok ?_
  have driver {s : Stage} {p : Phase} (hs : x.stage? = some s) (hp : s.drives? = some p) :
      x.before.phase = p := by
    rcases Moment.stage?_eq_some.1 hs with ⟨i, m, -, hi⟩
    exact h.phase_eq hi hp
  -- A demand looks at the phase itself; a driver is in the phase that its stage says.
  unfold Moment.target? at hq
  split at hq
  · split at hq
    · rename_i hp
      cases hq
      simp [hp, Phase.next]
    · cases hq
  · split at hq
    · rename_i hp
      cases hq
      simp [hp, Phase.next]
    · cases hq
  · rename_i hs
    cases hq
    rw [driver hs rfl]
    simp [Phase.next]
  · rename_i p _ hs
    cases hq
    rw [driver hs rfl]
    exact p.target_mem_next
  · cases hq

/-! ## What happens once -/

/-- One setup is taken up: it leaves the first phase for good. -/
theorem Run.takesUp_once (run : Run l tr l') : tr.countP Moment.takesUp ≤ 1 := by
  refine (run.countP_le_one (fun (n : Lifecycle) => 0 < n.phase.rank) ?_ ?_ ?_).1
  · intro tr x hx he
    unfold Moment.takesUp at he
    split at he
    · rename_i p hs
      rcases x.turn hx.tail_inv.2.1 hs with ⟨i, m, s', n, ha, hi, turn, hn, -⟩
      have hp : x.before.phase = .uninitialized := by simpa using he
      rw [hn]
      cases turn with
      | begin => exact Nat.zero_lt_one
      | tooLate _ _ hne => exact absurd hp hne
    · cases he
  · intro tr x hx hc
    by_contra he
    unfold Moment.takesUp at he
    split at he
    · have hp : x.before.phase = .uninitialized := by simpa using he
      rw [hp] at hc
      exact Nat.lt_irrefl _ hc
    · exact he rfl
  · intro tr x hx hc
    exact Nat.lt_of_lt_of_le hc (change_of_act? hx.tail_inv.2.1).rank_le

/-- The plan of a setup is started once. -/
theorem Run.startsPlan_once (fresh : l.Fresh) (run : Run l tr l') :
    tr.countP Moment.startsPlan ≤ 1 := by
  let group : Stage → Bool
    | .starting _ => true
    | _ => false
  refine run.leaves_once group .initializing fresh ?_ ?_ ?_
  · intro s hs
    unfold group at hs
    split at hs
    · rfl
    · cases hs
  · intro x hx
    unfold Moment.startsPlan at hx
    split at hx
    · rename_i hs hr
      exact ⟨_, _, hs, hr, rfl, rfl⟩
    · cases hx
  · intro l n s s' m turn hs
    cases turn
    case begin hp =>
      rw [hp]
      exact .inr Nat.zero_lt_one
    all_goals cases hs

/-- The stop pass of a teardown is started once. -/
theorem Run.startsTeardownPass_once (fresh : l.Fresh) (run : Run l tr l') :
    tr.countP Moment.startsTeardownPass ≤ 1 := by
  let group : Stage → Bool
    | .quieting _ | .draining (.teardown _) | .confirming (.teardown _) _ => true
    | _ => false
  -- A teardown passes through these stages on its way to the pass, and enters them from a phase
  -- before.
  refine run.leaves_once group .tearingDown fresh ?_ ?_ ?_
  · intro s hs
    unfold group at hs
    split at hs <;> first | rfl | cases hs
  · intro x hx
    unfold Moment.startsTeardownPass at hx
    split at hx
    · rename_i hs hr
      exact ⟨_, _, hs, hr, rfl, rfl⟩
    · cases hx
  · intro l n s s' m turn hs
    cases turn
    case tearDown hp =>
      rw [hp]
      exact .inr (by decide)
    case quiet => exact .inl rfl
    case drain p k log =>
      cases p with
      | failure f => cases hs
      | teardown strict => exact .inl rfl
    all_goals cases hs

/-! ## How a teardown comes back -/

/-- Why and with which outcome a caller has stopped containers, once the last phase is entered. -/
def closed? : Stage → Option (Purpose × Except Fault TeardownReport)
  | .releasing p r | .disconnecting p r _ | .announcing p r | .answering p r => some (p, r)
  | .halting _ next => next.closed?
  | _ => none

/-- What is known about a caller that has asked for a teardown once the environment was set up. -/
inductive InTeardown (l : Lifecycle) : Stage → Prop where
  | asking (strict : Bool) (h : l.phase ≠ .uninitialized) :
      InTeardown l (.asking (.teardown strict))
  | awaitingSettled (strict : Bool) (h : l.phase ≠ .uninitialized) :
      InTeardown l (.awaitingSettled strict)
  | awaitingStopped : InTeardown l .awaitingStopped
  | driving {s : Stage} (h : s.drives? = some .tearingDown) : InTeardown l s
  | closed {s : Stage} {strict : Bool} {r : Except Fault TeardownReport}
      (hs : closed? s = some (.teardown strict, r)) (h : l.report = r.toOption.getD {}) :
      InTeardown l s
  | reading (h : l.phase.isTerminal = true) : InTeardown l .reading
  | finished {r : Except Fault Result} (ht : l.phase.isTerminal = true)
      (h : ∀ a, r = .ok a → a = .report l.report) : InTeardown l (.finished r)

theorem closed?_drives? {s : Stage} {p : Purpose} {r : Except Fault TeardownReport}
    (h : closed? s = some (p, r)) : s.drives? = some p.target := by
  unfold closed? at h
  split at h
  case h_5 next =>
    cases next <;> cases h
    rfl
  all_goals
    cases h
    try rfl

/-- Nothing that others do takes away what is known about a teardown. -/
theorem InTeardown.mono {n : Lifecycle} {s : Stage} (h : l.InTeardown s)
    (hr : l.phase.rank ≤ n.phase.rank)
    (ht : l.phase.isTerminal = true → n.phase = l.phase ∧ n.report = l.report)
    (hd : ∀ p, s.drives? = some p → l.phase = p) : n.InTeardown s := by
  have begun (hu : l.phase ≠ .uninitialized) : n.phase ≠ .uninitialized := by
    intro he
    rw [he] at hr
    cases hp : l.phase <;> simp_all [Phase.rank]
  cases h with
  | asking strict h => exact .asking strict (begun h)
  | awaitingSettled strict h => exact .awaitingSettled strict (begun h)
  | awaitingStopped => exact .awaitingStopped
  | driving h => exact .driving h
  | closed hs h =>
    have hp : l.phase = .stopped := hd _ (closed?_drives? hs)
    have hn := (ht (hp ▸ rfl)).2
    exact .closed hs (hn.trans h)
  | reading h => exact .reading ((ht h).1 ▸ h)
  | finished h ha =>
    rcases ht h with ⟨hp, hn⟩
    exact .finished (hp ▸ h) (hn ▸ ha)

/-- A caller that has asked for a teardown goes on with it until it is answered. -/
theorem InTeardown.turn {n : Lifecycle} {s s' : Stage} {m : Move} (h : l.InTeardown s)
    (turn : Turn l s m s' n) (sound : l.Sound) (hd : ∀ p, s.drives? = some p → l.phase = p) :
    n.InTeardown s' := by
  -- Whoever does not stop the containers itself reads the report in a phase that is the last one.
  cases h with
  | asking strict h =>
    cases turn with
    | tearDown => exact .driving rfl
    | tearDownSoon _ _ _ hp => exact .awaitingSettled strict h
    | tearDownAlong => exact .awaitingStopped
    | tearDownNothing _ _ _ hp =>
      refine .reading ?_
      rcases hp with hp | hp | hp
      · exact absurd hp h
      · exact hp ▸ rfl
      · exact hp ▸ rfl
  | awaitingSettled strict h =>
    cases turn with
    | askAgain => exact .asking strict h
  | awaitingStopped =>
    cases turn with
    | released _ hs => exact .reading (sound.stopped hs ▸ rfl)
  | driving h =>
    have hp : l.phase = .tearingDown := hd _ h
    cases turn
    case closeStopped strict r k log hm => exact .closed (r := r) rfl rfl
    case closeRefused p r k report hm =>
      have hs : p.source = .tearingDown := Option.some.inj h
      rw [hp, ← hs] at hm
      exact absurd p.target_mem_next hm
    case answerError p g k => cases p <;> cases h
    all_goals first | exact .driving h | exact .driving rfl | cases h
  | closed hs h =>
    have hp : l.phase = .stopped := hd _ (closed?_drives? hs)
    cases turn
    case answerError p g k =>
      refine .finished (hp ▸ rfl) ?_
      intro a ha
      cases ha
    case answerIncomplete r k log hk =>
      refine .finished (hp ▸ rfl) ?_
      intro a ha
      cases ha
    case answerReport strict r k log hk =>
      refine .finished (hp ▸ rfl) ?_
      intro a ha
      cases hs
      cases ha
      exact congrArg Result.report h.symm
    all_goals first | exact .closed hs h | cases hs
  | reading h =>
    cases turn with
    | read =>
      refine .finished h ?_
      intro a ha
      cases ha
      rfl
  | finished h ha => cases turn

/-- What is known about a teardown stays known. -/
theorem InTeardown.change {n : Lifecycle} {a : Action} (sound : l.Sound) (hc : Change l a n)
    {j : Nat} {s : Stage} (hs : l.callers[j]? = some s) (h : l.InTeardown s) :
    ∃ s', n.callers[j]? = some s' ∧ n.InTeardown s' := by
  have hd (p : Phase) (hp : s.drives? = some p) : l.phase = p := sound.phase_eq hs hp
  rcases hc.goes hs with ⟨-, ht⟩ | ⟨m, s', n', -, turn, rfl, ht⟩
  · exact ⟨s, ht, h.mono hc.rank_le (sound.terminal hc) hd⟩
  · have hn : InTeardown n' s' := h.turn turn sound hd
    refine ⟨s', ht, ?_⟩
    exact hn.mono (Nat.le_refl _) (fun _ => ⟨rfl, rfl⟩) fun p hp =>
      (sound.change hc).phase_eq ht hp

/-- What is known about every caller that has asked for a teardown during a run. -/
theorem Run.inTeardown (fresh : l.Fresh) (run : Run l tr l') {i : Nat} (hx : x ∈ tr)
    (asks : x.AsksTeardown i) : ∃ s, l'.callers[i]? = some s ∧ l'.InTeardown s := by
  induction run with
  | refl => cases hx
  | @tail tr m n a run h ih =>
    have sound := run.sound fresh
    rcases List.mem_append.1 hx with hx | hx
    · rcases ih hx with ⟨s, hs, hin⟩
      exact hin.change sound (change_of_act? h) hs
    · rcases List.mem_singleton.1 hx with rfl
      rcases asks with ⟨-, strict, -, hs, hp⟩
      exact InTeardown.change sound (change_of_act? h) hs (.asking strict hp)

/-! ## How a wait comes back -/

/-- Who is told that the environment is ready has just seen that it is. -/
theorem Turn.told_ready {n : Lifecycle} {s : Stage} {m : Move}
    (h : Turn l s m (.finished (.ok (.flag true))) n) :
    l.phase = .ready ∧ s = .checking := by
  generalize hr : Stage.finished (.ok (.flag true)) = s' at h
  cases h
  case check k =>
    have hb := Result.flag.inj (Except.ok.inj (Stage.finished.inj hr))
    simp only [Bool.true_eq, Bool.and_eq_true, beq_iff_eq] at hb
    exact ⟨hb.2, rfl⟩
  all_goals cases hr

theorem Run.told_ready (fresh : l.Fresh) (run : Run l tr l') {i : Nat}
    (hi : l'.callers[i]? = some (.finished (.ok (.flag true)))) :
    ∃ x ∈ tr, x.before.phase = .ready ∧ x.before.callers[i]? = some .checking := by
  induction run with
  | refl => simp [fresh.callers] at hi
  | @tail tr m n a run h ih =>
    rcases (change_of_act? h).callers hi with ht | ⟨d, -, hd⟩ | ⟨move, s, n', -, hs, turn, -⟩
    · rcases ih ht with ⟨x, hx, hp⟩
      exact ⟨x, List.mem_append_left _ hx, hp⟩
    · cases hd
    · rcases turn.told_ready with ⟨hp, rfl⟩
      exact ⟨⟨m, a, n⟩, by simp, hp, hs⟩

/-! ## Every run is orderly -/

/-- Whatever callers ask of a new environment, and in whatever order they, work that was left
behind and the surroundings move: what callers rely on holds. -/
theorem callers_are_orderly (fresh : l.Fresh) (run : Run l tr l') : Orderly tr l' where
  path := (run.sound fresh).path
  nodup := (run.sound fresh).path.nodup
  transitions := by
    intro x hx q hq
    rcases List.append_of_mem hx with ⟨u, v, rfl⟩
    exact (run.at_moment.1.sound fresh).transition_ok hq
  one_setup := run.takesUp_once
  other_setups := by
    intro x hx p hs ht
    rcases x.turn (run.act_of_mem hx) hs with ⟨i, m, s', n, ha, hi, turn, hn, hr⟩
    cases turn with
    | begin _ _ _ hp => simp [Moment.takesUp, hs, hp] at ht
    | tooLate =>
      refine ⟨hr, ?_⟩
      rw [hn]
  one_plan := run.startsPlan_once fresh
  one_pass := run.startsTeardownPass_once fresh
  teardown_terminal := by
    intro x hx i r asks hi
    rcases run.inTeardown fresh hx asks with ⟨s, hs, hin⟩
    rw [hi] at hs
    cases hs
    cases hin with
    | driving h => cases h
    | closed h => cases h
    | finished ht => exact ht
  same_report := by
    intro x hx y hy i j a b hi hj ha hb
    -- Every answer is the report that is stored at the end of the run.
    have report {x : Moment} {i : Nat} {a : Result} (hx : x ∈ tr) (asks : x.AsksTeardown i)
        (ha : l'.callers[i]? = some (.finished (.ok a))) : a = .report l'.report := by
      rcases run.inTeardown fresh hx asks with ⟨s, hs, hin⟩
      rw [ha] at hs
      cases hs
      cases hin with
      | driving h => cases h
      | closed h => cases h
      | finished _ h => exact h a rfl
    exact ⟨l'.report, report hx hi ha, report hy hj hb⟩
  ready := by
    intro i hi
    rcases run.told_ready fresh hi with ⟨x, hx, hp, hs⟩
    refine ⟨x, hx, hp, .checking, hs, ?_⟩
    intro r hr
    cases hr

end

/-- Two setups, a wait and two teardowns, all answered. -/
def fiveCallers : List Action :=
  [.enter (.setup Plan.immediate), .enter (.await true), .enter (.setup Plan.immediate)] ++
    List.replicate 7 (.caller 0 (.go 0)) ++
    [.caller 2 (.go 0), .caller 1 (.go 0), .caller 0 (.go 0), .caller 1 (.go 0),
      .caller 1 (.go 0), .enter (.teardown false), .enter (.teardown true), .caller 3 (.go 0),
      .caller 4 (.go 0)] ++
    List.replicate 15 (.caller 3 (.go 0)) ++ List.replicate 2 (.caller 4 (.go 0))

theorem callers_are_orderly_of_five :
    (create {} {} false).Fresh ∧ ∃ tr l', Run (create {} {} false) tr l' ∧ Orderly tr l' ∧
      tr.length = fiveCallers.length ∧ l'.phase = .stopped ∧ tr.countP Moment.takesUp = 1 ∧
        tr.countP Moment.startsPlan = 1 ∧ tr.countP Moment.startsTeardownPass = 1 := by
  have fresh : (create {} {} false).Fresh := fresh_create rfl rfl {} false 0
  have ran : (Run.replay? (create {} {} false) fiveCallers).isSome = true := by decide +kernel
  have run := Run.of_replay? (Option.some_get ran).symm
  refine ⟨fresh, _, _, run, callers_are_orderly fresh run, ?_⟩
  decide +kernel

end Lifecycle
end Testbed

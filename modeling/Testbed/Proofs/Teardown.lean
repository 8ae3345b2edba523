import Testbed.Proofs.FailedSetup

/-!
# What a teardown leaves behind

A teardown stops what the ledger holds and does not ask the engine for anything else.  Its report
therefore accounts for all containers of the session that still stand exactly if the ledger held
all that stood when it was drained.  `lost_container_unaccounted` is about a run in which it did
not.
-/

namespace Testbed
namespace Lifecycle

variable {l l' : Lifecycle} {s : Stage} {m : Move} {u v tr : List Moment} {x : Moment} {i : Nat}
  {p : Purpose} {strict : Bool} {id : String} {label : String × String}

/-! ## From the drain to the end -/

/-- After the drain no container is added. -/
theorem Run.within_since (fresh : l.Fresh) (run : Run l (u ++ x :: v) l')
    (ha : x.action = .caller i m) (hx : x.stage? = some (.draining p))
    (tidy : ∀ z ∈ u, z.action.Tidy) (honest : ∀ z ∈ v, z.before.world.engine.Honest)
    (calm : ∀ z ∈ v, z.givesUp = false) :
    l'.world.engine.Within x.before.world.engine := by
  induction v using List.reverseRecOn generalizing l' with
  | nil =>
    rcases run.tail_inv with ⟨front, act, rfl⟩
    have drains : x.drains = true := by simp [Moment.drains, hx]
    rcases Moment.drains_turn act drains with ⟨j, k, q, -, -, -, callers, log, he⟩
    exact .of_eq (by rw [he])
  | append_singleton v y ih =>
    have run' : Run l ((u ++ x :: v) ++ [y]) l' := by
      simpa using run
    rcases run'.tail_inv with ⟨front, act, rfl⟩
    have honest' : ∀ z ∈ v, z.before.world.engine.Honest := fun z hz => honest z (by simp [hz])
    have calm' : ∀ z ∈ v, z.givesUp = false := fun z hz => calm z (by simp [hz])
    refine Engine.Within.trans ?_ (ih front honest' calm')
    rcases front.cleanup fresh ha hx tidy honest' calm' with ⟨alone, s, hs, known⟩
    rcases (change_of_act? act).moved with ⟨c, r, hc, hr⟩ | ⟨-, holdings, registry, log, gate, hw⟩
    · rcases alone.call hc with ⟨m', t, -, ht, hct⟩
      cases hs.symm.trans ht
      exact (World.effect_of_perform hr).within (Call.cleansUp_ne_create (known.cleansUp hct))
    · exact .of_eq (by rw [hw])

/-- A teardown leaves containers where they are of which it has no capability. -/
theorem Run.holds_since (fresh : l.Fresh) (run : Run l (u ++ x :: v) l')
    (ha : x.action = .caller i m) (hx : x.stage? = some (.draining (.teardown strict)))
    (tidy : ∀ z ∈ u, z.action.Tidy) (honest : ∀ z ∈ v, z.before.world.engine.Honest)
    (calm : ∀ z ∈ v, z.givesUp = false) (h : x.before.world.engine.Holds id label)
    (hid : ∀ c ∈ x.before.world.ledger.entries, c.containerId ≠ id) :
    l'.world.engine.Holds id label := by
  induction v using List.reverseRecOn generalizing l' with
  | nil =>
    rcases run.tail_inv with ⟨front, act, rfl⟩
    have drains : x.drains = true := by simp [Moment.drains, hx]
    rcases Moment.drains_turn act drains with ⟨j, k, q, -, -, -, callers, log, he⟩
    rw [he]
    exact h
  | append_singleton v y ih =>
    have run' : Run l ((u ++ x :: v) ++ [y]) l' := by
      simpa using run
    rcases run'.tail_inv with ⟨front, act, rfl⟩
    have honest' : ∀ z ∈ v, z.before.world.engine.Honest := fun z hz => honest z (by simp [hz])
    have calm' : ∀ z ∈ v, z.givesUp = false := fun z hz => calm z (by simp [hz])
    have stood := ih front honest' calm'
    rcases front.cleanup fresh ha hx tidy honest' calm' with ⟨alone, s, hs, known⟩
    rcases (change_of_act? act).moved with ⟨c, r, hc, hr⟩ | ⟨-, holdings, registry, log, gate, hw⟩
    · -- Only the one who drained makes calls, and it removes what it was handed over.
      rcases alone.call hc with ⟨m', t, -, ht, hct⟩
      cases hs.symm.trans ht
      refine (World.effect_of_perform hr).holds stood ?_
      rintro force volumes rfl
      rcases List.mem_map.1 (known.removes hct) with ⟨c, hc, he⟩
      exact hid c (List.mem_reverse.1 hc) he
    · rw [hw]
      exact stood

/-! ## The report of a teardown -/

/-- Every container of the session that stands is in the report. -/
def Accounted (l : Lifecycle) : Prop :=
  ∀ k ∈ l.world.engine.containers, l.label ∈ k.labels → l.report.Accounts k.id

/-- Every container of the session that stands has a capability in the ledger. -/
def Recorded (l : Lifecycle) : Prop :=
  ∀ k ∈ l.world.engine.containers, l.label ∈ k.labels →
    ∃ c ∈ l.world.ledger.entries, c.containerId = k.id

/-- The report of a teardown accounts for every container of the session that still stands, exactly
if the ledger held all of them when it was drained. -/
theorem teardown_accounts_iff (fresh : l.Fresh) (run : Run l (u ++ x :: v) l')
    (hx : x.stage? = some (.draining (.teardown strict)))
    (tidy : ∀ z ∈ u ++ x :: v, z.action.Tidy)
    (honest : ∀ z ∈ u ++ x :: v, z.before.world.engine.Honest)
    (calm : ∀ z ∈ u ++ x :: v, z.givesUp = false) (ended : l'.phase = .stopped) :
    l'.Accounted ↔ x.before.Recorded := by
  have label : l'.label = x.before.label := by
    rw [Lifecycle.label, Lifecycle.label, run.session, run.at_moment.1.session]
  rcases Moment.drains_by (x := x) (by simp [Moment.drains, hx]) with ⟨i, m, q, ha, hq⟩
  have tidy' : ∀ z ∈ u, z.action.Tidy := fun z hz => tidy z (by simp [hz])
  have honest' : ∀ z ∈ v, z.before.world.engine.Honest := fun z hz => honest z (by simp [hz])
  have calm' : ∀ z ∈ v, z.givesUp = false := fun z hz => calm z (by simp [hz])
  rcases run.cleanup fresh ha hx tidy' honest' calm' with ⟨-, s, hs, known⟩
  rcases known.outcome hs (run.sound fresh) (ended ▸ rfl) with ⟨-, r, outcome, report⟩
  rcases outcome.stopped strict rfl with ⟨r', hr, stopped, own⟩
  have report := report r' hr
  constructor
  · intro accounted k hk hl
    by_contra unrecorded
    have none : ∀ c ∈ x.before.world.ledger.entries, c.containerId ≠ k.id := by
      intro c hc he
      exact unrecorded ⟨c, hc, he⟩
    -- Nothing has removed the container, but only capabilities are reported.
    obtain ⟨k', hk', hi, hl'⟩ :=
      run.holds_since fresh ha hx tidy' honest' calm' ⟨k, hk, rfl, hl⟩ none
    have known := own k'.id (report ▸ accounted k' hk' (label ▸ hl'))
    rcases List.mem_map.1 known with ⟨c, hc, he⟩
    exact none c (List.mem_reverse.1 hc) (he.trans hi)
  · intro recorded k hk hl
    rcases run.within_since fresh ha hx tidy' honest' calm' k hk with ⟨k₀, hk₀, hi, hl₀⟩
    rcases recorded k₀ hk₀ (hl₀ ▸ label ▸ hl) with ⟨c, hc, he⟩
    rw [report, ← hi, ← he]
    refine (stopped c (List.mem_reverse.2 hc)).resolve_left ?_
    exact fun lacks => lacks k hk (hi.symm.trans he.symm)

/-! ## A setup that carries on without a database -/

/-- A plan that starts a database if it can. -/
def Plan.optional : Plan where
  init := fun p => do
    let handles ← optionalDatabase p
    pure ⟨handles, .settings {}⟩

theorem optional_tidy : Plan.optional.Tidy := by
  refine Plan.tidy_of_provisions ?_ nofun
  intro v
  exact Work.gives_bind (optionalDatabase_gives v) fun hs hhs => Work.gives_pure hhs

/-- A setup in `n` steps, followed by a teardown in `k` steps. -/
def optionalDatabaseRun (n k : Nat) : List Action :=
  .enter (.setup Plan.optional) :: List.replicate n (.caller 0 (.go 0)) ++
    .enter (.teardown false) :: List.replicate k (.caller 1 (.go 0))

theorem optionalDatabaseRun_tidy {n k : Nat} (h : tr.map Moment.action = optionalDatabaseRun n k) :
    ∀ z ∈ tr, z.action.Tidy := by
  intro z hz p hp
  have mem : z.action ∈ optionalDatabaseRun n k := h ▸ List.mem_map_of_mem hz
  rw [hp] at mem
  simp only [optionalDatabaseRun, List.cons_append, List.mem_cons, List.mem_append,
    List.mem_replicate, reduceCtorEq, and_false, or_false, Action.enter.injEq,
    Demand.setup.injEq] at mem
  exact mem ▸ optional_tidy

/-- An engine that refuses to start a container and then to remove it. -/
def stubbornEngine : Engine where
  faults := [
    { call := "start", nth := some 1, fault := some (.of .engineApi "refused") },
    { call := "remove", nth := some 1, fault := some (.of .engineApi "busy") }]

/-- An engine that makes a container but answers with an error. -/
def losingEngine : Engine where
  faults := [
    { call := "containers.create", nth := some 1, fault := some (.of .engineApi "timed out"),
      after := true }]

theorem stubbornEngine_plain : stubbornEngine.Plain := by
  intro rule hrule f hf
  simp only [stubbornEngine, List.mem_cons, List.not_mem_nil, or_false] at hrule
  rcases hrule with rfl | rfl
  all_goals
    cases hf
    rfl

theorem losingEngine_plain : losingEngine.Plain := by
  intro rule hrule f hf
  rcases List.mem_singleton.1 hrule with rfl
  cases hf
  rfl

/-- A teardown that is not strict is about to drain the ledger. -/
def Moment.drainsTeardown (x : Moment) : Bool :=
  match x.stage? with
  | some (.draining (.teardown false)) => true
  | _ => false

theorem Moment.stage?_of_drainsTeardown {x : Moment} (h : x.drainsTeardown = true) :
    x.stage? = some (.draining (.teardown false)) := by
  unfold drainsTeardown at h
  split at h
  · assumption
  · cases h

/-- The setup of the first caller has succeeded. -/
def setupSucceeded (l : Lifecycle) : Bool :=
  match (l.callers[0]? : Option Stage) with
  | some (.finished (.ok .nothing)) => true
  | _ => false

theorem answer_of_setupSucceeded {l : Lifecycle} (h : l.setupSucceeded = true) :
    l.callers[0]? = some (.finished (.ok .nothing)) := by
  unfold setupSucceeded at h
  split at h
  · assumption
  · cases h

/-- A container that could not be removed is in the report, and had been recorded. -/
theorem teardown_accounts_of_stubborn_engine :
    (create { engine := stubbornEngine } {} false).Fresh ∧
      ∃ u x v l', Run (create { engine := stubbornEngine } {} false) (u ++ x :: v) l' ∧
        l'.phase = .stopped ∧ l'.world.engine.containers.length = 1 ∧ x.before.Recorded ∧
          l'.Accounted := by
  have fresh : (create { engine := stubbornEngine } {} false).Fresh :=
    fresh_create rfl rfl {} false 0
  -- The ledger is drained at moment 36.
  have facts : (Run.replay? (create { engine := stubbornEngine } {} false)
      (optionalDatabaseRun 32 21)).map (fun r => (r.2.phase, r.2.world.engine.containers.length,
        r.1.all fun z => !z.givesUp,
        r.1[36]?.map fun x => x.drainsTeardown && x.before.world.engine.containers.all fun k =>
          x.before.world.ledger.entries.any fun c => c.containerId == k.id)) =
      some (.stopped, 1, true, some true) := by
    decide +kernel
  rcases Option.map_eq_some_iff.1 facts with ⟨⟨tr, l'⟩, hr, facts⟩
  have run := Run.of_replay? hr
  have tidy := optionalDatabaseRun_tidy (Run.actions_of_replay? hr)
  have honest := run.honest stubbornEngine_plain
  simp only [Prod.mk.injEq] at facts
  rcases facts with ⟨ended, left, calm, drained⟩
  have calm : ∀ z ∈ tr, z.givesUp = false := by simpa using calm
  rcases Option.map_eq_some_iff.1 drained with ⟨x, hx, drained⟩
  rcases Bool.and_eq_true_iff.1 drained with ⟨drains, recorded⟩
  rcases List.append_of_mem (List.mem_of_getElem? hx) with ⟨u, v, rfl⟩
  have recorded : x.before.Recorded := by
    intro k hk _
    rcases List.any_eq_true.1 (List.all_eq_true.1 recorded k hk) with ⟨c, hc, he⟩
    exact ⟨c, hc, by simpa using he⟩
  have hs := Moment.stage?_of_drainsTeardown drains
  refine ⟨fresh, u, x, v, l', run, ended, left, recorded, ?_⟩
  exact (teardown_accounts_iff fresh run hs tidy honest calm ended).2 recorded

/-- A setup succeeds, although its engine has made a container that it did not hear of; the
teardown leaves this container where it is and does not report it. -/
theorem lost_container_unaccounted :
    (create { engine := losingEngine } {} false).Fresh ∧ Plan.optional.Tidy ∧
      ∃ tr l', Run (create { engine := losingEngine } {} false) tr l' ∧
        (∀ z ∈ tr, z.action.Tidy ∧ z.before.world.engine.Honest ∧ z.givesUp = false) ∧
          l'.callers[0]? = some (.finished (.ok .nothing)) ∧ l'.phase = .stopped ∧
            ¬ l'.Accounted := by
  have fresh : (create { engine := losingEngine } {} false).Fresh :=
    fresh_create rfl rfl {} false 0
  have facts : (Run.replay? (create { engine := losingEngine } {} false)
      (optionalDatabaseRun 25 15)).map (fun r => (r.2.phase, r.1.all fun z => !z.givesUp,
        r.2.setupSucceeded, r.2.world.engine.containers.any fun k => k.labels.contains r.2.label &&
          r.2.report.failures.all fun f => f.containerId != k.id)) =
      some (.stopped, true, true, true) := by
    decide +kernel
  rcases Option.map_eq_some_iff.1 facts with ⟨⟨tr, l'⟩, hr, facts⟩
  have run := Run.of_replay? hr
  have tidy := optionalDatabaseRun_tidy (Run.actions_of_replay? hr)
  simp only [Prod.mk.injEq] at facts
  rcases facts with ⟨ended, calm, answered, lost⟩
  refine ⟨fresh, optional_tidy, tr, l', run, ?_, answer_of_setupSucceeded answered, ended, ?_⟩
  · intro z hz
    have calm : z.givesUp = false := by simpa using List.all_eq_true.1 calm z hz
    exact ⟨tidy z hz, run.honest losingEngine_plain z hz, calm⟩
  · intro accounted
    rcases List.any_eq_true.1 lost with ⟨k, hk, unreported⟩
    rcases Bool.and_eq_true_iff.1 unreported with ⟨hl, none⟩
    rcases accounted k hk (by simpa using hl) with ⟨f, hf, he⟩
    have := List.all_eq_true.1 none f hf
    simp [he] at this

end Lifecycle
end Testbed

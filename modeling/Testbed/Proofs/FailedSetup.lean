import Testbed.Proofs.Callers
import Testbed.Proofs.Cleanup

/-!
# Failed setups

When a setup raises, its report accounts for every container of the session that still stands, as
long as plans are tidy and the label query of the cleanup was answered.
-/

namespace Testbed

/-- Stopping happens after a failed setup. -/
def Purpose.isFailure : Purpose → Bool
  | .failure _ => true
  | .teardown _ => false

/-- The shutdown of a runtime belongs to a failed setup. -/
def Afterwards.isFailure : Afterwards → Bool
  | .drain _ => true
  | .announce p _ => p.isFailure

/-- The caller sets up, cleans up after that, or has been told that the environment is ready. -/
def Stage.setsUp : Stage → Bool
  | .starting _ | .initializing .. | .publishing .. | .finishing _ | .sealing | .entering
  | .announcingReady | .settling | .failing _ | .finished (.ok _) => true
  | .draining p | .confirming p _ | .stopping p _ | .clearing p _ | .closing p _
  | .releasing p _ | .disconnecting p _ _ | .announcing p _ | .answering p _ => p.isFailure
  | .halting _ next => next.isFailure
  | _ => false

namespace Lifecycle

variable {l l' n : Lifecycle} {s s' : Stage} {m : Move} {tr u v w : List Moment}
  {x y z : Moment} {i : Nat}

/-! ## The caller that sets up -/

/-- The caller sets up, or its setup has raised and the environment is failed. -/
def SetsUp (l : Lifecycle) (s : Stage) : Prop :=
  s.setsUp = true ∨ (∃ f, s = .finished (.error f)) ∧ l.phase = .failed

theorem SetsUp.turn (h : s.setsUp = true) (turn : Turn l s m s' n)
    (sound : ∀ q, s.drives? = some q → l.phase = q) : n.SetsUp s' := by
  cases turn
  case enterReadyRefused hr =>
    rw [sound _ rfl] at hr
    exact absurd (by decide) hr
  case closeRefused p r k report hr =>
    rw [sound _ rfl] at hr
    exact absurd p.target_mem_next hr
  case answerError p g k =>
    cases p with
    | failure f => exact .inr ⟨⟨g, rfl⟩, sound _ rfl⟩
    | teardown strict => cases h
  case answerFailure f r k => exact .inr ⟨⟨f, rfl⟩, sound _ rfl⟩
  all_goals first | exact .inl h | exact .inl rfl

/-- A caller whose setup is taken up starts the runtime next. -/
theorem Moment.takesUp_turn (act : x.before.act? x.action = some x.after)
    (hx : x.takesUp = true) (ha : x.action = .caller i m) :
    ∃ p, x.after.callers[i]? = some (.starting p) := by
  unfold Moment.takesUp at hx
  split at hx
  · rename_i p hs
    rcases x.turn act hs with ⟨j, m', s', n', ha', hi, turn, he, hr⟩
    cases ha.symm.trans ha'
    have hn : x.after.callers[i]? = some s' := by
      rw [← hr, Moment.reached?, ha]
    cases turn with
    | begin => exact ⟨p, hn⟩
    | tooLate p k hp => exact absurd (by simpa using hx) hp
  · cases hx

/-- The caller whose setup was taken up goes on setting up. -/
theorem Run.setsUp (fresh : l.Fresh) (run : Run l (u ++ x :: v) l') (hx : x.takesUp = true)
    (ha : x.action = .caller i m) : ∃ s, l'.callers[i]? = some s ∧ l'.SetsUp s := by
  refine run.stays (P := fun l' => ∃ s, l'.callers[i]? = some s ∧ l'.SetsUp s) ?_ ?_
  · rintro tr y run' ⟨s, hs, h⟩
    rcases run'.tail_inv with ⟨front, act, -⟩
    have sound := front.sound fresh
    rcases (change_of_act? act).goes hs with ⟨-, hn⟩ | ⟨m, s', n', ha, turn, he, hn⟩
    · refine ⟨s, hn, h.imp_right fun h => ⟨h.1, ?_⟩⟩
      exact (sound.terminal (change_of_act? act) (h.2 ▸ rfl)).1.trans h.2
    · rcases h with h | ⟨⟨f, rfl⟩, -⟩
      · refine ⟨s', hn, ?_⟩
        have sets := SetsUp.turn h turn fun q => sound.phase_eq hs
        rw [he]
        exact sets
      · cases turn
  · rcases Moment.takesUp_turn run.at_moment.2.1 hx ha with ⟨p, hn⟩
    exact ⟨_, hn, .inl rfl⟩

/-! ## The cleanup of a run -/

/-- The ledger is drained by a caller. -/
theorem Moment.drains_by (h : x.drains = true) :
    ∃ i m p, x.action = .caller i m ∧ x.stage? = some (.draining p) := by
  unfold Moment.drains at h
  split at h
  · rename_i p hs
    rcases Moment.stage?_eq_some.1 hs with ⟨i, m, ha, -⟩
    exact ⟨i, m, p, ha, hs⟩
  · cases h

/-- Before a pass moves the ledger has been drained. -/
theorem Run.drains_before_pass {p : Purpose} {pass : StopPass} (fresh : l.Fresh)
    (run : Run l (w ++ z :: v) l') (hz : z.stage? = some (.stopping p pass)) :
    ∃ u x v', w = u ++ x :: v' ∧ x.drains = true := by
  rcases z.turn run.at_moment.2.1 hz with ⟨i, m, s', n, -, hi, -⟩
  rcases run.at_moment.1.drains_of_past fresh hi rfl with ⟨x, hx, hd⟩
  rcases List.append_of_mem hx with ⟨u, v', rfl⟩
  exact ⟨u, x, v', rfl, hd⟩

/-- Once the last phase is entered, the report is what the caller knows. -/
theorem Cleanup.outcome {p : Purpose} {cs : List Capability} {listed : Prop}
    (h : Cleanup l p cs listed s) (hs : l.callers[i]? = some s) (sound : l.Sound)
    (ht : l.phase.isTerminal = true) :
    l.phase = p.target ∧ ∃ r, Outcome l p cs listed r ∧ ∀ r', r = .ok r' → l.report = r' := by
  have early {q : Purpose} (hq : s.drives? = some q.source) : False := by
    rw [sound.phase_eq hs hq, q.source_not_terminal] at ht
    cases ht
  cases h with
  | ended h hr hp hw => exact ⟨hp, _, h, hr⟩
  | _ => exact (early rfl).elim

/-- What holds of a run in which a setup has raised. -/
structure CleansUp (tr : List Moment) (l : Lifecycle) : Prop where
  /-- Every container of the session that still stands is in the report. -/
  accounted : ∀ k ∈ l.world.engine.containers, l.label ∈ k.labels → l.report.Accounts k.id
  /-- The sweep leaves containers alone of which a capability has been recorded. -/
  unrecorded : ∀ y z, [y, z].Sublist tr → ∀ c ∈ y.after.world.ledger.entries,
    ¬ z.Sweeps c.containerId

/-- Of two moments the first lies before the second. -/
theorem append_of_sublist (h : [y, z].Sublist tr) : ∃ u v, tr = u ++ z :: v ∧ y ∈ u := by
  rcases sublist_pair.1 h with ⟨u, v, w, rfl⟩
  exact ⟨u ++ y :: v, w, by simp, by simp⟩

theorem Run.sweeps_unrecorded (fresh : l.Fresh) (run : Run l tr l')
    (tidy : ∀ x ∈ tr, x.action.Tidy) (honest : ∀ x ∈ tr, x.before.world.engine.Honest)
    (calm : ∀ x ∈ tr, x.givesUp = false) (order : [y, z].Sublist tr) {c : Capability}
    (hc : c ∈ y.after.world.ledger.entries) : ¬ z.Sweeps c.containerId := by
  rintro ⟨p, cs, sweep, rs, ids, ts, force, volumes, hz, hcall⟩
  rcases append_of_sublist order with ⟨w, w', rfl, hy⟩
  rcases run.drains_before_pass fresh hz with ⟨u, x, v, rfl, hd⟩
  rcases Moment.drains_by hd with ⟨i, m, q, ha, hx⟩
  -- At each moment after the drain the caller that drained cleans up on its own.
  have cleanup (v₁ v₂ : List Moment) {l₁ : Lifecycle} (run₁ : Run l (u ++ x :: v₁) l₁)
      (hv : v = v₁ ++ v₂) := run₁.cleanup fresh ha hx (fun a h => tidy a (by simp [h]))
        (fun a h => honest a (by simp [hv, h])) fun a h => calm a (by simp [hv, h])
  have front := run.at_moment.1
  rcases cleanup v [] front (List.append_nil v).symm with ⟨alone, s, hs, known⟩
  have member : c ∈ x.before.world.ledger.entries := by
    obtain hy | rfl | hy : y ∈ u ∨ y = x ∨ y ∈ v := by simpa using hy
    · rcases List.append_of_mem hy with ⟨u₁, u₂, rfl⟩
      have before := front.drains_only fresh hd
      exact front.at_moment.1.recorded (fun a h => before a (by simp [h])) hc
    · rcases cleanup [] v front.at_moment.2.2 rfl with ⟨alone, -⟩
      rw [alone.ledger] at hc
      cases hc
    · rcases List.append_of_mem hy with ⟨v₁, v₂, rfl⟩
      have front' : Run l ((u ++ x :: v₁) ++ y :: v₂) z.before := by
        simpa using front
      have run₁ : Run l (u ++ x :: (v₁ ++ [y])) y.after := by
        simpa using front'.at_moment.2.2
      rcases cleanup (v₁ ++ [y]) v₂ run₁ (by simp) with ⟨alone, -⟩
      rw [alone.ledger] at hc
      cases hc
  rcases alone.call hcall with ⟨m', t, ha', ht, hct⟩
  cases ht.symm.trans ((Moment.stage?_caller ha').symm.trans hz)
  cases hs.symm.trans ht
  refine known.sweeps hct ?_
  exact List.mem_map_of_mem (List.mem_reverse.2 member)

/-- When a setup raises, whatever its plan does with the containers that it starts and whatever the
engine answers, the report accounts for every container of the session that still stands, and the
sweep has left alone what was recorded. -/
theorem failed_setup_cleans_up (fresh : l.Fresh) (run : Run l tr l')
    (tidy : ∀ x ∈ tr, x.action.Tidy) (honest : ∀ x ∈ tr, x.before.world.engine.Honest)
    (calm : ∀ x ∈ tr, x.givesUp = false) (listed : ∃ x ∈ tr, x.lists = true) {f : Fault}
    (setup : ∃ x ∈ tr, x.takesUp = true ∧ ∃ m, x.action = .caller i m)
    (raised : l'.callers[i]? = some (.finished (.error f))) : CleansUp tr l' where
  accounted := by
    intro k hk hl
    -- A setup that has raised an error leaves the environment failed, and a sweep belongs to a
    -- pass, which comes after the drain.
    have failed : l'.phase = .failed := by
      rcases setup with ⟨x, hx, ht, m, ha⟩
      rcases List.append_of_mem hx with ⟨u, v, rfl⟩
      rcases run.setsUp fresh ht ha with ⟨s, hs, h | ⟨-, h⟩⟩
      · cases raised.symm.trans hs
        cases h
      · exact h
    rcases listed with ⟨z, hz, lists⟩
    rcases Moment.lists_iff.1 lists with ⟨⟨q, pass, hs⟩, -⟩
    rcases List.append_of_mem hz with ⟨w, w', rfl⟩
    rcases run.drains_before_pass fresh hs with ⟨u, x, v, rfl, hd⟩
    rcases Moment.drains_by hd with ⟨j, m, p, ha, hx⟩
    have run' : Run l (u ++ x :: (v ++ z :: w')) l' := by
      simpa using run
    obtain ⟨-, s, hs, known⟩ := run'.cleanup fresh ha hx
      (fun a h => tidy a (by simp [h])) (fun a h => honest a (by
        rw [List.append_assoc, List.cons_append]
        exact List.mem_append_right _ (List.mem_cons_of_mem _ h)))
      fun a h => calm a (by
        rw [List.append_assoc, List.cons_append]
        exact List.mem_append_right _ (List.mem_cons_of_mem _ h))
    rcases known.outcome hs (run.sound fresh) (failed ▸ rfl) with ⟨-, r, outcome, report⟩
    rcases outcome.swept ⟨z, by simp, lists⟩ with ⟨r', hr, swept⟩
    rw [report r' hr]
    exact swept k.id ⟨k, hk, rfl, hl⟩
  unrecorded := fun y z order c hc => run.sweeps_unrecorded fresh tidy honest calm order hc

/-- Starts a database, or carries on without it. -/
def optionalDatabase (p : Provisioner) : Work (List Handle) :=
  tryCatch (List.singleton <$> p.startPostgres {}) fun _ => pure []

theorem optionalDatabase_gives (p : Provisioner) :
    (optionalDatabase p).Gives (Call.Provisions p.session) fun hs => ∀ h ∈ hs, h.Stoppable := by
  refine Work.gives_tryCatch ?_ fun _ => Work.gives_pure (by simp)
  refine Work.gives_bind (p.startPostgres_gives {}) fun h hh => Work.gives_pure ?_
  simpa [List.singleton] using hh

/-- A plan that starts one database if it can, and another. -/
def Plan.databases : Plan where
  init := fun p => do
    let first ← optionalDatabase p
    let second ← p.startPostgres {}
    pure ⟨first ++ [second], .settings {}⟩

theorem databases_tidy : Plan.databases.Tidy := by
  refine Plan.tidy_of_provisions ?_ nofun
  intro v
  refine Work.gives_bind (optionalDatabase_gives v) fun hs hhs =>
    Work.gives_bind (v.startPostgres_gives {}) fun h hh => Work.gives_pure ?_
  intro k hk
  rcases List.mem_append.1 hk with hk | hk
  · exact hhs k hk
  · rcases List.mem_singleton.1 hk with rfl
    exact hh

/-- An engine that refuses to start the first container, answers the creation of the second one
with an error although it makes it, and then fails to remove it. -/
def faultyEngine : Engine where
  faults := [
    { call := "start", nth := some 1, fault := some (.of .engineApi "refused") },
    { call := "containers.create", nth := some 2, fault := some (.of .engineApi "timed out"),
      after := true },
    { call := "remove", nth := some 2, fault := some (.of .engineApi "busy") }]

/-- A setup that fails, step by step. -/
def failingSetup : List Action :=
  .enter (.setup Plan.databases) :: List.replicate 64 (.caller 0 (.go 0))

theorem failed_setup_cleans_up_of_databases :
    (create { engine := faultyEngine } {} false).Fresh ∧
      ∃ tr l', Run (create { engine := faultyEngine } {} false) tr l' ∧ l'.phase = .failed ∧
        l'.world.engine.containers.length = 1 ∧ CleansUp tr l' := by
  have fresh : (create { engine := faultyEngine } {} false).Fresh :=
    fresh_create rfl rfl {} false 0
  -- The setup is taken up at moment 1.
  have facts : (Run.replay? (create { engine := faultyEngine } {} false) failingSetup).map
      (fun r => ((r.1[1]?.map fun x => x.takesUp),
        (r.1.any Moment.lists && r.1.all fun x => !x.givesUp),
        (r.2.phase, r.2.world.engine.containers.length), r.2.setupError?.isSome)) =
      some (some true, true, (.failed, 1), true) := by
    decide +kernel
  rcases Option.map_eq_some_iff.1 facts with ⟨⟨tr, l'⟩, hr, facts⟩
  have run := Run.of_replay? hr
  have actions := Run.actions_of_replay? hr
  simp only [Prod.mk.injEq] at facts
  rcases facts with ⟨taken, passes, ⟨failed, left⟩, ended⟩
  rcases Option.map_eq_some_iff.1 taken with ⟨x, hx, takes⟩
  rcases Bool.and_eq_true_iff.1 passes with ⟨lists, calm⟩
  have moves {y : Moment} (hy : y ∈ tr) :
      y.action = .enter (.setup Plan.databases) ∨ y.action = .caller 0 (.go 0) := by
    have mem : y.action ∈ failingSetup := actions ▸ List.mem_map_of_mem hy
    simpa [failingSetup] using mem
  have tidy : ∀ y ∈ tr, y.action.Tidy := by
    intro y hy p hp
    rcases moves hy with he | he
    · cases he.symm.trans hp
      exact databases_tidy
    · cases he.symm.trans hp
  have plain : Engine.Plain faultyEngine := by
    intro rule hrule f hf
    simp only [faultyEngine, List.mem_cons, List.not_mem_nil, or_false] at hrule
    rcases hrule with rfl | rfl | rfl
    all_goals
      cases hf
      rfl
  have setup : ∃ x ∈ tr, x.takesUp = true ∧ ∃ m, x.action = .caller 0 m := by
    refine ⟨x, List.mem_of_getElem? hx, takes, ?_⟩
    rcases moves (List.mem_of_getElem? hx) with he | he
    · simp [Moment.takesUp, Moment.stage?, he] at takes
    · exact ⟨.go 0, he⟩
  rcases Option.isSome_iff_exists.1 ended with ⟨f, raised⟩
  refine ⟨fresh, tr, l', run, failed, left, ?_⟩
  exact failed_setup_cleans_up fresh run tidy (run.honest plain) (by simpa using calm)
    (by simpa using lists) setup (setupError?_eq_some raised)

end Lifecycle
end Testbed

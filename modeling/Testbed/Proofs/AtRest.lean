import Testbed.Proofs.Access
import Testbed.Proofs.Occupancy
import Testbed.Proofs.Reraise

/-!
# An environment at rest

Whatever happens while a failed setup cleans up, it leaves the environment at rest: in its last
phase, with its registry cleared and its runtime given up, the error noted and the gate open.
`Settles` says how much of this is true at each stage of the cleanup, and `Rests` what later callers
find.
-/

namespace Testbed

/-- How far the cleanup has come while a runtime is shut down. -/
def Afterwards.progress : Afterwards → Nat
  | .drain _ => 1
  | .announce .. => 3

/-- How far the cleanup of a failed setup has come: the error has been noted (1), the registry
cleared (2), the runtime given up (3) and the gate opened (4). -/
def Stage.progress : Stage → Nat
  | .draining _ | .confirming .. | .stopping .. | .clearing .. => 1
  | .closing .. | .releasing .. => 2
  | .disconnecting .. | .announcing .. => 3
  | .halting _ next => next.progress
  | .answering .. | .finished _ => 4
  | _ => 0

/-- The caller sets up and nothing has failed yet. -/
def Stage.attempts : Stage → Bool
  | .starting _ | .initializing .. | .publishing .. | .finishing _ | .sealing | .entering
  | .announcingReady | .settling | .finished (.ok _) => true
  | _ => false

theorem Stage.progress_of_recovers? {s : Stage} {f : Fault} (h : s.recovers? = some f) :
    s = .failing f ∨ s.progress = 1 := by
  cases s with
  | failing g =>
    cases h
    exact .inl rfl
  | halting vs next =>
    cases next with
    | drain g => exact .inr rfl
    | announce p r => cases h
  | _ => first | exact .inr rfl | cases h

theorem Stage.drives?_of_cleansUp {s : Stage} (h : s.cleansUp = true) :
    ∃ p, s.drives? = some p := by
  cases s <;> first | exact ⟨_, rfl⟩ | cases h

namespace Lifecycle

variable {l l' n : Lifecycle} {a : Action} {s s' : Stage} {m : Move} {i : Nat} {f : Fault}
  {tr u v : List Moment} {x y : Moment}

/-! ## The caller that cleans up -/

/-- The caller cleans up after an error, or carries what has come of it. -/
def Mends (f : Fault) (s : Stage) : Prop :=
  s.recovers? = some f ∨ ∃ r, Carries (.failure f) r s

/-- What is true of the environment while the caller that cleans up is at a stage. -/
structure Settles (f : Fault) (l : Lifecycle) (s : Stage) : Prop where
  failure : 1 ≤ s.progress → l.failure = some f
  registry : 2 ≤ s.progress → l.world.registry = ⟨.cleared, []⟩
  held : 3 ≤ s.progress → l.held = false
  settled : 4 ≤ s.progress → l.settled = true

/-- The i-th caller is the only one that drives the environment, if anyone does. -/
def Only (i : Nat) (l : Lifecycle) : Prop :=
  ∀ {j : Nat} {s : Stage} {p : Phase}, l.callers[j]? = some s → s.drives? = some p → j = i

theorem Mends.turn (h : Mends f s) (turn : Turn l s m s' n)
    (sound : ∀ q, s.drives? = some q → l.phase = q) : Mends f s' := by
  rcases h with h | ⟨r, h⟩
  · rcases turn.recovers h with ⟨h, -⟩ | ⟨r, rfl⟩
    · exact .inl h
    · exact .inr ⟨r, .inl rfl⟩
  · exact .inr ⟨r, h.turn turn sound⟩

theorem Turn.failure (turn : Turn l s m s' n) :
    n.failure = l.failure ∧ (∀ f, s ≠ .failing f) ∨ ∃ f, s = .failing f ∧ n.failure = some f := by
  -- A failing caller notes its error, whether or not it has to shut a runtime down first.
  cases turn
  case failHalting f k log running => exact .inr ⟨f, rfl, rfl⟩
  case failDraining f k log closed => exact .inr ⟨f, rfl, rfl⟩
  all_goals
    refine .inl ⟨rfl, ?_⟩
    intro f hf
    cases hf

theorem Turn.stays_settled (turn : Turn l s m s' n) (h : l.settled = true) : n.settled = true := by
  cases turn <;> first | rfl | exact h

theorem Change.stays_cleared (hc : Change l a n) (h : l.world.registry = ⟨.cleared, []⟩) :
    n.world.registry = ⟨.cleared, []⟩ := by
  -- A registry that is not open takes no entry.
  have written {r : Registry} (w : l.world.registry.Writes r) : r = ⟨.cleared, []⟩ := by
    rcases r with ⟨state, entries⟩
    have hs : state = .cleared := w.state.trans (by rw [h])
    have he : entries = [] := (w.entries (by simp [h])).trans (by rw [h])
    rw [hs, he]
  rcases hc.registry with w | ⟨i, s, s', -, -, reg⟩
  · exact written w
  · generalize n.world.registry = r at reg
    cases reg with
    | writes w => exact written w
    | seals hr =>
      rw [h] at hr
      cases hr
    | drains strict =>
      rw [h]
      rfl
    | clears p o => rfl

theorem Carries.progress {p : Purpose} {r : Except Fault TeardownReport} (h : Carries p r s) :
    1 ≤ s.progress := by
  rcases h with h | rfl
  · cases s with
    | halting vs next => cases next <;> exact Nat.le_of_ble_eq_true rfl
    | _ => first | exact Nat.le_of_ble_eq_true rfl | cases h
  · exact Nat.le_of_ble_eq_true rfl

/-- The registry is cleared as soon as the stop pass is over. -/
theorem Turn.clears {p : Purpose} {r : Except Fault TeardownReport} (turn : Turn l s m s' n)
    (h : result? s = some (p, r)) (late : 2 ≤ s'.progress) :
    2 ≤ s.progress ∨ n.world.registry = ⟨.cleared, []⟩ := by
  cases turn
  case clearFailure => exact .inr rfl
  case clear => exact .inr rfl
  all_goals
    first
      | exact .inl (Nat.le_of_ble_eq_true rfl)
      | exact .inl late
      | cases h

/-- The runtime is given up before the engine client is closed. -/
theorem Turn.releases {p : Purpose} {r : Except Fault TeardownReport} (turn : Turn l s m s' n)
    (h : result? s = some (p, r)) (sound : ∀ q, s.drives? = some q → l.phase = q)
    (late : 3 ≤ s'.progress) : 3 ≤ s.progress ∧ n.held = l.held ∨ n.held = false := by
  -- The caller gets here by leaving the phase, and that is not refused.
  cases turn
  case closeRefused q o k report refused =>
    rw [sound q.source rfl] at refused
    exact absurd q.target_mem_next refused
  all_goals
    first
      | exact .inr rfl
      | exact .inl ⟨Nat.le_of_ble_eq_true rfl, rfl⟩
      | exact .inl ⟨late, rfl⟩
      | exact absurd late (Nat.not_le_of_lt (Nat.le_of_ble_eq_true rfl))
      | cases h

/-- The gate is opened before the answer is given. -/
theorem Turn.announces {r : Except Fault TeardownReport} (turn : Turn l s m s' n)
    (h : result? s = some (.failure f, r)) (sound : ∀ q, s.drives? = some q → l.phase = q)
    (late : 4 ≤ s'.progress) : 4 ≤ s.progress ∨ n.settled = true := by
  cases turn
  case closeRefused q o k report refused =>
    rw [sound q.source rfl] at refused
    exact absurd q.target_mem_next refused
  all_goals
    first
      | exact .inr rfl
      | exact .inl (Nat.le_of_ble_eq_true rfl)
      | exact .inl late
      | exact absurd late (Nat.not_le_of_lt (Nat.le_of_ble_eq_true rfl))
      | cases h

theorem Settles.noted (h : Settles f l s) (mends : Mends f s) (turn : Turn l s m s' n) :
    n.failure = some f := by
  -- Either the error has been noted before or it is noted now.
  rcases turn.failure with ⟨same, other⟩ | ⟨g, rfl, noted⟩
  · refine same.trans (h.failure ?_)
    rcases mends with mends | ⟨r, mends⟩
    · rcases Stage.progress_of_recovers? mends with rfl | he
      · exact absurd rfl (other f)
      · exact Nat.le_of_eq he.symm
    · exact mends.progress
  · rcases mends with mends | ⟨r, mends | mends⟩ <;> cases mends
    exact noted

/-- A caller that cleans up moves on and brings the environment closer to rest. -/
theorem Settles.turn (h : Settles f l s) (mends : Mends f s) (hs : l.callers[i]? = some s)
    (turn : Turn l s m s' n) (sound : l.Sound) : Settles f n s' := by
  have drives (q : Phase) (hq : s.drives? = some q) : l.phase = q := sound.phase_eq hs hq
  have noted : n.failure = some f := h.noted mends turn
  rcases mends with cleaning | ⟨r, carrying | rfl⟩
  · -- Until the stop pass is over nothing but the error is promised.
    have early : s'.progress ≤ 1 := by
      rcases turn.recovers cleaning with ⟨cleaning', -⟩ | ⟨r, rfl⟩
      · rcases Stage.progress_of_recovers? cleaning' with rfl | he
        · exact Nat.zero_le 1
        · exact Nat.le_of_eq he
      · exact Nat.le_refl 1
    exact ⟨fun _ => noted, fun late => by omega, fun late => by omega, fun late => by omega⟩
  · refine ⟨fun _ => noted, ?_, ?_, ?_⟩
    · intro late
      rcases turn.clears carrying late with before | cleared
      · exact (Change.caller i hs turn).stays_cleared (h.registry before)
      · exact cleared
    · intro late
      rcases turn.releases carrying drives late with ⟨before, same⟩ | released
      · exact same.trans (h.held before)
      · exact released
    · intro late
      rcases turn.announces carrying drives late with before | announced
      · exact turn.stays_settled (h.settled before)
      · exact announced
  · cases turn

/-! ## Everybody else -/

theorem Turn.bystands (turn : Turn l s m s' n) (hs : s.drives? = none) :
    n.failure = l.failure ∧ n.held = l.held := by
  cases turn <;> first | exact ⟨rfl, rfl⟩ | cases hs

/-- While one caller is the only one that drives, the others leave to it what its cleanup
promises. -/
theorem Settles.others (h : Settles f l s) (only : Only i l) (hc : Change l a n)
    (other : ∀ m, a ≠ .caller i m) : Settles f n s := by
  -- Whoever else moves does not drive.
  have kept : n.failure = l.failure ∧ n.held = l.held ∧ (l.settled = true → n.settled = true) := by
    cases hc with
    | @caller j m t t' n ht turn =>
      have idle : t.drives? = none := by
        cases hd : t.drives? with
        | none => rfl
        | some q =>
          rcases only ht hd with rfl
          exact absurd rfl (other m)
      rcases turn.bystands idle with ⟨failure, held⟩
      exact ⟨failure, held, turn.stays_settled⟩
    | _ => exact ⟨rfl, rfl, id⟩
  rcases kept with ⟨failure, held, settled⟩
  exact ⟨fun hp => failure.trans (h.failure hp), fun hp => hc.stays_cleared (h.registry hp),
    fun hp => held.trans (h.held hp), fun hp => settled (h.settled hp)⟩

theorem Only.change (only : Only i l) (hc : Change l a n)
    (late : l.phase ≠ .uninitialized ∧ l.phase ≠ .ready) : Only i n := by
  -- A setup begins in the first phase and a teardown in the ready one.
  intro j t q ht hq
  rcases hc.callers ht with ht | ⟨d, -, rfl⟩ | ⟨m, s, n', -, hs, turn, -⟩
  · exact only ht hq
  · cases hq
  · cases hd : s.drives? with
    | some p => exact only hs hd
    | none =>
      rcases turn.drives_of_none hd with ⟨hn, -⟩ | ⟨hp, -⟩
      · rw [hn] at hq
        cases hq
      · exact absurd hp (by simp [late])

/-! ## Runs -/

/-- The setup of the i-th caller fails with an error. -/
def Moment.FailsWith (i : Nat) (f : Fault) (x : Moment) : Prop :=
  (∃ m, x.action = .caller i m) ∧ x.reached? = some (.failing f)

theorem Failed.late (h : l.Failed) (sound : l.Sound) :
    l.phase ≠ .uninitialized ∧ l.phase ≠ .ready := by
  rcases h with hp | ⟨i, s, hs, cleansUp⟩
  · simp [hp]
  · rcases Stage.drives?_of_cleansUp cleansUp with ⟨q, hq⟩
    rw [sound.phase_eq hs hq]
    exact drives?_ne hq

/-- From its failure on, a caller brings the environment to rest on its own. -/
theorem Run.settles (fresh : l.Fresh) (run : Run l (u ++ x :: v) l') (hx : x.FailsWith i f) :
    Only i l' ∧ ∃ s, l'.callers[i]? = some s ∧ Mends f s ∧ Settles f l' s := by
  rcases hx with ⟨⟨m, ha⟩, hx⟩
  -- That no one else drives is part of the invariant: it is what the others need.
  refine run.since (P := fun _ n => Only i n ∧
    ∃ s, n.callers[i]? = some s ∧ Mends f s ∧ Settles f n s) ?_ ?_
  · intro _ _
    have now : x.after.callers[i]? = some (.failing f) := (Moment.reached?_caller ha).symm.trans hx
    have sound : x.after.Sound := run.at_moment.2.2.sound fresh
    refine ⟨fun ht hq => sound.unique ht now hq rfl, _, now, .inl rfl, ?_⟩
    exact ⟨nofun, nofun, nofun, nofun⟩
  · rintro w y front act ⟨only, s, hs, mends, settles⟩
    have hc : Change y.before y.action y.after := change_of_act? act
    have sound : y.before.Sound := front.sound fresh
    have late := (front.failed fresh hx).late sound
    refine ⟨only.change hc late, ?_⟩
    rcases hc.goes hs with ⟨other, hn⟩ | ⟨m', s', n', -, turn, he, hn⟩
    · exact ⟨s, hn, mends, settles.others only hc other⟩
    · refine ⟨s', hn, mends.turn turn fun q => sound.phase_eq hs, ?_⟩
      have settles' : Settles f n' s' := settles.turn mends hs turn sound
      rw [he]
      exact ⟨settles'.failure, settles'.registry, settles'.held, settles'.settled⟩

/-- A caller that sets up goes on doing so until its setup fails. -/
theorem Turn.attempts (turn : Turn l s m s' n) (hs : s.attempts = true)
    (sound : ∀ q, s.drives? = some q → l.phase = q) :
    s'.attempts = true ∨ ∃ f, s' = .failing f := by
  cases turn
  case enterReadyRefused k refused =>
    rw [sound _ rfl] at refused
    exact absurd (by decide) refused
  all_goals first | exact .inl rfl | exact .inr ⟨_, rfl⟩ | cases hs

theorem Run.attempts (fresh : l.Fresh) (run : Run l (u ++ x :: v) l') (hx : x.takesUp = true)
    (ha : x.action = .caller i m) :
    (∃ s, l'.callers[i]? = some s ∧ s.attempts = true) ∨ ∃ y ∈ v, ∃ f, y.FailsWith i f := by
  -- By induction from the moment at which the setup is taken up.
  refine run.since (P := fun v n =>
    (∃ s, n.callers[i]? = some s ∧ s.attempts = true) ∨ ∃ y ∈ v, ∃ f, y.FailsWith i f) ?_ ?_
  · intro _ act
    rcases Moment.takesUp_turn act hx ha with ⟨p, hn⟩
    exact .inl ⟨_, hn, rfl⟩
  · rintro w y front act (⟨s, hs, attempts⟩ | ⟨z, hz, fails⟩)
    · rcases (change_of_act? act).goes hs with ⟨-, hn⟩ | ⟨m', s', n', hy, turn, -, hn⟩
      · exact .inl ⟨s, hn, attempts⟩
      · rcases turn.attempts attempts fun q => (front.sound fresh).phase_eq hs with h | ⟨f, rfl⟩
        · exact .inl ⟨s', hn, h⟩
        · exact .inr ⟨y, by simp, f, ⟨m', hy⟩, (Moment.reached?_caller hy).trans hn⟩
    · exact .inr ⟨z, List.mem_append_left _ hz, fails⟩

/-! ## What later callers find -/

/-- A caller at one stage can go on to another without a call, and only the log changes. -/
def PassesTo (l : Lifecycle) (s s' : Stage) : Prop :=
  ∀ i k : Nat, l.callers[i]? = some s → l.call? (.caller i (.go k)) = none ∧
    ∃ log, l.act? (.caller i (.go k)) =
      some { l with callers := l.callers.set i s', world := { l.world with log := log } }

theorem passesTo_of_stepStage? (hc : ∀ k, s.call? (.go k) = none)
    (h : ∀ k, ∃ log, l.stepStage? s (.go k) =
      some (s', { l with world := { l.world with log := log } })) : l.PassesTo s s' := by
  intro i k hs
  rcases h k with ⟨log, h⟩
  refine ⟨by simp [call?, hs, hc], log, ?_⟩
  simp only [act?, step?, hs, Option.bind_eq_bind, Option.bind_some, h]
  rfl

/-- What a setup leaves behind that has failed with an error. -/
structure Rests (tr : List Moment) (f : Fault) (l : Lifecycle) : Prop where
  phase : l.phase = .failed
  registry : l.world.registry = ⟨.cleared, []⟩
  failure : l.failure = some f
  settled : l.settled = true
  held : l.held = false
  /-- The ledger is empty, no program is left and nothing makes a call any more.  Only a plan that
  has shut down its own runtime and has run into the bound of the setup goes on beside the
  cleanup. -/
  quiet : (∀ x ∈ tr, x.call? ≠ some .shutdownRuntime) ∨ (∀ x ∈ tr, x.timesOut = false) →
    l.world.ledger = {} ∧ l.leftovers = [] ∧ ∀ a, l.call? a = none
  /-- A teardown comes back with the report at once, also one that has waited for the setup. -/
  teardown : ∀ strict, l.PassesTo (.asking (.teardown strict)) .reading ∧
    l.PassesTo .reading (.finished (.ok (.report l.report))) ∧
      l.PassesTo (.awaitingSettled strict) (.asking (.teardown strict))
  /-- Who waits for the environment is told at once that it is not ready. -/
  await : ∀ bounded, l.PassesTo (.asking (.await bounded)) (.awaitingReady bounded) ∧
    l.PassesTo (.awaitingReady bounded) .checking ∧
      l.PassesTo .checking (.finished (.ok (.flag false)))

theorem passesTo_teardown (hp : l.phase = .failed) (settled : l.settled = true) (strict : Bool) :
    l.PassesTo (.asking (.teardown strict)) .reading ∧
      l.PassesTo .reading (.finished (.ok (.report l.report))) ∧
        l.PassesTo (.awaitingSettled strict) (.asking (.teardown strict)) := by
  refine ⟨?_, ?_, ?_⟩
  · refine passesTo_of_stepStage? (fun _ => rfl) fun k => ?_
    simp only [stepStage?, beginTeardown, hp]
    exact ⟨_, rfl⟩
  · exact passesTo_of_stepStage? (fun _ => rfl) fun k => ⟨l.world.log, rfl⟩
  · exact passesTo_of_stepStage? (fun _ => rfl) fun k => ⟨l.world.log, if_pos settled⟩

theorem passesTo_await (hp : l.phase = .failed) (settled : l.settled = true) (bounded : Bool) :
    l.PassesTo (.asking (.await bounded)) (.awaitingReady bounded) ∧
      l.PassesTo (.awaitingReady bounded) .checking ∧
        l.PassesTo .checking (.finished (.ok (.flag false))) := by
  refine ⟨?_, ?_, ?_⟩
  · exact passesTo_of_stepStage? (fun _ => rfl) fun k => ⟨l.world.log, rfl⟩
  · exact passesTo_of_stepStage? (fun _ => rfl) fun k => ⟨l.world.log, if_pos settled⟩
  · refine passesTo_of_stepStage? (fun _ => rfl) fun k => ⟨l.world.log, ?_⟩
    simp [stepStage?, hp]

theorem call?_idle (idle : ∀ (i : Nat) (s : Stage), l.callers[i]? = some s → s.drives? = none)
    (left : l.leftovers = []) (a : Action) : l.call? a = none := by
  cases hc : l.call? a with
  | none => rfl
  | some c =>
    cases a with
    | caller i m =>
      rcases Option.bind_eq_some_iff.1 hc with ⟨s, hs, hc⟩
      rcases Stage.drives?_of_call? hc with ⟨p, hp⟩
      rw [idle i s hs] at hp
      cases hp
    | leftover i k =>
      rcases Option.bind_eq_some_iff.1 hc with ⟨o, ho, -⟩
      rw [left] at ho
      cases ho
    | _ => cases hc

/-- A setup that has failed and answered has left the environment at rest. -/
theorem Run.rests (fresh : l.Fresh) (run : Run l (u ++ x :: v) l') (hx : x.FailsWith i f)
    {r : Except Fault Result} (answered : l'.callers[i]? = some (.finished r)) :
    Rests (u ++ x :: v) f l' := by
  rcases run.settles fresh hx with ⟨only, s, hs, -, settles⟩
  cases answered.symm.trans hs
  -- The caller has finished, so that nobody drives any more.
  have idle (j : Nat) (t : Stage) (ht : l'.callers[j]? = some t) : t.drives? = none := by
    cases hd : t.drives? with
    | none => rfl
    | some q =>
      rcases only ht hd with rfl
      cases answered.symm.trans ht
      cases hd
  have phase : l'.phase = .failed := by
    rcases run.failed fresh hx.2 with hp | ⟨j, t, ht, cleansUp⟩
    · exact hp
    · rcases Stage.drives?_of_cleansUp cleansUp with ⟨q, hq⟩
      rw [idle j t ht] at hq
      cases hq
  have settled : l'.settled = true := settles.settled (Nat.le_of_ble_eq_true rfl)
  refine
    { phase := phase
      registry := settles.registry (Nat.le_of_ble_eq_true rfl)
      failure := settles.failure (Nat.le_of_ble_eq_true rfl)
      settled := settled
      held := settles.held (Nat.le_of_ble_eq_true rfl)
      quiet := ?_
      teardown := passesTo_teardown phase settled
      await := passesTo_await phase settled }
  -- The environment is past its drain, and since then nothing has been recorded.
  intro ended
  rcases run.ends_after_drain fresh (phase ▸ rfl) with ⟨d, e, order, drains, -⟩
  have member : d ∈ u ++ x :: v := order.subset (List.mem_cons_self ..)
  rcases List.append_of_mem member with ⟨u', v', cut⟩
  rw [cut] at run ended
  rcases run.at_moment with ⟨front, act, -⟩
  rcases Moment.drains_turn act drains with ⟨j, k, p, -, hj, -⟩
  have none_left : d.before.leftovers = [] := by
    refine front.none_left_at_drain fresh hj (ended.imp ?_ ?_)
    · exact fun alive z hz => alive z (List.mem_append_left _ hz)
    · exact fun patient z hz => patient z (List.mem_append_left _ hz)
  rcases run.cleaned fresh drains none_left with ⟨cleaned, attended⟩
  have left : l'.leftovers = [] := attended.none_left_idle idle
  exact ⟨cleaned.ledger, left, call?_idle idle left⟩

end Lifecycle
end Testbed

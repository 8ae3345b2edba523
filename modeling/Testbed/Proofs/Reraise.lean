import Testbed.Proofs.Answers
import Testbed.Proofs.Report

/-!
# The error of a failed setup

A setup that fails cleans up and then raises the error it failed with, unless the wait for its stop
pass breaks off with another error.  `SetupRaises` says when that happens: the runtime for the pass
cannot be started, or the label query of the sweep is answered with an error that is neither one of
the engine's nor an expired bound.  Look-ups and removals never break the wait off.
-/

namespace Testbed

/-- The kind and the text of a raised error. -/
def Fault.raised? : Fault → Option (Fault.Kind × Option String)
  | .raised k t => some (k, t)
  | _ => none

/-- The error with which the engine client is opened or a label query answered. -/
def Call.raised? : (c : Call) → c.Reply → Option Fault
  | .openClient _, .error e => some e
  | .engine (.listLabelled _), .error e => some e
  | _, _ => none

/-- Any calls are allowed, and the note is the last error of a label query. -/
def Rule.query : Rule (Option Fault) where
  allows := fun _ _ => True
  note := fun raised c r => (c.raised? r).or raised

/-- An error that a label query comes back with is the last one it was answered with, and not one
of the engine's. -/
def ComesFrom (raised : Option Fault) (r : Except Fault (List String)) : Prop :=
  ∀ e, r = .error e → raised = some e ∧ Client.isEngineFault e = false

theorem StopPass.labelled_query (session : String) :
    Task.Follows Rule.query ComesFrom (StopPass.labelled session).run none := by
  -- The note after the query is the error that it comes back with, if there is one.
  have asked : Task.Follows Rule.query
      (fun raised (r : Except Fault (List String)) => ∀ e, r = .error e → raised = some e)
      (Client.containersWithLabel Provisioner.sessionLabel session).run none := by
    refine And.intro trivial fun r => ?_
    rcases r with e | ⟨⟩
    · intro e' he
      cases he
      rfl
    · refine And.intro trivial fun r => ?_
      rcases r with e | ids
      · intro e' he
        cases he
        rfl
      · exact nofun
  refine Work.follows_handle asked (fun _ _ _ => nofun) ?_ ?_
  · -- An error of the engine is logged, and nothing is swept.
    intro raised e _ _
    exact And.intro trivial fun _ => nofun
  · intro raised e h caught e' he
    cases he
    exact ⟨h e rfl, caught⟩

/-! ## Cleaning up -/

/-- The error that containers are stopped after. -/
def Purpose.failure? : Purpose → Option Fault
  | .failure f => some f
  | .teardown _ => none

/-- The error that a runtime is shut down after, if the ledger has not been drained. -/
def Afterwards.failure? : Afterwards → Option Fault
  | .drain f => some f
  | .announce .. => none

/-- The error that a caller cleans up after, until its stop pass is over. -/
def Stage.recovers? : Stage → Option Fault
  | .failing f => some f
  | .halting _ next => next.failure?
  | .draining p | .confirming p _ | .stopping p _ => p.failure?
  | _ => none

theorem Purpose.eq_of_failure? {p : Purpose} {f : Fault} (h : p.failure? = some f) :
    p = .failure f := by
  cases p <;> cases h
  rfl

/-- The error with which a wait for a stop pass has broken off. -/
def Stage.brokenOff? : Stage → Option Fault
  | .clearing _ (.error h) => some h
  | _ => none

theorem Stage.brokenOff?_eq_some {p : Purpose} {r : Except Fault TeardownReport} {e : Fault} :
    (Stage.clearing p r).brokenOff? = some e ↔ r = .error e := by
  cases r <;> simp [Stage.brokenOff?]

namespace Lifecycle

variable {l l' n : Lifecycle} {s s' : Stage} {m : Move} {i : Nat} {u v : List Moment}
  {x y : Moment} {p : Purpose} {f h : Fault} {r : Except Fault TeardownReport}

/-- A part of a plan raises an error, or the bound of the setup expires while it runs. -/
inductive PlanRaises : Stage → Move → Fault → Prop where
  | init (p : Plan) (e : Fault) (k : Nat) :
      PlanRaises (.initializing p (.done (.error e))) (.go k) (crossing e)
  | after (e : Fault) (k : Nat) :
      PlanRaises (.finishing (.done (.error e))) (.go k) (crossing e)
  | initExpires (p : Plan) (t : Task (Except Fault Delivery)) :
      PlanRaises (.initializing p t) .expire Fault.expired
  | afterExpires (t : Task (Except Fault Unit)) :
      PlanRaises (.finishing t) .expire Fault.expired

/-- The error with which the wait of the i-th caller for its stop pass breaks off at a moment. -/
def Moment.breaksOff? (i : Nat) (x : Moment) : Option Fault :=
  match x.action with
  | .caller j _ => if j = i then x.reached?.bind Stage.brokenOff? else none
  | _ => none

/-- The label query of the i-th caller is answered with an error. -/
def Moment.QueryRaises (i : Nat) (e : Fault) (x : Moment) : Prop :=
  ∃ m p cs sweep rs t c r w, x.action = .caller i m ∧
    x.stage? = some (.stopping p ⟨cs, sweep, .listing rs t⟩) ∧ x.call? = some c ∧
      x.before.world.perform c = some (r, w) ∧ c.raised? r = some e

/-- Why a wait breaks off with an error at a moment: no runtime, or the label query. -/
def Cause (i : Nat) (v : List Moment) (h : Fault) (z : Moment) : Prop :=
  (0 < z.before.refusals ∧ h = noThread) ∨
    ∃ y ∈ v, ∃ e, y.QueryRaises i e ∧ Client.isEngineFault e = false ∧
      e.isA (· == .timeout) = false ∧ h = crossing e

theorem Moment.breaksOff?_turn (ha : x.action = .caller i m) (hr : x.reached? = some s') :
    x.breaksOff? i = s'.brokenOff? := by
  simp [breaksOff?, ha, hr]

theorem Moment.breaksOff?_other (ha : ∀ m, x.action ≠ .caller i m) : x.breaksOff? i = none := by
  unfold Moment.breaksOff?
  split
  · rename_i j m he
    rw [if_neg]
    rintro rfl
    exact ha m he
  · rfl

theorem PlanRaises.turn (h : PlanRaises s m f) (turn : Turn l s m s' n) : s' = .failing f := by
  cases h with
  | init p e k =>
    cases turn with
    | init _ _ ht => cases ht
    | initFailed => rfl
  | after e k =>
    cases turn with
    | finish _ ht => cases ht
    | finishFailed => rfl
  | initExpires p t =>
    cases turn
    rfl
  | afterExpires t =>
    cases turn
    rfl

theorem Turn.recovers (turn : Turn l s m s' n) (hs : s.recovers? = some f) :
    s'.recovers? = some f ∧ s'.brokenOff? = none ∨ ∃ r, s' = .clearing (.failure f) r := by
  have ends {p : Purpose} (r : Except Fault TeardownReport) (hp : p.failure? = some f) :
      ∃ r', Stage.clearing p r = .clearing (.failure f) r' := by
    rw [Purpose.eq_of_failure? hp]
    exact ⟨r, rfl⟩
  -- The stop pass is over in one of four ways; every other turn keeps the error.
  cases turn
  case confirmNothing => exact .inr (ends _ hs)
  case confirmRefused => exact .inr (ends _ hs)
  case passEnds => exact .inr (ends _ hs)
  case passExpired => exact .inr (ends _ hs)
  all_goals first | exact .inl ⟨hs, rfl⟩ | cases hs

theorem Carries.not_broken (hs : Carries p r s) (turn : Turn l s m s' n) :
    s'.brokenOff? = none := by
  rcases hs with hs | rfl
  · cases turn <;> first | rfl | cases hs
  · cases turn

/-! ## What the caller knows -/

/-- What is behind a caller that cleans up after an error: its wait for the stop pass breaks off
with the error that it carries from there on. -/
inductive Recovers (f : Fault) (i : Nat) (v : List Moment) (s : Stage) : Prop where
  | cleaning (hs : s.recovers? = some f) (h : ∀ z ∈ v, z.breaksOff? i = none)
  | carrying (r : Except Fault TeardownReport) (hs : Carries (.failure f) r s)
      (h : ∀ e, (∃ z ∈ v, z.breaksOff? i = some e) ↔ r = .error e)

/-- The label query of a pass follows its rule, and what it has noted was an answer. -/
def Queried (i : Nat) (v : List Moment) : Stage → Prop
  | .stopping _ ⟨_, _, .listing _ t⟩ => ∃ raised, t.Follows Rule.query ComesFrom raised ∧
      ∀ e, raised = some e → ∃ y ∈ v, y.QueryRaises i e
  | _ => True

theorem Recovers.turn (h : Recovers f i v s) (ha : y.action = .caller i m)
    (turn : Turn l s m s' n) (hr : y.reached? = some s')
    (sound : ∀ q, s.drives? = some q → l.phase = q) : Recovers f i (v ++ [y]) s' := by
  have broken : y.breaksOff? i = s'.brokenOff? := Moment.breaksOff?_turn ha hr
  cases h with
  | cleaning hs none =>
    -- So far nothing has broken off; the only candidate is this moment.
    have now (e : Fault) : (∃ z ∈ v ++ [y], z.breaksOff? i = some e) ↔
        s'.brokenOff? = some e := by
      constructor
      · rintro ⟨z, hz, he⟩
        rcases List.mem_append.1 hz with hz | hz
        · rw [none z hz] at he
          cases he
        · rw [← broken, ← List.mem_singleton.1 hz]
          exact he
      · intro he
        exact ⟨y, by simp, broken.trans he⟩
    rcases turn.recovers hs with ⟨hs', hb⟩ | ⟨r, rfl⟩
    · refine .cleaning hs' ?_
      intro z hz
      by_contra some
      rcases Option.ne_none_iff_exists'.1 some with ⟨e, he⟩
      cases hb.symm.trans ((now e).1 ⟨z, hz, he⟩)
    · refine .carrying r (.inl rfl) ?_
      intro e
      rw [now e, Stage.brokenOff?_eq_some]
  | carrying r hs which =>
    refine .carrying r (hs.turn turn sound) ?_
    intro e
    rw [← which e]
    have silent : y.breaksOff? i = none := broken.trans (hs.not_broken turn)
    simp [or_and_right, exists_or, silent]

theorem Queried.turn (h : Queried i v s) (ha : y.action = .caller i m) (hs : y.stage? = some s)
    (turn : Turn y.before s m s' n) : Queried i (v ++ [y]) s' := by
  cases turn
  case confirm => trivial
  case confirmAnew => trivial
  case passGoes p pass pass' k w ht =>
    cases StopPass.turns_of_turn? ht with
    | @lists cs session ts rs ended =>
      refine ⟨none, StopPass.labelled_query session, nofun⟩
    | sweeps => trivial
  case passSteps p pass pass' k w idle ht =>
    cases StopPass.steps_of_step? ht with
    | stopping => trivial
    | @listing cs sweep rs t t' hn =>
      rcases h with ⟨raised, follows, answered⟩
      rcases follows.next hn with ⟨c, a, hc, -, ha', follows'⟩
      refine ⟨_, follows', ?_⟩
      intro e he
      rcases Option.or_eq_some_iff.1 he with he | ⟨-, he⟩
      · -- The note is the answer of this moment.
        have hi : y.before.callers[i]? = some (.stopping p ⟨cs, sweep, .listing rs t⟩) :=
          (Moment.stage?_caller ha).symm.trans hs
        have call : y.call? = some c := by
          simpa [Moment.call?, Lifecycle.call?, ha, hi, Stage.call?, StopPass.call?] using hc
        exact ⟨y, by simp, _, _, _, _, _, _, c, a, w, ha, hs, call, ha', he⟩
      · rcases answered e he with ⟨z, hz, hq⟩
        exact ⟨z, List.mem_append_left _ hz, hq⟩
    | removing => trivial
  all_goals trivial

/-! ## Why a wait breaks off -/

theorem Queried.append (h : Queried i v s) (w : List Moment) : Queried i (v ++ w) s := by
  unfold Queried at h ⊢
  split at h
  · rcases h with ⟨raised, follows, answered⟩
    refine ⟨raised, follows, ?_⟩
    intro e he
    rcases answered e he with ⟨z, hz, hq⟩
    exact ⟨z, List.mem_append_left _ hz, hq⟩
  · trivial

theorem Cause.append {z : Moment} (h : Cause i v f z) (w : List Moment) : Cause i (v ++ w) f z := by
  rcases h with h | ⟨y, hy, e, hq, kinds⟩
  · exact .inl h
  · exact .inr ⟨y, List.mem_append_left _ hy, e, hq, kinds⟩

theorem Recovers.append (h : Recovers f i v s) (silent : y.breaksOff? i = none) :
    Recovers f i (v ++ [y]) s := by
  cases h with
  | cleaning hs none =>
    exact .cleaning hs (List.forall_mem_append.2 ⟨none, List.forall_mem_singleton.2 silent⟩)
  | carrying r hs which =>
    refine .carrying r hs ?_
    intro e
    rw [← which e]
    simp [or_and_right, exists_or, silent]

/-- Crossing to the caller makes no difference to an outcome. -/
theorem crossing_outcome {α : Type} {t : Task (Except Fault α)} {e : Fault}
    (h : StopPass.outcome? t = some (.error e)) :
    ∃ g, t = .done (.error g) ∧ crossing e = crossing g ∧
      e.isA (· == .timeout) = g.isA (· == .timeout) := by
  -- An error that crosses a second time is the same, even if it cancels.
  unfold StopPass.outcome? at h
  split at h
  · rename_i g
    refine ⟨g, rfl, ?_⟩
    have he : e = if g.isCancelled then Fault.cancelled else g := by
      cases h
      rfl
    cases hc : g.isCancelled with
    | false =>
      rw [he, hc]
      exact ⟨rfl, rfl⟩
    | true =>
      rw [he, hc]
      refine ⟨by simp [crossing, hc], ?_⟩
      -- An error that ends a cancelled task is no expired bound.
      have kind : g.kind? = some .cancelled := by
        unfold Fault.isCancelled Fault.isA at hc
        cases hk : g.kind? with
        | none => simp [hk] at hc
        | some k => simpa [hk] using hc
      rw [Fault.isA, Fault.isA, kind]
      rfl
  · cases h
  · cases h

theorem confirmed_eq_error {pass : StopPass} {e : Fault} (h : l.confirmed pass r = .error e) :
    ∃ g, r = .error g ∧ g.isA (· == .timeout) = false ∧ e = crossing g := by
  unfold confirmed at h
  split at h
  · cases h
  · rename_i g
    split at h
    · cases h
    · rename_i late
      exact ⟨g, rfl, Bool.not_eq_true _ ▸ late, (Except.error.inj h).symm⟩

theorem Queried.cause (h : Queried i v s) (turn : Turn y.before s m s' n) {e : Fault}
    (broken : s'.brokenOff? = some e) : Cause i v e y := by
  -- Where there is nothing to stop or the bound expires, the wait ends with a report.
  cases turn
  case confirmRefused p cs k n refused =>
    have he : noThread = e := Option.some.inj broken
    exact .inl ⟨by omega, he.symm⟩
  case passEnds p pass k r w ht =>
    rcases confirmed_eq_error (Stage.brokenOff?_eq_some.1 broken) with ⟨g, rfl, late, rfl⟩
    -- Only a label query ends a pass with an error.
    cases StopPass.turns_of_turn? ht with
    | @lost cs sweep rs t g ended =>
      rcases crossing_outcome ended with ⟨g₀, rfl, crosses, timeout⟩
      rcases h with ⟨raised, follows, answered⟩
      rcases follows g₀ rfl with ⟨rfl, other⟩
      rcases answered g₀ rfl with ⟨z, hz, asked⟩
      exact .inr ⟨z, hz, g₀, asked, other, timeout ▸ late, crosses⟩
  all_goals cases broken

/-! ## Every failed setup -/

theorem Run.recovers (fresh : l.Fresh) (run : Run l (u ++ x :: v) l')
    (ha : x.action = .caller i m) (hx : x.reached? = some (.failing f)) :
    ∃ s, l'.callers[i]? = some s ∧ Recovers f i v s ∧ Queried i v s ∧
      ∀ z ∈ v, ∀ e, z.breaksOff? i = some e → Cause i v e z := by
  -- A cause points back at an answer to the query, so it is kept together with what is known of it.
  refine run.since (P := fun v n => ∃ s, n.callers[i]? = some s ∧ Recovers f i v s ∧
    Queried i v s ∧ ∀ z ∈ v, ∀ e, z.breaksOff? i = some e → Cause i v e z) ?_ ?_
  · intro _ _
    have now : x.after.callers[i]? = some (.failing f) := (Moment.reached?_caller ha).symm.trans hx
    exact ⟨_, now, .cleaning rfl (by simp), trivial, by simp⟩
  · rintro v y front act ⟨s, hs, recovers, queried, causes⟩
    have earlier (z : Moment) (hz : z ∈ v) (e : Fault) (he : z.breaksOff? i = some e) :
        Cause i (v ++ [y]) e z := (causes z hz e he).append [y]
    rcases (change_of_act? act).goes hs with ⟨other, hn⟩ | ⟨m', s', n', hy, turn, -, hn⟩
    · have silent : y.breaksOff? i = none := Moment.breaksOff?_other other
      refine ⟨s, hn, recovers.append silent, queried.append [y],
        List.forall_mem_append.2 ⟨earlier, List.forall_mem_singleton.2 ?_⟩⟩
      rw [silent]
      exact nofun
    · have stage : y.stage? = some s := (Moment.stage?_caller hy).trans hs
      have reached : y.reached? = some s' := (Moment.reached?_caller hy).trans hn
      have sound (q : Phase) (hq : s.drives? = some q) : y.before.phase = q :=
        (front.sound fresh).phase_eq hs hq
      refine ⟨s', hn, recovers.turn hy turn reached sound, queried.turn hy stage turn,
        List.forall_mem_append.2 ⟨earlier, List.forall_mem_singleton.2 ?_⟩⟩
      intro e he
      rw [Moment.breaksOff?_turn hy reached] at he
      exact (queried.cause turn he).append [y]

end Lifecycle
end Testbed

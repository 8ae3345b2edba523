import Testbed.Proofs.Answers
import Testbed.Proofs.Drain

/-!
# Strict teardowns

A strict teardown is to raise an error if containers could not be stopped.  It does if it is the one
that has tried to: `strict_teardown_raises_iff` says that it hides failures exactly if the stop pass
of another caller has left them.  Then it returns the stored report, as any other teardown does.
-/

namespace Testbed

/-- Containers are stopped for a strict teardown. -/
def Purpose.isStrict : Purpose → Bool
  | .failure _ => false
  | .teardown strict => strict

theorem Purpose.eq_of_isStrict {p : Purpose} (h : p.isStrict = true) : p = .teardown true := by
  cases p <;> cases h
  rfl

/-- A strict teardown that has stopped containers itself only returns a report without failures. -/
theorem Purpose.ok_of_answer {r : Except Fault TeardownReport} {report : TeardownReport}
    (h : (Purpose.teardown true).answer r = .ok (.report report)) : report.ok = true := by
  cases r with
  | error g => cases h
  | ok found =>
    cases complete : found.ok with
    | false => simp [Purpose.answer, complete] at h
    | true =>
      simp only [Purpose.answer, complete, Bool.not_true, Bool.and_false, Bool.false_eq_true,
        if_false, Except.ok.injEq, Result.report.injEq] at h
      rw [← h, complete]

/-- A strict teardown that may still stop containers itself, or waits for what others do. -/
def Stage.isStrict : Stage → Bool
  | .asking (.teardown strict) | .awaitingSettled strict | .quieting strict => strict
  | .draining p | .confirming p _ | .stopping p _ => p.isStrict
  | .awaitingStopped | .reading => true
  | _ => false

/-- The caller has left its stop pass and has not entered the last phase yet. -/
def Stage.isThrough : Stage → Bool
  | .clearing .. | .closing .. => true
  | _ => false

theorem Stage.isThrough_drives? {s : Stage} (h : s.isThrough = true) :
    ∃ p : Purpose, s.drives? = some p.source := by
  cases s <;> first | exact ⟨_, rfl⟩ | cases h

namespace Lifecycle

variable {l l' n : Lifecycle} {s s' : Stage} {m : Move} {i j : Nat} {tr u v : List Moment}
  {x y z : Moment} {p q : Purpose} {r r' : Except Fault TeardownReport}

/-! ## Leaving a stop pass -/

/-- The i-th caller leaves its stop pass with a result. -/
def Moment.LeavesPass (i : Nat) (p : Purpose) (r : Except Fault TeardownReport) (x : Moment) :
    Prop :=
  (∃ m, x.action = .caller i m) ∧ x.reached? = some (.clearing p r)

/-- A caller leaves its stop pass. -/
def Moment.leavesPass (x : Moment) : Bool :=
  match x.reached? with
  | some (.clearing ..) => true
  | _ => false

theorem Moment.LeavesPass.leavesPass (h : x.LeavesPass i p r) : x.leavesPass = true := by
  simp [Moment.leavesPass, h.2]

theorem Moment.LeavesPass.unique (h : x.LeavesPass i p r) (h' : x.LeavesPass j q r') :
    i = j ∧ p = q ∧ r = r' := by
  rcases h with ⟨⟨m, ha⟩, hx⟩
  rcases h' with ⟨⟨m', ha'⟩, hx'⟩
  cases ha.symm.trans ha'
  cases hx.symm.trans hx'
  exact ⟨rfl, rfl, rfl⟩

/-- A stop pass is left by a caller that still drives the environment. -/
theorem Turn.of_clearing (turn : Turn l s m (.clearing p r) n) :
    s.drives? = some p.source ∧ s.isThrough = false := by
  cases turn <;> exact ⟨rfl, rfl⟩

/-- Who is through with its stop pass enters the last phase next. -/
theorem Turn.through (turn : Turn l s m s' n) (hs : s.isThrough = true)
    (sound : ∀ q, s.drives? = some q → l.phase = q) :
    s'.isThrough = true ∨ n.phase.isTerminal = true := by
  cases turn
  case closeFailed => exact .inr rfl
  case closeStopped => exact .inr rfl
  case closeRefused p r k report refused =>
    rw [sound p.source rfl] at refused
    exact absurd p.target_mem_next refused
  all_goals first | exact .inl rfl | cases hs

/-- Some caller is through with its stop pass. -/
def Through (l : Lifecycle) : Prop :=
  l.phase.isTerminal = true ∨
    ∃ (i : Nat) (s : Stage), l.callers[i]? = some s ∧ s.isThrough = true

theorem Through.change {a : Action} (h : l.Through) (sound : l.Sound) (hc : Change l a n) :
    n.Through :=
  hc.keeps_past sound (fun turn => turn.through) h

/-- A caller that has just moved was at a stage from which it could. -/
theorem Moment.moved (act : x.before.act? x.action = some x.after) (ha : x.action = .caller i m)
    (hr : x.reached? = some s') :
    ∃ s n, x.before.callers[i]? = some s ∧ Turn x.before s m s' n := by
  rcases x with ⟨before, action, after⟩
  cases ha
  have change : Change before (.caller i m) after := change_of_act? act
  cases change with
  | @caller _ _ s t n hs turn =>
    have inside := (List.getElem?_eq_some_iff.1 hs).1
    have reached : t = s' := by
      simpa [Moment.reached?, inside] using hr
    exact ⟨s, n, hs, reached ▸ turn⟩

theorem Through.not_leavesPass (h : x.before.Through) (sound : x.before.Sound)
    (act : x.before.act? x.action = some x.after) : x.leavesPass = false := by
  by_contra leaves
  unfold Moment.leavesPass at leaves
  split at leaves
  · rename_i p r reached
    rcases Moment.reached?_eq_some.1 reached with ⟨i, m, ha, -⟩
    rcases Moment.moved act ha reached with ⟨s, n, hs, turn⟩
    rcases turn.of_clearing with ⟨drives, other⟩
    rcases h with ht | ⟨j, t, hj, through⟩
    · rw [sound.phase_eq hs drives, p.source_not_terminal] at ht
      cases ht
    · rcases Stage.isThrough_drives? through with ⟨q, hq⟩
      cases sound.unique hs hj drives hq
      cases hs.symm.trans hj
      cases other.symm.trans through
  · exact leaves rfl

/-- A stop pass is left at most once. -/
theorem Run.leavesPass_once (fresh : l.Fresh) (run : Run l tr l') :
    tr.countP Moment.leavesPass ≤ 1 := by
  refine (run.countP_le_one Through ?_ ?_ ?_).1
  · intro tr x hx leaves
    unfold Moment.leavesPass at leaves
    split at leaves
    · rename_i reached
      rcases Moment.reached?_eq_some.1 reached with ⟨i, m, -, hn⟩
      exact .inr ⟨i, _, hn, rfl⟩
    · cases leaves
  · intro tr x hx through
    rcases hx.tail_inv with ⟨front, act, -⟩
    exact through.not_leavesPass (front.sound fresh) act
  · intro tr x hx through
    rcases hx.tail_inv with ⟨front, act, -⟩
    exact through.change (front.sound fresh) (change_of_act? act)

/-- A stop pass is left by one caller, with one result. -/
theorem Run.leavesPass_unique (fresh : l.Fresh) (run : Run l tr l') (hx : x ∈ tr) (hy : y ∈ tr)
    (h : x.LeavesPass i p r) (h' : y.LeavesPass j q r') : i = j ∧ p = q ∧ r = r' := by
  rcases List.append_of_mem hx with ⟨u, v, rfl⟩
  have others := others_of_countP_le_one (run.leavesPass_once fresh) h.leavesPass
  have same : y = x := by
    by_contra other
    have late : y ∈ u ++ v := by simpa [other] using hy
    cases h'.leavesPass.symm.trans (others y late)
  exact h.unique (same ▸ h')

/-! ## The results of a stop pass -/

/-- A caller comes to a result by leaving its stop pass. -/
theorem Turn.of_result (turn : Turn l s m s' n) (h : result? s' = some (p, r)) :
    result? s = some (p, r) ∨ s' = .clearing p r := by
  cases turn <;> first | exact .inl h | (cases h; exact .inr rfl) | cases h

theorem Run.left_pass (fresh : l.Fresh) (run : Run l tr l') (hs : l'.callers[i]? = some s)
    (h : result? s = some (p, r)) : ∃ y ∈ tr, y.LeavesPass i p r := by
  induction run generalizing s with
  | refl => simp [fresh.callers] at hs
  | @tail tr l₀ n a run act ih =>
    rcases (change_of_act? act).callers hs with before | ⟨d, -, rfl⟩ | ⟨m, t, n', rfl, ht, turn, -⟩
    · rcases ih before h with ⟨y, hy, leaves⟩
      exact ⟨y, List.mem_append_left _ hy, leaves⟩
    · cases h
    · rcases turn.of_result h with h | rfl
      · rcases ih ht h with ⟨y, hy, leaves⟩
        exact ⟨y, List.mem_append_left _ hy, leaves⟩
      · exact ⟨⟨l₀, .caller i m, n⟩, by simp, ⟨m, rfl⟩, hs⟩

/-- A report is stored by a caller that has left its stop pass. -/
theorem Turn.stores (turn : Turn l s m s' n) (sound : ∀ q, s.drives? = some q → l.phase = q) :
    n.report = l.report ∨ ∃ p r, result? s = some (p, r) ∧ n.report = r.toOption.getD {} := by
  cases turn
  case clearFailure f r k log => exact .inr ⟨.failure f, .ok r, rfl, rfl⟩
  case closeStopped strict r k log h => exact .inr ⟨.teardown strict, r, rfl, rfl⟩
  case closeRefused p r k report refused =>
    rw [sound p.source rfl] at refused
    exact absurd p.target_mem_next refused
  all_goals exact .inl rfl

/-- The stored report is empty, or a stop pass has been left with it. -/
theorem Run.stored (fresh : l.Fresh) (run : Run l tr l') :
    l'.report = {} ∨ ∃ y ∈ tr, ∃ i p, y.LeavesPass i p (.ok l'.report) := by
  induction run with
  | refl => exact .inl fresh.report
  | @tail tr l₀ n a run act ih =>
    have earlier (h : n.report = l₀.report) : n.report = {} ∨
        ∃ y ∈ tr ++ [⟨l₀, a, n⟩], ∃ i p, y.LeavesPass i p (.ok n.report) := by
      rw [h]
      refine ih.imp_right ?_
      rintro ⟨y, hy, leaves⟩
      exact ⟨y, List.mem_append_left _ hy, leaves⟩
    rcases (change_of_act? act).turn_or_same with ⟨i, m, s, s', n', -, hs, turn, rfl⟩ | ⟨-, same⟩
    · rcases turn.stores fun q => (run.sound fresh).phase_eq hs with same | ⟨p, r, hr, stored⟩
      · exact earlier same
      · cases r with
        | error f => exact .inl stored
        | ok report =>
          rcases run.left_pass fresh hs hr with ⟨y, hy, leaves⟩
          refine .inr ⟨y, List.mem_append_left _ hy, i, p, ?_⟩
          exact stored ▸ leaves
    · exact earlier same

/-! ## Strict teardowns -/

/-- The i-th caller arrives and asks for a strict teardown. -/
def Moment.asksStrictly (i : Nat) (x : Moment) : Bool :=
  match x.action with
  | .enter (.teardown true) => x.before.callers.length == i
  | _ => false

/-- A strict teardown leaves its own stop pass, or returns the report that is stored. -/
theorem Turn.strict (turn : Turn l s m s' n) (h : s.isStrict = true) :
    s'.isStrict = true ∨ (∃ r, s' = .clearing (.teardown true) r) ∨
      s' = .finished (.ok (.report l.report)) := by
  have own {p : Purpose} (r : Except Fault TeardownReport) (hp : p.isStrict = true) :
      ∃ r', Stage.clearing p r = .clearing (.teardown true) r' :=
    ⟨r, by rw [Purpose.eq_of_isStrict hp]⟩
  -- A stop pass is over in one of four ways.
  cases turn
  case confirmNothing => exact .inr (.inl (own _ h))
  case confirmRefused => exact .inr (.inl (own _ h))
  case passEnds => exact .inr (.inl (own _ h))
  case passExpired => exact .inr (.inl (own _ h))
  case read => exact .inr (.inr rfl)
  all_goals first | exact .inl h | exact .inl rfl

/-- What a strict teardown has come to: it carries the result of its own pass, or is answered. -/
def Strictly (s : Stage) : Prop :=
  s.isStrict = true ∨ (∃ r, result? s = some (.teardown true, r)) ∨ ∃ a, s = .finished a

theorem Strictly.turn (h : Strictly s) (turn : Turn l s m s' n)
    (sound : ∀ q, s.drives? = some q → l.phase = q) : Strictly s' := by
  rcases h with h | ⟨r, h⟩ | ⟨a, rfl⟩
  · rcases turn.strict h with h | ⟨r, rfl⟩ | rfl
    · exact .inl h
    · exact .inr (.inl ⟨r, rfl⟩)
    · exact .inr (.inr ⟨_, rfl⟩)
  · rcases Carries.turn (.inl h) turn sound with h | rfl
    · exact .inr (.inl ⟨r, h⟩)
    · exact .inr (.inr ⟨_, rfl⟩)
  · cases turn

theorem Carries.not_isStrict (h : Carries p r s) : s.isStrict = false := by
  rcases h with h | rfl
  · cases s <;> first | rfl | cases h
  · rfl

theorem Run.strictly (fresh : l.Fresh) (run : Run l (u ++ x :: v) l')
    (asks : x.asksStrictly i = true) : ∃ s, l'.callers[i]? = some s ∧ Strictly s := by
  rcases x with ⟨before, action, after⟩
  unfold Moment.asksStrictly at asks
  split at asks
  · rename_i enters
    cases enters
    have act : some (before.enter (.teardown true)).2 = some after := run.at_moment.2.1
    cases act
    have last : before.callers.length = i := by simpa using asks
    have asked : (before.enter (.teardown true)).2.callers[i]? = some (.asking (.teardown true)) := by
      simp [enter, ← last]
    exact run.stage_stays fresh Strictly.turn asked (.inl rfl)
  · cases asks

/-- How a strict teardown is answered at a moment: with the report that is stored, or with what its
own stop pass has come to. -/
inductive StrictAnswer (i : Nat) (u : List Moment) (z : Moment) (a : Except Fault Result) :
    Prop where
  | stored (none : ∀ y ∈ u, ∀ p r, ¬ y.LeavesPass i p r) (h : a = .ok (.report z.before.report)) :
      StrictAnswer i u z a
  | own {y : Moment} (hy : y ∈ u) {r : Except Fault TeardownReport}
      (leaves : y.LeavesPass i (.teardown true) r) (h : a = (Purpose.teardown true).answer r) :
      StrictAnswer i u z a

theorem Run.strict_answer (fresh : l.Fresh) (run : Run l (u ++ z :: v) l') (hx : x ∈ u)
    (asks : x.asksStrictly i = true) (goes : z.action = .caller i m) {a : Except Fault Result}
    (answered : z.reached? = some (.finished a)) : StrictAnswer i u z a := by
  rcases run.at_moment with ⟨front, act, -⟩
  rcases Moment.moved act goes answered with ⟨s, n, hs, turn⟩
  have strictly : Strictly s := by
    rcases List.append_of_mem hx with ⟨u₁, u₂, rfl⟩
    rcases front.strictly fresh asks with ⟨t, ht, strictly⟩
    cases hs.symm.trans ht
    exact strictly
  rcases strictly with waits | ⟨r, own⟩ | ⟨b, rfl⟩
  · refine .stored ?_ ?_
    · -- From its stop pass on it would carry the result.
      rintro y hy p r ⟨⟨m, left⟩, reached⟩
      rcases List.append_of_mem hy with ⟨u₁, u₂, rfl⟩
      rcases front.carries fresh left reached (.inl rfl) with ⟨t, ht, carries⟩
      cases hs.symm.trans ht
      cases carries.not_isStrict.symm.trans waits
    · rcases turn.strict waits with h | ⟨r, h⟩ | h
      · cases h
      · cases h
      · exact Stage.finished.inj h
  · rcases front.left_pass fresh hs own with ⟨y, hy, leaves⟩
    refine .own hy leaves ?_
    rcases Carries.turn (.inl own) turn fun q => (front.sound fresh).phase_eq hs with h | h
    · cases h
    · exact Stage.finished.inj h
  · cases turn

/-- What a strict teardown owes to its caller when it gives an answer after some moments. -/
structure HonoursStrict (u : List Moment) (a : Except Fault Result) : Prop where
  /-- It returns no report with failures. -/
  complete : ∀ report, a = .ok (.report report) → report.ok = true
  /-- It raises the failures that a stop pass has left, whoever has run it. -/
  raises : ∀ y ∈ u, ∀ j p report, y.LeavesPass j p (.ok report) → report.ok = false →
    a = .error (incomplete report.failures)

/-- The answer of a strict teardown that has run the stop pass is what it owes. -/
theorem Run.honours_own (fresh : l.Fresh) (run : Run l u l') (hy : y ∈ u)
    (leaves : y.LeavesPass i (.teardown true) r) :
    HonoursStrict u ((Purpose.teardown true).answer r) where
  complete _ returned := Purpose.ok_of_answer returned
  raises y' hy' j p report leaves' failed := by
    rcases run.leavesPass_unique fresh hy hy' leaves leaves' with ⟨rfl, rfl, rfl⟩
    simp [Purpose.answer, failed]

/-- The stored report is what a strict teardown owes as long as nobody has left failures. -/
theorem Run.honours_stored_iff (fresh : l.Fresh) (run : Run l u l') :
    HonoursStrict u (.ok (.report l'.report)) ↔
      ∀ y ∈ u, ∀ j p report, y.LeavesPass j p (.ok report) → report.ok = true := by
  constructor
  · intro honours y hy j p report leaves
    by_contra failed
    cases honours.raises y hy j p report leaves (eq_false_of_ne_true failed)
  · intro fine
    refine ⟨?_, ?_⟩
    · rintro report ⟨⟩
      rcases run.stored fresh with empty | ⟨y, hy, j, p, leaves⟩
      · rw [empty]
        rfl
      · exact fine y hy j p _ leaves
    · intro y hy j p report leaves failed
      cases (fine y hy j p report leaves).symm.trans failed

/-- Whatever other callers do, before a strict teardown and beside it. -/
theorem strict_teardown_raises_iff (fresh : l.Fresh) (run : Run l (u ++ z :: v) l') (hx : x ∈ u)
    (asks : x.asksStrictly i = true) (goes : z.action = .caller i m) {a : Except Fault Result}
    (answered : z.reached? = some (.finished a)) :
    (HonoursStrict u a ↔ ∀ y ∈ u, ∀ j p report, y.LeavesPass j p (.ok report) →
      report.ok = false → j = i) ∧
      (¬ HonoursStrict u a → a = .ok (.report z.before.report)) := by
  have front : Run l u z.before := run.at_moment.1
  cases run.strict_answer fresh hx asks goes answered with
  | stored none stored =>
    subst stored
    refine ⟨(front.honours_stored_iff fresh).trans ⟨?_, ?_⟩, fun _ => rfl⟩
    · intro fine y hy j p report leaves failed
      cases (fine y hy j p report leaves).symm.trans failed
    · intro only y hy j p report leaves
      by_contra failed
      cases only y hy j p report leaves (eq_false_of_ne_true failed)
      exact none y hy p _ leaves
  | own hy leaves answer =>
    subst answer
    have honours := front.honours_own fresh hy leaves
    refine ⟨iff_of_true honours ?_, fun h => absurd honours h⟩
    intro y' hy' j p report leaves' _
    exact (front.leavesPass_unique fresh hy hy' leaves leaves').1.symm

/-! ## A container that does not stop -/

/-- A plan that hands over a container that cannot be stopped. -/
def Plan.lasting : Plan where
  init := fun _ => .done (.ok ⟨[⟨.postgres, "db", "c1", "postgres://db",
    some ⟨0, "db", "c1", some .postgres, .fail (.of .os "busy")⟩⟩], .settings {}⟩)

/-- The report on this container. -/
def lastingReport : TeardownReport := ⟨[], [⟨"db", "c1", "busy"⟩]⟩

/-- A setup and a strict teardown up to its answer. -/
def lastingTeardown : List Action :=
  .enter (.setup Plan.lasting) :: List.replicate 8 (.caller 0 (.go 0)) ++
    .enter (.teardown true) :: List.replicate 15 (.caller 1 (.go 0))

/-- A setup and a teardown, with a strict teardown that comes in between and one that comes after,
up to the answers of both. -/
def sharedTeardown : List Action :=
  .enter (.setup Plan.lasting) :: List.replicate 8 (.caller 0 (.go 0)) ++
    .enter (.teardown false) :: List.replicate 4 (.caller 1 (.go 0)) ++
      .enter (.teardown true) :: .caller 2 (.go 0) :: List.replicate 12 (.caller 1 (.go 0)) ++
        [.caller 2 (.go 0), .enter (.teardown true), .caller 3 (.go 0)]

/-- A new environment. -/
def vacant : Lifecycle := create {} {} false

theorem vacant_fresh : vacant.Fresh := fresh_create rfl rfl _ false 0

/-- The caller that leaves a stop pass with a report. -/
def Moment.left? (x : Moment) : Option (Nat × TeardownReport) :=
  match x.action, x.reached? with
  | .caller i _, some (.clearing _ (.ok report)) => some (i, report)
  | _, _ => none

theorem Moment.left?_eq_some {report : TeardownReport} :
    x.left? = some (i, report) ↔ ∃ p, x.LeavesPass i p (.ok report) := by
  unfold Moment.left?
  constructor
  · intro h
    split at h
    · rename_i m p r ha hr
      cases h
      exact ⟨p, ⟨m, ha⟩, hr⟩
    · cases h
  · rintro ⟨p, ⟨m, ha⟩, hr⟩
    rw [ha, hr]

/-- The report that an answer returns. -/
def returned? : Except Fault Result → Option TeardownReport
  | .ok (.report report) => some report
  | _ => none

/-- With which reports stop passes have been left before a strict teardown is answered, and which
report it returns. -/
def ending? (l : Lifecycle) (as : List Action) (i : Nat) :
    Option (List (Nat × TeardownReport) × Option TeardownReport) := do
  let (u, before) ← Run.replay? l as
  let after ← before.act? (.caller i (.go 0))
  let a ← after.answer? i
  if u.any (Moment.asksStrictly i) then some (u.filterMap Moment.left?, returned? a) else none

theorem of_ending? {as : List Action} {left : List (Nat × TeardownReport)}
    {returned : Option TeardownReport} (h : ending? l as i = some (left, returned)) :
    ∃ u z l' x m a, Run l (u ++ [z]) l' ∧ x ∈ u ∧ x.asksStrictly i = true ∧
      z.action = .caller i m ∧ z.reached? = some (.finished a) ∧
        u.filterMap Moment.left? = left ∧ returned? a = returned := by
  rcases Option.bind_eq_some_iff.1 h with ⟨⟨u, before⟩, replay, h⟩
  rcases Option.bind_eq_some_iff.1 h with ⟨after, act, h⟩
  rcases Option.bind_eq_some_iff.1 h with ⟨a, answer, h⟩
  simp only [Option.ite_none_right_eq_some, Option.some.injEq, Prod.mk.injEq] at h
  rcases h with ⟨any, left, returned⟩
  rcases List.any_eq_true.1 any with ⟨x, hx, asks⟩
  have run : Run l (u ++ [⟨before, .caller i (.go 0), after⟩]) after :=
    .tail (Run.of_replay? replay) act
  refine ⟨u, _, after, x, .go 0, a, run, hx, asks, rfl, ?_, left, returned⟩
  unfold answer? at answer
  split at answer
  · rename_i finished
    cases answer
    exact finished
  · cases answer

/-- The strict teardown has tried to stop the container itself. -/
theorem strict_teardown_raises_of_own_pass :
    vacant.Fresh ∧ ∃ u z l' x m a, Run vacant (u ++ [z]) l' ∧ x ∈ u ∧ x.asksStrictly 1 = true ∧
      z.action = .caller 1 m ∧ z.reached? = some (.finished a) ∧ HonoursStrict u a ∧
        a = .error (incomplete lastingReport.failures) := by
  have facts : ending? vacant lastingTeardown 1 = some ([(1, lastingReport)], none) := by
    decide +kernel
  rcases of_ending? facts with ⟨u, z, l', x, m, a, run, hx, asks, goes, answered, left, -⟩
  have mine (y) (hy : y ∈ u) (j report) (h : y.left? = some (j, report)) : j = 1 := by
    have member := List.mem_filterMap.2 ⟨y, hy, h⟩
    rw [left] at member
    exact (Prod.mk.inj (List.mem_singleton.1 member)).1
  have honours : HonoursStrict u a :=
    (strict_teardown_raises_iff vacant_fresh run hx asks goes answered).1.2
      fun y hy j p report leaves _ => mine y hy j report (Moment.left?_eq_some.2 ⟨p, leaves⟩)
  have member : (1, lastingReport) ∈ u.filterMap Moment.left? := by simp [left]
  rcases List.mem_filterMap.1 member with ⟨y, hy, h⟩
  rcases Moment.left?_eq_some.1 h with ⟨p, leaves⟩
  exact ⟨vacant_fresh, u, z, l', x, m, a, run, hx, asks, goes, answered, honours,
    honours.raises y hy 1 p _ leaves rfl⟩

/-- One strict teardown waits for a lenient one that fails to stop a container, another one comes
after it.  Both return the report with the failure. -/
theorem strict_teardown_returns_failures :
    vacant.Fresh ∧ ∀ i, i = 2 ∨ i = 3 → ∃ u z l' x m a, Run vacant (u ++ [z]) l' ∧ x ∈ u ∧
      x.asksStrictly i = true ∧ z.action = .caller i m ∧ z.reached? = some (.finished a) ∧
        a = .ok (.report lastingReport) ∧ lastingReport.ok = false ∧ ¬ HonoursStrict u a := by
  refine ⟨vacant_fresh, fun i hi => ?_⟩
  have facts : ending? vacant sharedTeardown i =
      some ([(1, lastingReport)], some lastingReport) := by
    rcases hi with rfl | rfl <;> decide +kernel
  rcases of_ending? facts with ⟨u, z, l', x, m, a, run, hx, asks, goes, answered, -, returned⟩
  have report : a = .ok (.report lastingReport) := by
    unfold returned? at returned
    split at returned
    · cases returned
      rfl
    · cases returned
  refine ⟨u, z, l', x, m, a, run, hx, asks, goes, answered, report, rfl, ?_⟩
  intro honours
  cases honours.complete _ report

end Lifecycle
end Testbed

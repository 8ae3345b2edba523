import Testbed.Proofs.Answers
import Testbed.Proofs.Report
import Testbed.Proofs.StopOnce

/-!
# Reports on stop passes

A report splits the capabilities of a stop pass if it names those as stopped whose stop action has
succeeded, and all others as failures.  A pass that comes to its end reports like that.  A report on
an expired bound is put together from the identities that have been used, and a capability is used
when its stop action begins: such a report splits the capabilities only if none of them has been
stopped and either all stop actions have begun or none has.
-/

namespace Testbed

/-- How far a stop action has come. -/
inductive Fate where
  | unstarted
  | running
  | succeeded
  | failed
  deriving DecidableEq

/-- The fate of a stop action, given whether it has begun and how it has ended, if it has. -/
def Fate.of (started : Bool) : Option (Except Fault Unit) → Fate
  | none => if started then .running else .unstarted
  | some (.ok ()) => .succeeded
  | some (.error _) => .failed

/-- Name and container id, which a report gives of a capability that was not stopped. -/
def Capability.label (c : Capability) : String × String := (c.name, c.containerId)

/-- The report names exactly the stop actions that succeeded as stopped and all others as failures,
each as often as it occurs. -/
structure TeardownReport.Splits (r : TeardownReport) (fates : List (Capability × Fate)) :
    Prop where
  stopped : r.stopped.Perm
    ((fates.filter fun q => q.2 = .succeeded).map fun q => q.1.name)
  failures : (r.failures.map fun f => (f.name, f.containerId)).Perm
    ((fates.filter fun q => q.2 ≠ .succeeded).map fun q => q.1.label)

theorem TeardownReport.Splits.append {a b : TeardownReport}
    {fs gs : List (Capability × Fate)} (ha : a.Splits fs) (hb : b.Splits gs) :
    (a.append b).Splits (fs ++ gs) where
  stopped := by
    rw [List.filter_append, List.map_append]
    exact ha.stopped.append hb.stopped
  failures := by
    rw [TeardownReport.append, List.map_append, List.filter_append, List.map_append]
    exact ha.failures.append hb.failures

namespace StopPass

variable {cs : List Capability} {rs : List (Except Fault Unit)} {used used' : List Nat}
  {c : Capability} {p p' : StopPass} {w w' : World} {k : Nat}

/-! ## Fates -/

/-- How the stop actions of a pass have ended so far, in the order of its capabilities. -/
def endings (p : StopPass) : List (Option (Except Fault Unit)) :=
  match p.stage with
  | .stopping children => children.map outcome?
  | .listing results _ | .removing results _ _ => results.map some

/-- The capabilities of a pass with the fates of their stop actions. -/
def fates (p : StopPass) (used : List Nat) : List (Capability × Fate) :=
  (p.capabilities.zip p.endings).map fun q => (q.1, .of (used.contains q.1.identity) q.2)

/-- The program of a capability is about to begin its stop action, or this has begun. -/
inductive Begun (used : List Nat) (c : Capability) : Task (Except Fault Unit) → Prop where
  | logs : Begun used c (stopOne c)
  | claims : Begun used c c.use
  | begun (t : Task (Except Fault Unit)) (h : c.identity ∈ used) : Begun used c t

/-- Each capability of a pass has a program, or a result once all programs have ended. -/
inductive Tracked (used : List Nat) : StopPass → Prop where
  | stopping {cs : List Capability} {sweep : Option String}
      {ts : List (Task (Except Fault Unit))} (h : List.Forall₂ (Begun used) cs ts) :
      Tracked used ⟨cs, sweep, .stopping ts⟩
  | listing {cs : List Capability} {sweep : Option String} {rs : List (Except Fault Unit)}
      (t : Task (Except Fault (List String)))
      (h : List.Forall₂ (fun c _ => c.identity ∈ used) cs rs) :
      Tracked used ⟨cs, sweep, .listing rs t⟩
  | removing {cs : List Capability} {sweep : Option String} {rs : List (Except Fault Unit)}
      (ids : List String) (ts : List (Task (Except Fault Bool)))
      (h : List.Forall₂ (fun c _ => c.identity ∈ used) cs rs) :
      Tracked used ⟨cs, sweep, .removing rs ids ts⟩

theorem Begun.mono {t : Task (Except Fault Unit)} (h : Begun used c t)
    (more : ∀ n ∈ used, n ∈ used') : Begun used' c t := by
  cases h with
  | logs => exact .logs
  | claims => exact .claims
  | begun t h => exact .begun t (more _ h)

theorem Tracked.mono (h : Tracked used p) (more : ∀ n ∈ used, n ∈ used') : Tracked used' p := by
  cases h with
  | stopping h => exact .stopping (h.imp fun _ _ b => b.mono more)
  | listing t h => exact .listing t (h.imp fun _ _ hu => more _ hu)
  | removing ids ts h => exact .removing ids ts (h.imp fun _ _ hu => more _ hu)

theorem tracked_start (sweep : Option String) : Tracked used (start cs sweep) := by
  refine .stopping (List.forall₂_map_right_iff.2 ?_)
  exact List.forall₂_same.2 fun c _ => .logs

theorem Begun.of_outcome {t : Task (Except Fault Unit)} {r : Except Fault Unit}
    (h : Begun used c t) (ended : outcome? t = some r) : c.identity ∈ used := by
  cases h with
  | logs => cases ended
  | claims => cases ended
  | begun t h => exact h

theorem effect_used_mono {call : Call} (h : World.Effect w call w') :
    ∀ n ∈ w.used, n ∈ w'.used :=
  fun _ hn => (Lifecycle.effect_used h).2 (.inl hn)

/-- A program that moves on begins its stop action by the claim of its capability. -/
theorem Begun.next {t t' : Task (Except Fault Unit)} (h : Begun w.used c t)
    (hn : w.next? t = some (t', w')) : Begun w'.used c t' := by
  rcases World.next?_eq_some hn with ⟨call, next, r, ht, hr, rfl⟩
  have effect : World.Effect w call w' := World.effect_of_perform hr
  cases h with
  | logs =>
    rw [Capability.stopOne_eq] at ht
    cases ht
    exact .claims
  | claims =>
    rw [Capability.use_eq] at ht
    cases ht
    -- Whether the claim is granted or not, the identity is used afterwards.
    have claimed : c.identity ∈ w'.used := by
      refine (Lifecycle.effect_used effect).2 ?_
      by_cases hu : c.identity ∈ w.used
      · exact .inl hu
      · exact .inr ⟨hu, c, rfl, rfl⟩
    exact .begun _ claimed
  | begun t hu => exact .begun _ (effect_used_mono effect _ hu)

theorem used_of_outcomes {ts : List (Task (Except Fault Unit))}
    (h : List.Forall₂ (Begun used) cs ts) (ended : outcomes? ts = some rs) :
    List.Forall₂ (fun c _ => c.identity ∈ used) cs rs := by
  refine (forall₂_comp h (outcomes?_eq_some ended)).imp ?_
  rintro c r ⟨t, begun, he⟩
  exact begun.of_outcome he

theorem Tracked.step (h : Tracked w.used p) (hs : p.step? w k = some (p', w')) :
    Tracked w'.used p' := by
  rcases step?_call hs with ⟨call, -, effect⟩
  -- Only the program that moves changes its place, and what is used stays used.
  have more : ∀ n ∈ w.used, n ∈ w'.used := effect_used_mono effect
  cases steps_of_step? hs with
  | stopping hk hn =>
    cases h with
    | stopping all =>
      have others := all.imp fun _ _ begun => Begun.mono begun more
      refine .stopping (forall₂_set others ?_)
      intro c hc
      exact (forall₂_getElem? all hc hk).next hn
  | listing hn =>
    cases h with
    | listing t all => exact .listing _ (all.imp fun _ _ hu => more _ hu)
  | removing hk hn =>
    cases h with
    | removing ids ts all => exact .removing _ _ (all.imp fun _ _ hu => more _ hu)

theorem Tracked.turn (h : Tracked w.used p) (ht : p.turn? w = some (.going p', w')) :
    Tracked w'.used p' := by
  cases turns_of_turn? ht with
  | lists ended =>
    cases h with
    | stopping all => exact .listing _ (used_of_outcomes all ended)
  | sweeps found hi =>
    cases h with
    | listing t all => exact .removing _ _ all

theorem capabilities_of_turn? (h : p.turn? w = some (.going p', w')) :
    p'.capabilities = p.capabilities := by
  cases turns_of_turn? h <;> rfl

theorem capabilities_of_step? (h : p.step? w k = some (p', w')) :
    p'.capabilities = p.capabilities := by
  cases steps_of_step? h <;> rfl

theorem Tracked.endings (h : Tracked used p) :
    List.Forall₂ (fun c o => o.isSome = true → c.identity ∈ used) p.capabilities p.endings := by
  -- A result is only there for an action that has ended; a program tells by itself.
  have results {cs : List Capability} {rs : List (Except Fault Unit)}
      (all : List.Forall₂ (fun c _ => c.identity ∈ used) cs rs) :
      List.Forall₂ (fun c o => o.isSome = true → c.identity ∈ used) cs (rs.map some) := by
    refine List.forall₂_map_right_iff.2 (all.imp ?_)
    intro c r hu _
    exact hu
  cases h with
  | stopping all =>
    refine List.forall₂_map_right_iff.2 (all.imp ?_)
    intro c t begun ended
    rcases Option.isSome_iff_exists.1 ended with ⟨r, hr⟩
    exact begun.of_outcome hr
  | listing t all => exact results all
  | removing ids ts all => exact results all

theorem Tracked.fates_capabilities (h : Tracked used p) :
    (p.fates used).map Prod.fst = p.capabilities := by
  have length : p.capabilities.length = p.endings.length := h.endings.length_eq
  simp [fates, Function.comp_def, List.map_fst_zip length.le]

theorem Tracked.unstarted_iff (h : Tracked used p) {q : Capability × Fate}
    (hq : q ∈ p.fates used) : q.2 = .unstarted ↔ q.1.identity ∉ used := by
  rcases List.mem_map.1 hq with ⟨⟨c, o⟩, hm, rfl⟩
  have known := (List.forall₂_iff_zip.1 h.endings).2 hm
  cases o with
  | none =>
    by_cases hu : c.identity ∈ used
    · simp [Fate.of, hu]
    · simp [Fate.of, hu]
  | some r =>
    have hu : c.identity ∈ used := known rfl
    rcases r with f | ⟨⟩
    · simp [Fate.of, hu]
    · simp [Fate.of, hu]

/-! ## The report on an expired bound -/

/-- The capabilities that the report on an expired bound names. -/
def pending (cs : List Capability) (used : List Nat) : List Capability :=
  let unused := cs.filter fun c => !used.contains c.identity
  if unused.isEmpty then cs else unused

theorem expiredReport_failures (bound : Option Float) :
    (expiredReport cs used bound).failures.map (fun f => (f.name, f.containerId)) =
      (pending cs used).map Capability.label := by
  simp [expiredReport, pending, Function.comp_def, Capability.label]

theorem pending_eq
    (h : (∀ c ∈ cs, c.identity ∈ used) ∨ ∀ c ∈ cs, c.identity ∉ used) :
    pending cs used = cs := by
  rcases h with all | none
  · have unused : (cs.filter fun c => !used.contains c.identity) = [] := by
      simpa [List.filter_eq_nil_iff] using all
    rw [pending, unused]
    rfl
  · have unused : (cs.filter fun c => !used.contains c.identity) = cs := by
      simpa [List.filter_eq_self] using none
    rw [pending, unused]
    exact ite_self cs

theorem of_length_pending (h : (pending cs used).length = cs.length) :
    (∀ c ∈ cs, c.identity ∈ used) ∨ ∀ c ∈ cs, c.identity ∉ used := by
  -- The report leaves out what is used, unless that is everything.
  unfold pending at h
  simp only at h
  split at h
  · rename_i unused
    refine .inl ?_
    simpa [List.filter_eq_nil_iff] using unused
  · refine .inr ?_
    simpa [List.length_filter_eq_length_iff] using h

/-- The report on an expired bound splits the capabilities only if no stop action has succeeded and
either all of them have begun or none has. -/
theorem expiredReport_splits_iff {fates : List (Capability × Fate)} (bound : Option Float)
    (unstarted : ∀ q ∈ fates, q.2 = .unstarted ↔ q.1.identity ∉ used) :
    (expiredReport (fates.map Prod.fst) used bound).Splits fates ↔
      (∀ q ∈ fates, q.2 ≠ .succeeded) ∧
        ((∀ q ∈ fates, q.2 ≠ .unstarted) ∨ ∀ q ∈ fates, q.2 = .unstarted) := by
  have others (none : ∀ q ∈ fates, q.2 ≠ .succeeded) :
      (fates.filter fun q => q.2 ≠ .succeeded) = fates := by
    simpa [List.filter_eq_self] using none
  -- Which capabilities the report names depends on what is used, which is what has begun.
  have used_iff :
      ((∀ c ∈ fates.map Prod.fst, c.identity ∈ used) ∨
        ∀ c ∈ fates.map Prod.fst, c.identity ∉ used) ↔
      ((∀ q ∈ fates, q.2 ≠ .unstarted) ∨ ∀ q ∈ fates, q.2 = .unstarted) := by
    simp only [List.forall_mem_map]
    refine or_congr ?_ ?_
    · refine forall₂_congr fun q hq => ?_
      rw [ne_eq, unstarted q hq, not_not]
    · refine forall₂_congr fun q hq => ?_
      rw [unstarted q hq]
  constructor
  · intro splits
    -- The report names nothing as stopped, so no action may have succeeded.
    have none : ∀ q ∈ fates, q.2 ≠ .succeeded := by
      have empty := List.nil_perm.1 splits.stopped
      simpa [List.filter_eq_nil_iff] using empty
    refine ⟨none, used_iff.1 (of_length_pending ?_)⟩
    -- By their number, all capabilities are among the failures.
    have length := splits.failures.length_eq
    rw [expiredReport_failures, others none] at length
    simpa using length
  · rintro ⟨none, both⟩
    refine ⟨?_, ?_⟩
    · have empty : (fates.filter fun q => q.2 = .succeeded) = [] := by
        simpa [List.filter_eq_nil_iff] using none
      rw [empty]
      exact List.Perm.refl _
    · rw [expiredReport_failures, others none, pending_eq (used_iff.2 both), List.map_map]
      exact List.Perm.refl _

/-! ## The report on a pass that comes to its end -/

theorem reportOne_splits (c : Capability) (started : Bool) (r : Except Fault Unit) :
    (reportOne c.name c.containerId r).Splits [(c, .of started (some r))] := by
  rcases r with f | ⟨⟩
  · exact ⟨.refl _, .refl _⟩
  · exact ⟨.refl _, .refl _⟩

theorem report_splits (cs : List Capability) (rs : List (Except Fault Unit)) (used : List Nat) :
    (report cs rs).Splits ((cs.zip (rs.map some)).map fun q =>
      (q.1, .of (used.contains q.1.identity) q.2)) := by
  -- By induction on the results, for a report that splits what has been reported so far.
  have collected (qs : List (Capability × Except Fault Unit)) (r : TeardownReport)
      (fs : List (Capability × Fate)) (hr : r.Splits fs) :
      (qs.foldl (fun r q => r.append (reportOne q.1.name q.1.containerId q.2)) r).Splits
        (fs ++ qs.map fun q => (q.1, .of (used.contains q.1.identity) (some q.2))) := by
    induction qs generalizing r fs with
    | nil => simpa using hr
    | cons q qs ih =>
      have next := ih _ _ (hr.append (reportOne_splits q.1 (used.contains q.1.identity) q.2))
      simpa using next
  have all := collected (cs.zip rs) {} [] ⟨.refl _, .refl _⟩
  simpa [report, List.zip_map_right, Function.comp_def] using all

/-- If the pass comes to its end, then the part of its report on capabilities splits these. -/
theorem ended_report_splits {r : TeardownReport} (used : List Nat)
    (h : p.turn? w = some (.ended (.ok r), w')) :
    ∃ base swept : TeardownReport, r = base.append swept ∧ base.Splits (p.fates used) ∧
      (swept = {} ∨ ∃ ids removed, swept = sweptReport ids removed) := by
  cases turns_of_turn? h with
  | @reports cs ts rs ended =>
    have endings : StopPass.endings ⟨cs, none, .stopping ts⟩ = rs.map some := by
      have all := outcomes?_eq_some ended
      have equal : List.Forall₂ (· = ·) (ts.map outcome?) (rs.map some) :=
        List.forall₂_map_left_iff.2 (List.forall₂_map_right_iff.2 all)
      rw [List.forall₂_eq_eq_eq] at equal
      exact equal
    refine ⟨report cs rs, {}, by simp [TeardownReport.append], ?_, .inl rfl⟩
    rw [fates, endings]
    exact report_splits cs rs used
  | @sums cs sweep rs ids ts removed log ended =>
    exact ⟨report cs rs, sweptReport ids removed, rfl, report_splits cs rs used,
      .inr ⟨ids, removed, rfl⟩⟩

end StopPass

namespace Lifecycle

variable {l l' n : Lifecycle} {s s' : Stage} {m : Move} {i : Nat} {tr u v : List Moment}
  {x : Moment} {p : Purpose} {pass : StopPass}

/-! ## Every run -/

/-- The capabilities were handed over when the ledger was drained. -/
def HandedOver (tr : List Moment) (cs : List Capability) : Prop :=
  ∃ y ∈ tr, y.drains = true ∧ cs = y.before.world.ledger.entries.reverse

/-- What is known about the stop pass of a caller. -/
def PassKnown (tr : List Moment) (used : List Nat) : Stage → Prop
  | .confirming _ cs => HandedOver tr cs
  | .stopping _ pass => HandedOver tr pass.capabilities ∧ pass.Tracked used
  | _ => True

theorem HandedOver.append {cs : List Capability} (h : HandedOver tr cs) (x : Moment) :
    HandedOver (tr ++ [x]) cs := by
  rcases h with ⟨y, hy, hd, he⟩
  exact ⟨y, List.mem_append_left _ hy, hd, he⟩

theorem PassKnown.append {used used' : List Nat} (h : PassKnown tr used s) (x : Moment)
    (more : ∀ n ∈ used, n ∈ used') : PassKnown (tr ++ [x]) used' s := by
  cases s with
  | confirming p cs => exact HandedOver.append h x
  | stopping p pass => exact ⟨h.1.append x, h.2.mono more⟩
  | _ => trivial

theorem PassKnown.turn (h : PassKnown tr l.world.used s) (turn : Turn l s m s' n)
    (drains : ∀ p, s = .draining p →
      HandedOver (tr ++ [x]) l.world.ledger.entries.reverse) :
    PassKnown (tr ++ [x]) n.world.used s' := by
  cases turn
  case drain p k log => exact drains p rfl
  case confirm p cs k running => exact ⟨HandedOver.append h x, StopPass.tracked_start _⟩
  case confirmAnew p cs k log none => exact ⟨HandedOver.append h x, StopPass.tracked_start _⟩
  case passGoes p pass pass' k w ht =>
    have handed : HandedOver (tr ++ [x]) pass'.capabilities := by
      rw [StopPass.capabilities_of_turn? ht]
      exact h.1.append x
    exact ⟨handed, h.2.turn ht⟩
  case passSteps p pass pass' k w idle hs =>
    have handed : HandedOver (tr ++ [x]) pass'.capabilities := by
      rw [StopPass.capabilities_of_step? hs]
      exact h.1.append x
    exact ⟨handed, h.2.step hs⟩
  all_goals trivial

theorem Run.passKnown (fresh : l.Fresh) (run : Run l tr l') (hs : l'.callers[i]? = some s) :
    PassKnown tr l'.world.used s := by
  -- By induction on the run, for all callers: the pass of one is moved by that one only.
  induction run generalizing i s with
  | refl => simp [fresh.callers] at hs
  | @tail tr m n a run h ih =>
    rcases (change_of_act? h).callers hs with hm | ⟨d, -, rfl⟩ | ⟨mv, t, n', rfl, ht, turn, he⟩
    · refine (ih hm).append _ ?_
      intro k hk
      exact (Moment.used_iff (x := ⟨m, a, n⟩) h).2 (.inl hk)
    · trivial
    · have world : n.world = n'.world := by rw [he]
      rw [world]
      refine (ih ht).turn turn ?_
      rintro p rfl
      exact ⟨⟨m, .caller i mv, n⟩, by simp, by simp [Moment.drains, Moment.stage?, ht], rfl⟩

/-- What is reported on a stop pass when its bound expires at a moment. -/
structure ReportsExpiry (l : Lifecycle) (i : Nat) (u : List Moment) (x : Moment) (p : Purpose)
    (pass : StopPass) (r : TeardownReport) : Prop where
  /-- The caller leaves the pass with the report. -/
  reached : x.reached? = some (.clearing p (.ok r))
  /-- The pass has the capabilities that were drained. -/
  drained : HandedOver u pass.capabilities
  /-- Each of them has one fate. -/
  fates : (pass.fates x.before.world.used).map Prod.fst = pass.capabilities
  /-- The caller is answered with the report. -/
  answer : ∀ a, l.callers[i]? = some (.finished a) → a = p.answer (.ok r)
  /-- The report splits the capabilities exactly if no stop action has succeeded, and either all of
  them have begun or none has. -/
  splits : r.Splits (pass.fates x.before.world.used) ↔
    (∀ q ∈ pass.fates x.before.world.used, q.2 ≠ .succeeded) ∧
      ((∀ q ∈ pass.fates x.before.world.used, q.2 ≠ .unstarted) ∨
        ∀ q ∈ pass.fates x.before.world.used, q.2 = .unstarted)

/-- Whenever the bound of a stop pass expires, and however far its stop actions have come. -/
theorem expiry_is_reported (fresh : l.Fresh) (run : Run l (u ++ x :: v) l')
    (expires : x.action = .caller i .expire)
    (hs : x.before.callers[i]? = some (.stopping p pass)) :
    ReportsExpiry l' i u x p pass (x.before.expiredReport pass) := by
  rcases run.at_moment with ⟨front, act, -⟩
  rcases front.passKnown fresh hs with ⟨handed, tracked⟩
  have hx : x.stage? = some (.stopping p pass) := (Moment.stage?_caller expires).trans hs
  have reached : x.reached? = some (.clearing p (.ok (x.before.expiredReport pass))) := by
    rcases x.turn act hx with ⟨j, m, s', n, ha, -, turn, -, hr⟩
    cases expires.symm.trans ha
    cases turn with
    | passExpired => exact hr
  have fates : (pass.fates x.before.world.used).map Prod.fst = pass.capabilities :=
    tracked.fates_capabilities
  refine ⟨reached, handed, fates, ?_, ?_⟩
  · intro a answered
    exact run.answered fresh expires reached answered
  · -- A report only tells what has been claimed, and a claim is where a stop action begins.
    rw [expiredReport, ← fates]
    exact StopPass.expiredReport_splits_iff _ fun q hq => tracked.unstarted_iff hq

/-! ## Two containers, one of which does not stop -/

/-- A plan that hands over a container that does not stop and one with a given stop action. -/
def Plan.stuck (stop : StopAction) : Plan where
  init := fun _ => .done (.ok ⟨[
    ⟨.postgres, "db", "c1", "postgres://db", some ⟨0, "db", "c1", some .postgres, stop⟩⟩,
    ⟨.keycloak, "sso", "c2", "http://sso", some ⟨1, "sso", "c2", some .keycloak, .hang⟩⟩],
    .settings {}⟩)

/-- A setup and a teardown whose bound expires after both stop actions have begun. -/
def stuckTeardown (stop : StopAction) : List Action :=
  .enter (.setup (Plan.stuck stop)) :: List.replicate 8 (.caller 0 (.go 0)) ++
    .enter (.teardown false) :: List.replicate 7 (.caller 1 (.go 0)) ++
      List.replicate 3 (.caller 1 (.go 1)) ++ [.caller 1 .expire]

/-- An environment with a bound for its teardown. -/
def bounded : Lifecycle := create {} { teardownTimeout := some 0.5 } false

/-- The names, fates and report of a stop pass whose bound expires. -/
def Moment.expiry? (x : Moment) : Option (List (String × Fate) × List String × List String) :=
  match x.action, x.stage? with
  | .caller 1 .expire, some (.stopping (.teardown false) pass) =>
    let report := x.before.expiredReport pass
    some ((pass.fates x.before.world.used).map fun q => (q.1.name, q.2), report.stopped,
      report.failures.map StopFailure.name)
  | _, _ => none

theorem bounded_fresh : bounded.Fresh := fresh_create rfl rfl _ false 0

theorem stuck_expires {stop : StopAction} {e : List (String × Fate) × List String × List String}
    (h : ((Run.replay? bounded (stuckTeardown stop)).bind fun r =>
      r.1[20]?.bind Moment.expiry?) = some e) :
    ∃ u x v l' pass, Run bounded (u ++ x :: v) l' ∧ x.action = .caller 1 .expire ∧
      x.before.callers[1]? = some (.stopping (.teardown false) pass) ∧
        (pass.fates x.before.world.used).map (fun q => (q.1.name, q.2)) = e.1 ∧
          (x.before.expiredReport pass).stopped = e.2.1 := by
  rcases Option.bind_eq_some_iff.1 h with ⟨⟨tr, l'⟩, hr, found⟩
  rcases Option.bind_eq_some_iff.1 found with ⟨x, hx, expiry⟩
  have run : Run bounded tr l' := Run.of_replay? hr
  rcases List.append_of_mem (List.mem_of_getElem? hx) with ⟨u, v, rfl⟩
  unfold Moment.expiry? at expiry
  split at expiry
  · rename_i pass expires hs
    cases expiry
    have before := (Moment.stage?_caller expires).symm.trans hs
    exact ⟨u, x, v, l', pass, run, expires, before, rfl, rfl⟩
  · cases expiry

/-- If neither stop action comes to its end, then the report splits the capabilities. -/
theorem expiry_is_reported_of_stuck :
    bounded.Fresh ∧ ∃ u x v l' pass, Run bounded (u ++ x :: v) l' ∧
      x.action = .caller 1 .expire ∧
        x.before.callers[1]? = some (.stopping (.teardown false) pass) ∧
          (pass.fates x.before.world.used).map (fun q => (q.1.name, q.2)) =
            [("sso", .running), ("db", .running)] ∧
          (x.before.expiredReport pass).Splits (pass.fates x.before.world.used) := by
  have facts : ((Run.replay? bounded (stuckTeardown .hang)).bind fun r =>
      r.1[20]?.bind Moment.expiry?) =
      some ([("sso", .running), ("db", .running)], [], ["sso", "db"]) := by
    decide +kernel
  rcases stuck_expires facts with ⟨u, x, v, l', pass, run, expires, hs, fates, -⟩
  refine ⟨bounded_fresh, u, x, v, l', pass, run, expires, hs, fates, ?_⟩
  have running : ∀ q ∈ pass.fates x.before.world.used, q.2 = .running := by
    intro q hq
    have member := List.mem_map_of_mem (f := fun q => (q.1.name, q.2)) hq
    rw [fates] at member
    simp only [List.mem_cons, Prod.mk.injEq, List.not_mem_nil, or_false] at member
    rcases member with ⟨-, h⟩ | ⟨-, h⟩
    · exact h
    · exact h
  refine (expiry_is_reported bounded_fresh run expires hs).splits.2 ⟨?_, .inl ?_⟩
  · intro q hq
    simp [running q hq]
  · intro q hq
    simp [running q hq]

/-- A container has been stopped and the other one not when the bound expires; the report names no
container as stopped. -/
theorem stopped_container_reported_as_failure :
    bounded.Fresh ∧ ∃ u x v l' pass, Run bounded (u ++ x :: v) l' ∧
      x.action = .caller 1 .expire ∧
        x.before.callers[1]? = some (.stopping (.teardown false) pass) ∧
          (pass.fates x.before.world.used).map (fun q => (q.1.name, q.2)) =
            [("sso", .running), ("db", .succeeded)] ∧
          (x.before.expiredReport pass).stopped = [] ∧
            ¬ (x.before.expiredReport pass).Splits (pass.fates x.before.world.used) := by
  have facts : ((Run.replay? bounded (stuckTeardown .succeed)).bind fun r =>
      r.1[20]?.bind Moment.expiry?) =
      some ([("sso", .running), ("db", .succeeded)], [], ["sso", "db"]) := by
    decide +kernel
  rcases stuck_expires facts with ⟨u, x, v, l', pass, run, expires, hs, fates, stopped⟩
  refine ⟨bounded_fresh, u, x, v, l', pass, run, expires, hs, fates, stopped, ?_⟩
  intro splits
  have named := splits.stopped
  rw [stopped] at named
  have none := List.nil_perm.1 named
  -- The container that was stopped is missing in the report.
  have member : ("db", Fate.succeeded) ∈
      (pass.fates x.before.world.used).map fun q => (q.1.name, q.2) := by
    simp [fates]
  rcases List.mem_map.1 member with ⟨q, hq, he⟩
  simp only [List.map_eq_nil_iff, List.filter_eq_nil_iff, decide_eq_true_eq] at none
  exact none q hq (Prod.mk.inj he).2

end Lifecycle
end Testbed

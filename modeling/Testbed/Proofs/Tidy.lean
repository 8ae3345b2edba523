import Testbed.Proofs.Conduct
import Testbed.Proofs.Ledger
import Testbed.Proofs.Provisioner
import Testbed.Proofs.Staffing

/-!
# Tidy plans

A plan is tidy if every capability that it records or hands over removes its container, and if it
leaves the runtime alone; a plan that handles containers through the provisioner is.  Whatever else
tidy plans do: when the ledger is drained nothing that was left behind runs any more, and the ledger
holds all capabilities that were ever recorded.
-/

namespace Testbed

/-- The call does not record a capability that does anything else than remove its container, and
does not shut down the runtime. -/
def Call.Tidy (c : Call) : Prop :=
  c ≠ .shutdownRuntime ∧ ∀ k, c = .record k → k.action = .remove

/-- The capabilities that are handed over remove their containers. -/
def Delivery.Tidy (d : Delivery) : Prop :=
  ∀ h ∈ d.handles, ∀ c, h.stop = some c → c.action = .remove

/-- Both parts of a plan only make tidy calls, and what the first hands over is tidy. -/
structure Plan.Tidy (p : Plan) : Prop where
  init : ∀ v, (p.init v).Gives Call.Tidy Delivery.Tidy
  after : ∀ f, p.after = some f → ∀ s, (f s).Gives Call.Tidy fun _ => True

/-- The calls of the provisioner are tidy. -/
theorem Call.tidy_of_provisions {session : String} {c : Call} (h : c.Provisions session) :
    c.Tidy := by
  refine ⟨?_, ?_⟩
  · rintro rfl
    exact h
  · rintro k rfl
    exact h

/-- A plan that only makes calls of the provisioner and hands over what it got is tidy. -/
theorem Plan.tidy_of_provisions {p : Plan}
    (init : ∀ v : Provisioner, (p.init v).Gives (Call.Provisions v.session) fun d =>
      ∀ h ∈ d.handles, h.Stoppable)
    (after : ∀ f, p.after = some f → ∀ s,
      ∃ session, (f s).Gives (Call.Provisions session) fun _ => True) : p.Tidy where
  init := by
    intro v
    have tidy : (p.init v).Gives Call.Tidy fun d => ∀ h ∈ d.handles, h.Stoppable :=
      (init v).weaken fun _ => Call.tidy_of_provisions
    refine tidy.mono ?_
    intro d hd h hh c hc
    rcases hd h hh with ⟨k, hk, hr, -⟩
    cases hk.symm.trans hc
    exact hr
  after := by
    intro f hf s
    rcases after f hf s with ⟨session, h⟩
    exact Task.Follows.weaken h fun _ => Call.tidy_of_provisions

/-- A program that is left of a tidy plan. -/
abbrev Task.Tidy (t : Task (Except Fault Unit)) : Prop := Work.Gives Call.Tidy (fun _ => True) t

/-- A tidy program on a runtime that is shutting down. -/
abbrev Victim.Tidy (v : Victim) : Prop := v.Makes Call.Tidy

/-- Tidy work that was left behind, which is never a stop pass. -/
def Leftover.Tidy : Leftover → Prop
  | .work t => t.Tidy
  | .pass _ => False

/-- What runs for a caller, or is going to, is tidy. -/
def Stage.Tidy : Stage → Prop
  | .asking (.setup p) | .starting p => p.Tidy
  | .initializing p t => p.Tidy ∧ Work.Gives Call.Tidy Delivery.Tidy t
  | .publishing p d => p.Tidy ∧ d.Tidy
  | .finishing t => t.Tidy
  | .halting victims (.drain _) => ∀ v ∈ victims, v.Tidy
  | _ => True

/-- A part of the plan runs for the caller, or has just ended. -/
def Stage.isRunning : Stage → Bool
  | .initializing .. | .publishing .. | .finishing _ => true
  | _ => false

/-- What follows the shutdown of a runtime comes after the drain. -/
def Afterwards.isLate : Afterwards → Bool
  | .drain _ => false
  | .announce .. => true

/-- The caller has drained the ledger. -/
def Stage.isLate : Stage → Bool
  | .confirming .. | .stopping .. | .clearing .. | .closing .. | .releasing ..
  | .disconnecting .. | .announcing .. | .answering .. => true
  | .halting _ next => next.isLate
  | _ => false

/-- The caller waits for the programs of a runtime. -/
def Stage.isHalting : Stage → Bool
  | .halting .. => true
  | _ => false

namespace Lifecycle

/-- What holds before the ledger is drained while all plans are tidy. -/
structure Tidy (l : Lifecycle) : Prop where
  stages : ∀ (i : Nat) (s : Stage), l.callers[i]? = some s → s.Tidy
  leftovers : ∀ o ∈ l.leftovers, o.Tidy
  entries : ∀ c ∈ l.world.ledger.entries, c.action = .remove
  /-- The runtime that is held takes calls. -/
  opened : l.held = true → l.world.workersOpen = true
  running : ∀ (i : Nat) (s : Stage), l.callers[i]? = some s → s.isRunning = true →
    l.held = true
  halting : ∀ (i : Nat) (s : Stage), l.callers[i]? = some s → s.isHalting = true →
    l.held = false
  /-- Work is left behind only until the runtime is shut down. -/
  left : l.leftovers = [] ∨
    l.held = true ∧ ∃ (i : Nat) (f : Fault), l.callers[i]? = some (.failing f)

theorem Fresh.tidy {l : Lifecycle} (h : l.Fresh) : l.Tidy where
  stages := by simp [h.callers]
  leftovers := by simp [h.leftovers]
  entries := by simp [h.ledger]
  opened := by simp [h.held]
  running := by simp [h.callers]
  halting := by simp [h.callers]
  left := .inl h.leftovers

/-! ## Calls of tidy programs -/

/-- The call of a tidy stage is tidy. -/
theorem Stage.Tidy.call {s : Stage} {m : Move} {c : Call} (h : s.Tidy) (early : s.isLate = false)
    (hc : s.call? m = some c) : c.Tidy := by
  unfold Stage.call? at hc
  split at hc
  · exact Task.Follows.allows h.2 hc
  · exact Task.Follows.allows h hc
  · cases early
  · cases early
  · rename_i vs next k
    cases next with
    | drain f => exact Victim.makes_call h hc
    | announce p r => cases early
  · rename_i vs next k
    cases next with
    | drain f => exact Victim.makes_call h (Option.mem_filter_iff.1 hc).1
    | announce p r => cases early
  · cases hc

/-! ## Every field is kept -/

section

variable {l n : Lifecycle} {s s' : Stage} {m : Move} {i : Nat}

/-- The programs that are cancelled with a runtime are tidy. -/
theorem Tidy.victims (h : l.Tidy) : ∀ v ∈ l.victims, v.Tidy := by
  intro v hv
  rcases List.mem_flatMap.1 hv with ⟨o, ho, hv⟩
  have ht := h.leftovers o ho
  cases o with
  | work t =>
    rcases List.mem_singleton.1 hv with rfl
    exact ht
  | pass p => exact ht.elim

/-- A runtime that shuts down goes on with programs that make the same calls, until none is left. -/
theorem Turn.halts {P : Call → Prop} {vs : List Victim} {next : Afterwards}
    (turn : Turn l (.halting vs next) m s' n) (h : ∀ v ∈ vs, v.Makes P) :
    (∃ vs', s' = .halting vs' next ∧ ∀ v ∈ vs', v.Makes P) ∨
      (∃ f, next = .drain f ∧ s' = .draining (.failure f)) ∨
        ∃ p r, next = .announce p r ∧ s' = .announcing p r := by
  cases turn with
  | haltedFailing f => exact .inr (.inl ⟨f, rfl, rfl⟩)
  | halted p r => exact .inr (.inr ⟨p, r, rfl, rfl⟩)
  | victimDone _ _ k => exact .inl ⟨_, rfl, fun v hv => h v (List.mem_of_mem_eraseIdx hv)⟩
  | victimDies _ _ k hk hn =>
    have goes : Victim.Makes P (.dying _) := Work.Gives.next (h _ (List.mem_of_getElem? hk)) hn
    exact .inl ⟨_, rfl, Victim.makes_set h goes⟩
  | victimGoes _ _ k hk hn =>
    have goes : Victim.Makes P (.waiting _) := Work.Gives.next (h _ (List.mem_of_getElem? hk)) hn
    exact .inl ⟨_, rfl, Victim.makes_set h goes⟩
  | victimCancelled _ _ k landed hk hn =>
    have goes : Victim.Makes P (.dying _) := Work.Gives.cancel (h _ (List.mem_of_getElem? hk)) hn
    exact .inl ⟨_, rfl, Victim.makes_set h goes⟩

theorem Tidy.stage_turn (h : l.Tidy) (hs : l.callers[i]? = some s) (turn : Turn l s m s' n)
    (early : s.isLate = false) : s'.Tidy := by
  have ht := h.stages i s hs
  have halting {vs : List Victim} {next : Afterwards} (he : s = .halting vs next) : s'.Tidy := by
    subst he
    cases next with
    | announce p r => cases early
    | drain f =>
      rcases turn.halts ht with ⟨vs', rfl, tidy⟩ | ⟨g, -, rfl⟩ | ⟨p, r, other, -⟩
      · exact tidy
      · trivial
      · cases other
  -- The programs come from the plan, and those that are cancelled from what was left behind.
  cases turn
  case begin => exact ht
  case launch => exact ⟨ht, ht.init _⟩
  case init hn => exact ⟨ht.1, Work.Gives.next ht.2 hn⟩
  case initDone d => exact ⟨ht.1, ht.2 d rfl⟩
  case publishThen hp ha running => exact ht.1.after _ ha _
  case finish hn => exact Work.Gives.next ht hn
  case failHalting => exact h.victims
  case victimDone => exact halting rfl
  case victimDies => exact halting rfl
  case victimGoes => exact halting rfl
  case victimCancelled => exact halting rfl
  all_goals trivial

theorem Tidy.leftover_turn (h : l.Tidy) (hs : l.callers[i]? = some s) (turn : Turn l s m s' n)
    (early : s.isLate = false) : ∀ o ∈ n.leftovers, o.Tidy := by
  have ht := h.stages i s hs
  have add {t' : Task (Except Fault Unit)} (ht' : t'.Tidy) :
      ∀ o ∈ l.leftovers ++ [.work t'], o.Tidy := by
    intro o ho
    rcases List.mem_append.1 ho with ho | ho
    · exact h.leftovers o ho
    · rcases List.mem_singleton.1 ho with rfl
      exact ht'
  cases turn
  case initExpired hu => exact add ((Task.Follows.unfinished ht.2 hu).mono fun _ _ _ _ _ => trivial)
  case finishExpired hu => exact add ((Task.Follows.unfinished ht hu).mono fun _ _ _ _ _ => trivial)
  case passExpired => cases early
  case failHalting => exact nofun
  case releaseHalting => cases early
  case disconnected => cases early
  case disconnectExpired => cases early
  all_goals exact h.leftovers

end

/-! ## Every change -/

section

variable {l n l' : Lifecycle} {a : Action} {tr u v : List Moment} {x : Moment} {c : Capability}

/-- No caller has drained the ledger. -/
def Early (l : Lifecycle) : Prop :=
  ∀ (i : Nat) (s : Stage), l.callers[i]? = some s → s.isLate = false

/-- The plan that an action asks to set up is tidy. -/
def Action.Tidy (a : Action) : Prop := ∀ p, a = .enter (.setup p) → p.Tidy

theorem Tidy.leftover_call (h : l.Tidy) {o : Leftover} {k j : Nat} {call : Call}
    (ho : l.leftovers[j]? = some o) (hc : o.call? k = some call) : call.Tidy := by
  have ht := h.leftovers o (List.mem_of_getElem? ho)
  cases o with
  | work t => exact Task.Follows.allows ht hc
  | pass p => exact ht.elim

theorem Tidy.call (h : l.Tidy) (early : l.Early) {call : Call} (hc : l.call? a = some call) :
    call.Tidy := by
  cases a with
  | caller i m =>
    rcases Option.bind_eq_some_iff.1 hc with ⟨s, hs, hc⟩
    exact Stage.Tidy.call (h.stages i s hs) (early i s hs) hc
  | leftover j k =>
    rcases Option.bind_eq_some_iff.1 hc with ⟨o, ho, hc⟩
    exact h.leftover_call ho hc
  | _ => cases hc

/-- A capability that is recorded removes its container. -/
theorem Tidy.records (h : l.Tidy) (early : l.Early) (hr : l.Records a c) : c.action = .remove := by
  rcases hr with hc | ⟨i, m, p, d, hd, -, hs, hm, hc⟩
  · exact (h.call early hc).2 c rfl
  · exact (h.stages i _ hs).2 hd hm c hc

theorem Tidy.entries_change (h : l.Tidy) (early : l.Early) (hc : Change l a n) :
    ∀ c ∈ n.world.ledger.entries, c.action = .remove := by
  intro c hm
  rcases hc.ledger with ⟨cs, hr, he⟩ | ⟨i, m, p, -, -, he⟩
  · rw [he] at hm
    rcases Ledger.of_mem_recordAll hm with hm | hm
    · exact h.entries c hm
    · exact h.records early (hr c hm)
  · rw [he] at hm
    cases hm

theorem Tidy.stages_change (h : l.Tidy) (early : l.Early) (hc : Change l a n) (ha : a.Tidy)
    (i : Nat) (s : Stage) (hs : n.callers[i]? = some s) : s.Tidy := by
  rcases hc.callers hs with hs | ⟨d, rfl, rfl⟩ | ⟨m, t, n', -, ht, turn, -⟩
  · exact h.stages i s hs
  · cases d with
    | setup p => exact ha p rfl
    | _ => trivial
  · exact h.stage_turn ht turn (early i t ht)

theorem Tidy.leftovers_change (h : l.Tidy) (early : l.Early) (hc : Change l a n) :
    ∀ o ∈ n.leftovers, o.Tidy := by
  intro o ho
  rcases hc.leftover ho with old | ⟨o', old, advances⟩ | ⟨i, m, s, s', n', -, hs, turn, rfl⟩
  · exact h.leftovers o old
  · cases advances with
    | work ht => exact Work.Gives.next (h.leftovers _ old) ht
    | goes ht => exact (h.leftovers _ old).elim
    | steps ht => exact (h.leftovers _ old).elim
  · exact h.leftover_turn hs turn (early i s hs) o ho

/-! ## The runtime of tidy plans -/

theorem Stage.holds?_of_isRunning {s : Stage} (h : s.isRunning = true) :
    s.holds? = some true := by
  cases s <;> first | rfl | cases h

theorem Stage.holds?_of_isHalting {s : Stage} (h : s.isHalting = true) :
    s.holds? = some false := by
  cases s <;> first | rfl | cases h

/-- Before the drain a runtime is held by a part of a plan, and given up when it is shut down. -/
theorem Stage.of_holds? {s : Stage} {b : Bool} (early : s.isLate = false)
    (h : s.holds? = some b) : b = true ∧ s.isRunning = true ∨ b = false ∧ s.isHalting = true := by
  cases s <;> cases h <;> first | exact .inl ⟨rfl, rfl⟩ | exact .inr ⟨rfl, rfl⟩ | cases early

theorem Tidy.staffed (h : l.Tidy) (early : l.Early) : l.Staffed where
  opened := h.opened
  stages := by
    intro i s b hs hb
    rcases Stage.of_holds? (early i s hs) hb with ⟨rfl, running⟩ | ⟨rfl, halting⟩
    · exact h.running i s hs running
    · exact h.halting i s hs halting
  left := h.left.imp_right fun ⟨held, i, f, hs⟩ => ⟨i, .failing f, hs, held⟩

/-- A caller that is late has drained the ledger. -/
theorem Turn.of_late {s s' : Stage} {m : Move} (h : Turn l s m s' n) (hs : s'.isLate = true) :
    s.isLate = true ∨ ∃ p, s = .draining p := by
  cases h
  case drain p k log => exact .inr ⟨p, rfl⟩
  all_goals first | exact .inl rfl | exact .inl hs

/-- Until the ledger is drained, work is only left behind by a setup that has just failed. -/
theorem Early.left (early : l.Early) (hc : Change l a n) (staffed : n.Staffed) :
    n.leftovers = [] ∨
      n.held = true ∧ ∃ (i : Nat) (f : Fault), n.callers[i]? = some (.failing f) := by
  rcases staffed.left with none | ⟨i, s, hs, leaves⟩
  · exact .inl none
  · have before : s.isLate = false := by
      rcases hc.callers hs with hm | ⟨d, -, rfl⟩ | ⟨m, t, n', -, ht, turn, -⟩
      · exact early i s hm
      · rfl
      · by_contra late
        rcases turn.of_late (by simpa using late) with late | ⟨p, rfl⟩
        · exact Bool.false_ne_true ((early i t ht).symm.trans late)
        · cases turn
          cases leaves
    cases s with
    | failing f => exact .inr ⟨leaves, i, f, hs⟩
    | _ => first | (cases leaves; done) | cases before

/-- Every action keeps an environment tidy until the ledger is drained. -/
theorem Tidy.change (h : l.Tidy) (sound : l.Sound) (early : l.Early) (hc : Change l a n)
    (ha : a.Tidy) : n.Tidy := by
  -- Tidy programs leave the runtime alone.
  have staffed : n.Staffed :=
    (h.staffed early).change sound hc fun call => (h.call early call).1 rfl
  exact
    { stages := h.stages_change early hc ha
      leftovers := h.leftovers_change early hc
      entries := h.entries_change early hc
      opened := staffed.opened
      running := fun i s hs running => staffed.stages hs (Stage.holds?_of_isRunning running)
      halting := fun i s hs halting => staffed.stages hs (Stage.holds?_of_isHalting halting)
      left := early.left hc staffed }

/-! ## Runs -/

/-- Until the ledger is drained no caller is late. -/
theorem Run.early (fresh : l.Fresh) (run : Run l tr l')
    (undrained : ∀ x ∈ tr, x.drains = false) : l'.Early := by
  induction run with
  | refl => simp [Early, fresh.callers]
  | @tail tr m n a run h ih =>
    have ih := ih fun x hx => undrained x (List.mem_append_left _ hx)
    have now := undrained ⟨m, a, n⟩ (by simp)
    intro i s hs
    rcases (change_of_act? h).callers hs with hm | ⟨d, -, rfl⟩ | ⟨mv, t, n', rfl, ht, turn, -⟩
    · exact ih i s hm
    · rfl
    · by_contra late
      rcases turn.of_late (by simpa using late) with late | ⟨p, rfl⟩
      · rw [ih i t ht] at late
        cases late
      · simp [Moment.drains, Moment.stage?, ht] at now

/-- Tidy plans keep the environment tidy until the ledger is drained. -/
theorem Run.tidy (fresh : l.Fresh) (run : Run l tr l') (tidy : ∀ x ∈ tr, x.action.Tidy)
    (undrained : ∀ x ∈ tr, x.drains = false) : l'.Tidy := by
  induction run with
  | refl => exact fresh.tidy
  | @tail tr m n a run h ih =>
    have sub {x : Moment} (hx : x ∈ tr) : x ∈ tr ++ [⟨m, a, n⟩] := List.mem_append_left _ hx
    have early := run.early fresh fun x hx => undrained x (sub hx)
    refine (ih (fun x hx => tidy x (sub hx)) fun x hx => undrained x (sub hx)).change
      (run.sound fresh) early (change_of_act? h) ?_
    exact tidy ⟨m, a, n⟩ (by simp)

/-- Until the ledger is drained it only grows. -/
theorem Run.recorded (run : Run l (u ++ x :: v) l') (undrained : ∀ y ∈ v, y.drains = false)
    (hc : c ∈ x.after.world.ledger.entries) : c ∈ l'.world.ledger.entries := by
  refine run.since (P := fun v n =>
    (∀ y ∈ v, y.drains = false) → c ∈ n.world.ledger.entries) ?_ ?_ undrained
  · exact fun _ _ _ => hc
  · intro v y _ act ih undrained
    have kept := ih fun z hz => undrained z (List.mem_append_left _ hz)
    have now := undrained y (by simp)
    rcases (change_of_act? act).ledger with ⟨cs, -, he⟩ | ⟨i, m, p, ha, hi, -⟩
    · rw [he]
      exact Ledger.mem_recordAll kept
    · simp [Moment.drains, Moment.stage?, ha, hi] at now

/-- When the ledger is drained, nothing that was left behind runs any more. -/
theorem Tidy.leftovers_draining (h : l.Tidy) (sound : l.Sound) {i : Nat} {p : Purpose}
    (hi : l.callers[i]? = some (.draining p)) : l.leftovers = [] := by
  rcases h.left with none | ⟨-, j, f, hj⟩
  · exact none
  · rcases sound.unique hi hj rfl rfl with rfl
    rw [hi] at hj
    cases hj

end

end Lifecycle
end Testbed

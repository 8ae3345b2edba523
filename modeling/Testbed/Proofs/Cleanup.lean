import Testbed.Proofs.Report
import Testbed.Proofs.Tidy

/-!
# After the drain

Once the ledger is drained, nothing but the caller that drained it does anything to the engine.
`Cleanup` says what that caller knows at each of its stages about the containers that are left, and
`Outcome` what its result says about them.
-/

namespace Testbed

/-! ## Calls -/

/-- A call that is made after the drain. -/
def Call.cleansUp : Call → Bool
  | .claim _ | .engine (.listLabelled _) => true
  | c => c.isStop || c.isClose

theorem Call.cleansUp_of_stops {id : String} {c : Call} (h : c.stops id = true) :
    c.cleansUp = true := by
  cases c with
  | engine r => cases r <;> first | rfl | cases h
  | _ => first | rfl | cases h

theorem Call.cleansUp_of_isClose {c : Call} (h : c.isClose = true) : c.cleansUp = true := by
  cases c with
  | engine r => cases r <;> first | rfl | cases h
  | _ => first | rfl | cases h

theorem Call.cleansUp_of_isStop {c : Call} (h : c.isStop = true) : c.cleansUp = true := by
  unfold cleansUp
  split
  · rfl
  · rfl
  · simp [h]

theorem Call.cleansUp_of_listing {filter : String} {c : Call}
    (h : c.isStop = true ∨ c = .engine (.listLabelled filter)) : c.cleansUp = true := by
  rcases h with h | rfl
  · exact cleansUp_of_isStop h
  · rfl

/-- After the drain no container is created. -/
theorem Call.cleansUp_ne_create {c : Call} (h : c.cleansUp = true) (spec : Engine.ContainerSpec) :
    c ≠ .engine (.create spec) := by
  rintro rfl
  cases h

/-- After the drain no capability is recorded. -/
theorem Call.cleansUp_ne_record {c : Call} (h : c.cleansUp = true) (k : Capability) :
    c ≠ .record k := by
  rintro rfl
  cases h

/-- A program on a runtime that only closes the engine client. -/
abbrev Victim.Closes (v : Victim) : Prop := v.Makes fun c => c.isClose = true

/-- The caller has entered the last phase and goes on from there. -/
def Stage.WindsDown : Stage → Prop
  | .releasing .. | .announcing .. | .answering .. | .finished _ => True
  | .disconnecting _ _ t => Work.Gives (fun c => c.isClose = true) (fun _ => True) t
  | .halting victims (.announce ..) => ∀ v ∈ victims, v.Closes
  | _ => False

namespace Lifecycle

/-- The label of the containers of the session. -/
def label (l : Lifecycle) : String × String := (Provisioner.sessionLabel, l.session)

/-- The label query of a stop pass is answered. -/
def Moment.lists (x : Moment) : Bool :=
  match x.stage?, x.call? with
  | some (.stopping ..), some c =>
    (x.before.world.perform c).any fun r => (c.found? r.1).isSome
  | _, _ => false

/-- The sweep of a stop pass asks the engine to remove the container with an id. -/
def Moment.Sweeps (id : String) (x : Moment) : Prop :=
  ∃ p cs sweep rs ids ts force volumes,
    x.stage? = some (.stopping p ⟨cs, sweep, .removing rs ids ts⟩) ∧
      x.call? = some (.engine (.remove id force volumes))

/-! ## What the caller knows -/

section

variable (l : Lifecycle) (p : Purpose) (cs : List Capability) (listed : Prop)

/-- What a result says about the containers that are left: after an answered label query it
accounts for those of the session, and after a teardown for those of the capabilities. -/
structure Outcome (r : Except Fault TeardownReport) : Prop where
  swept : listed → ∃ r', r = .ok r' ∧ ∀ id, l.world.engine.Holds id l.label → r'.Accounts id
  stopped : ∀ strict, p = .teardown strict → ∃ r', r = .ok r' ∧
    (∀ c ∈ cs, l.world.engine.Lacks c.containerId ∨ r'.Accounts c.containerId) ∧
      ∀ id, r'.Accounts id → id ∈ cs.map Capability.containerId

/-- What the caller knows that has drained the capabilities, at each of its stages, given whether
its label query has been answered. -/
inductive Cleanup : Stage → Prop where
  | confirming (hl : ¬ listed) : Cleanup (.confirming p cs)
  | stopping {sweep : Option String} {ts : List (Task (Except Fault Unit))} (hl : ¬ listed)
      (hs : ∀ s, sweep = some s → s = l.session ∧ ∃ f, p = .failure f)
      (ht : RemovingAll l.world.engine (cs.map Capability.containerId) ts) :
      Cleanup (.stopping p ⟨cs, sweep, .stopping ts⟩)
  | listing {sweep : Option String} {rs : List (Except Fault Unit)}
      {t : Task (Except Fault (List String))} {found : Option (List String)} {f : Fault}
      (hp : p = .failure f) (hr : Removed l.world.engine (cs.map Capability.containerId) rs)
      (ht : t.Follows (Rule.listing s!"{l.label.1}={l.label.2}") Answers found)
      (hf : ∀ ids, found = some ids → l.world.engine.Covers l.label ids)
      (hl : listed → found.isSome = true) :
      Cleanup (.stopping p ⟨cs, sweep, .listing rs t⟩)
  | removing {sweep : Option String} {rs : List (Except Fault Unit)} {ids : List String}
      {ts : List (Task (Except Fault Bool))} {f : Fault} (hp : p = .failure f)
      (hr : Removed l.world.engine (cs.map Capability.containerId) rs)
      (ht : RemovingAll l.world.engine ids ts)
      (unknown : ∀ id ∈ ids, id ∉ cs.map Capability.containerId)
      (hf : listed → l.world.engine.Covers l.label (cs.map Capability.containerId ++ ids)) :
      Cleanup (.stopping p ⟨cs, sweep, .removing rs ids ts⟩)
  | clearing {r : Except Fault TeardownReport} (h : Outcome l p cs listed r) :
      Cleanup (.clearing p r)
  | closing {r : Except Fault TeardownReport} (h : Outcome l p cs listed r)
      (hr : ∀ f r', p = .failure f → r = .ok r' → l.report = r') : Cleanup (.closing p r)
  | ended {s : Stage} {r : Except Fault TeardownReport} (h : Outcome l p cs listed r)
      (hr : ∀ r', r = .ok r' → l.report = r') (hp : l.phase = p.target) (hs : s.WindsDown) :
      Cleanup s

end

variable {l n l' : Lifecycle} {p : Purpose} {cs : List Capability} {listed listed' : Prop}
  {s s' : Stage} {m : Move} {c : Call} {id : String} {r : Except Fault TeardownReport}

theorem Outcome.frame (h : Outcome l p cs listed r)
    (engine : n.world.engine.Within l.world.engine) (session : n.session = l.session)
    (hl : listed' → listed) : Outcome n p cs listed' r where
  swept := by
    intro hl'
    rcases h.swept (hl hl') with ⟨r', hr, hs⟩
    refine ⟨r', hr, ?_⟩
    intro id hi
    rw [label, session] at hi
    exact hs id (hi.within engine)
  stopped := by
    intro strict hp
    rcases h.stopped strict hp with ⟨r', hr, hs, own⟩
    exact ⟨r', hr, fun c hc => (hs c hc).imp_left fun h => h.within engine, own⟩

/-- What a caller knows stays true when others move. -/
theorem Cleanup.frame (h : Cleanup l p cs listed s)
    (engine : n.world.engine.Within l.world.engine) (session : n.session = l.session)
    (report : n.report = l.report) (phase : n.phase = l.phase) (hl : listed' → listed) :
    Cleanup n p cs listed' s := by
  -- What is known speaks of the engine, the label, the report and the phase only.
  have label : n.label = l.label := by rw [Lifecycle.label, Lifecycle.label, session]
  cases h with
  | confirming no => exact .confirming (mt hl no)
  | stopping no hs ht =>
    refine .stopping (mt hl no) ?_ (ht.within engine)
    rw [session]
    exact hs
  | listing hp hr ht hf answered =>
    refine .listing hp (hr.within engine) ?_ ?_ fun h => answered (hl h)
    · rw [label]
      exact ht
    · rw [label]
      exact fun ids h => (hf ids h).within engine
  | removing hp hr ht unknown hf =>
    refine .removing hp (hr.within engine) (ht.within engine) unknown ?_
    rw [label]
    exact fun h => (hf (hl h)).within engine
  | clearing h => exact .clearing (h.frame engine session hl)
  | closing h hr => exact .closing (h.frame engine session hl) (report ▸ hr)
  | ended h hr hp hs =>
    exact .ended (h.frame engine session hl) (report ▸ hr) (phase.trans hp) hs

/-! ## The calls of the caller -/

/-- Of the calls of a cleanup, the closing ones come last. -/
theorem WindsDown.call (h : s.WindsDown) (hc : s.call? m = some c) : c.isClose = true := by
  unfold Stage.call? at hc
  split at hc
  · exact h.elim
  · exact h.elim
  · exact h.elim
  · exact Task.Follows.allows h hc
  · rename_i vs next k
    cases next with
    | drain f => exact h.elim
    | announce q r => exact Victim.makes_call h hc
  · rename_i vs next k
    cases next with
    | drain f => exact h.elim
    | announce q r => exact Victim.makes_call h (Option.mem_filter_iff.1 hc).1
  · cases hc

/-- One of several programs that remove containers makes a call for its container. -/
theorem stops_of_removingAll {α : Type} {e : Engine} {ids : List String}
    {ts : List (Task (Except Fault α))} {k : Nat} (ht : RemovingAll e ids ts)
    (hc : ts[k]?.bind Program.call? = some c) : ∃ id ∈ ids, c.stops id = true := by
  rcases Option.bind_eq_some_iff.1 hc with ⟨t, hk, hc⟩
  rcases forall₂_of_getElem? ht hk with ⟨id, hi, gone, -, hf⟩
  exact ⟨id, List.mem_of_getElem? hi, hf.allows hc⟩

/-- What the caller calls for at a stage. -/
theorem Cleanup.call (h : Cleanup l p cs listed s) (hc : s.call? m = some c) :
    (∃ id ∈ cs.map Capability.containerId, c.stops id = true) ∨
      (∃ f, p = .failure f ∧ c.cleansUp = true) ∨ c.isClose = true := by
  cases h with
  | confirming hl => cases m <;> cases hc
  | stopping hl hs ht =>
    cases m with
    | go k => exact .inl (stops_of_removingAll ht hc)
    | _ => cases hc
  | listing hp hr ht hf hl =>
    cases m with
    | go k => exact .inr (.inl ⟨_, hp, Call.cleansUp_of_listing (Task.Follows.allows ht hc)⟩)
    | _ => cases hc
  | removing hp hr ht unknown hf =>
    cases m with
    | go k =>
      rcases stops_of_removingAll ht hc with ⟨id, -, hc⟩
      exact .inr (.inl ⟨_, hp, Call.cleansUp_of_stops hc⟩)
    | _ => cases hc
  | clearing h => cases m <;> cases hc
  | closing h hr => cases m <;> cases hc
  | ended h hr hp hs => exact .inr (.inr (WindsDown.call hs hc))

theorem Cleanup.cleansUp (h : Cleanup l p cs listed s) (hc : s.call? m = some c) :
    c.cleansUp = true := by
  rcases h.call hc with ⟨id, -, hc⟩ | ⟨f, -, hc⟩ | hc
  · exact Call.cleansUp_of_stops hc
  · exact hc
  · exact Call.cleansUp_of_isClose hc

/-- A teardown removes containers of its capabilities only. -/
theorem Cleanup.removes {strict force volumes : Bool}
    (h : Cleanup l (.teardown strict) cs listed s)
    (hc : s.call? m = some (.engine (.remove id force volumes))) :
    id ∈ cs.map Capability.containerId := by
  rcases h.call hc with ⟨i, hi, hc⟩ | ⟨f, hp, -⟩ | hc
  · have he : id = i := by simpa [Call.stops] using hc
    exact he ▸ hi
  · cases hp
  · cases hc

/-- A sweep removes containers that stand for no capability. -/
theorem Cleanup.sweeps {q : Purpose} {cs' : List Capability} {sweep : Option String}
    {rs : List (Except Fault Unit)} {ids : List String} {ts : List (Task (Except Fault Bool))}
    {force volumes : Bool}
    (h : Cleanup l p cs listed (.stopping q ⟨cs', sweep, .removing rs ids ts⟩))
    (hc : Stage.call? (.stopping q ⟨cs', sweep, .removing rs ids ts⟩) m =
      some (.engine (.remove id force volumes))) : id ∉ cs.map Capability.containerId := by
  cases m with
  | go k =>
    cases h with
    | removing hp hr ht unknown hf =>
      rcases stops_of_removingAll ht hc with ⟨i, hi, hc⟩
      have he : id = i := by simpa [Call.stops] using hc
      exact he ▸ unknown i hi
    | ended h hr hp hs => exact hs.elim
  | _ => cases hc

/-! ## The turns of the caller -/

/-- Only a failed setup sweeps, and then its own session. -/
theorem sweepOf_eq_some (l : Lifecycle) :
    ∀ session, l.sweepOf p = some session → session = l.session ∧ ∃ f, p = .failure f := by
  intro session h
  cases p with
  | teardown strict => cases h
  | failure f =>
    simp only [sweepOf] at h
    split at h
    · cases h
      exact ⟨rfl, f, rfl⟩
    · cases h

/-- A pass starts with one program for each capability. -/
theorem removingAll_start (e : Engine) (actions : ∀ c ∈ cs, c.action = .remove) :
    RemovingAll e (cs.map Capability.containerId) (cs.map StopPass.stopOne) := by
  refine List.forall₂_map_left_iff.2 (List.forall₂_map_right_iff.2 ?_)
  refine List.forall₂_same.2 fun c hc => ?_
  exact ⟨False, False.elim, c.stopOne_removal (actions c hc) False⟩

section

variable {pass pass' : StopPass} {q : Purpose} {w : World}

/-- The containers that are swept are not those of the capabilities. -/
theorem mem_leftovers {ids : List String} :
    id ∈ pass.leftovers ids ↔
      id ∈ ids ∧ id ∉ pass.capabilities.map Capability.containerId := by
  simp [StopPass.leftovers]

theorem Cleanup.passGoes (h : Cleanup l p cs listed (.stopping q pass))
    (ht : pass.turn? l.world = some (.going pass', w)) :
    Cleanup { l with world := w } p cs listed (.stopping q pass') := by
  cases h with
  | stopping no hs hr =>
    cases StopPass.turns_of_turn? ht with
    | @lists _ session _ _ ho =>
      rcases hs session rfl with ⟨rfl, f, hp⟩
      refine .listing hp (hr.removed ho) (StopPass.labelled_listing l.session) nofun ?_
      exact fun h => absurd h no
  | @listing _ _ _ found f hp hr hf covers answered =>
    cases StopPass.turns_of_turn? ht with
    | @sweeps _ _ _ _ named ids ho hi =>
      have answers : Answers found (.ok named) := by
        unfold StopPass.outcome? at ho
        split at ho <;> cases ho
        exact hf
      refine .removing hp hr ?_ ?_ ?_
      · refine List.forall₂_map_right_iff.2 (List.forall₂_same.2 fun id _ => ?_)
        exact ⟨False, False.elim, Client.removeContainer_removal id _ _ False⟩
      · intro id hm
        exact (mem_leftovers.1 (hi ▸ hm)).2
      · -- What stands was named by the answer, and is a capability's or has been swept.
        intro hl id hm
        rcases Option.isSome_iff_exists.1 (answered hl) with ⟨named', hn⟩
        cases answers named' hn
        have known := covers named hn id hm
        by_cases hc : id ∈ cs.map Capability.containerId
        · exact List.mem_append_left _ hc
        · exact List.mem_append_right _ (hi ▸ mem_leftovers.2 ⟨known, hc⟩)
  | removing hp hr ht' unknown hf => cases StopPass.turns_of_turn? ht
  | ended h hr hp hs => exact hs.elim

theorem Cleanup.passEnds (h : Cleanup l p cs listed (.stopping q pass))
    (ht : pass.turn? l.world = some (.ended r, w)) :
    Outcome { l with world := w } p cs listed ({ l with world := w }.confirmed pass r) := by
  cases h with
  | stopping no hs hr =>
    cases StopPass.turns_of_turn? ht with
    | reports ho =>
      refine ⟨fun h => absurd h no, fun strict _ => ⟨_, rfl, ?_, ?_⟩⟩
      · exact fun c hc => StopPass.lacks_or_report (hr.removed ho) hc
      · exact fun id hi => StopPass.mem_of_report hi
  | listing hp hr hf covers answered =>
    cases StopPass.turns_of_turn? ht with
    | lost ho =>
      refine ⟨?_, fun strict h => ?_⟩
      · -- A query that was answered does not come back with an error.
        intro hl
        rcases Option.isSome_iff_exists.1 (answered hl) with ⟨ids, hi⟩
        unfold StopPass.outcome? at ho
        split at ho
        · cases hf ids hi
        · cases ho
        · cases ho
      · rw [hp] at h
        cases h
  | removing hp hr hts unknown hf =>
    cases StopPass.turns_of_turn? ht with
    | sums log ho =>
      refine ⟨?_, fun strict h => ?_⟩
      · intro hl
        refine ⟨_, rfl, fun id hi => TeardownReport.accounts_append.2 ?_⟩
        rcases List.mem_append.1 (hf hl id hi) with hm | hm
        · rcases List.mem_map.1 hm with ⟨c, hc, rfl⟩
          exact .inl ((StopPass.lacks_or_report hr hc).resolve_left hi.not_lacks)
        · have swept := StopPass.lacks_or_sweptReport (hts.removed ho) hm
          exact .inr (swept.resolve_left hi.not_lacks)
      · rw [hp] at h
        cases h
  | ended h hr hp hs => exact hs.elim

theorem Cleanup.passSteps {k : Nat} (h : Cleanup l p cs listed (.stopping q pass))
    (honest : l.world.engine.Honest) (ht : pass.step? l.world k = some (pass', w))
    (hl : listed' → listed ∨ ∃ c r w', pass.call? k = some c ∧
      l.world.perform c = some (r, w') ∧ (c.found? r).isSome = true) :
    Cleanup { l with world := w } p cs listed' (.stopping q pass') := by
  have within : w.engine.Within l.world.engine := by
    rcases StopPass.step?_call ht with ⟨c, hc, he⟩
    exact he.within (Call.cleansUp_ne_create (h.cleansUp (m := .go k) hc))
  -- Only the second stage of the pass asks for the labelled containers.
  have silent (hs : ∀ c, pass.call? k = some c → ∃ id, c.stops id = true) :
      listed' → listed := by
    intro h
    rcases hl h with h | ⟨c, r, -, hc, -, hf⟩
    · exact h
    · rcases hs c hc with ⟨id, hid⟩
      rw [Call.found?_of_stops hid] at hf
      cases hf
  cases h with
  | stopping no hs hr =>
    have quiet := silent fun c hc => by
      rcases stops_of_removingAll hr hc with ⟨id, -, hid⟩
      exact ⟨id, hid⟩
    cases StopPass.steps_of_step? ht with
    | stopping hk hn => exact .stopping (mt quiet no) hs (hr.step honest within hk hn)
  | @listing sweep rs t found f hp hr hf covers answered =>
    cases StopPass.steps_of_step? ht with
    | listing hn =>
      rcases Task.Follows.next hf hn with ⟨c, a, hc, allowed, ha, hf'⟩
      refine .listing hp (hr.within within) hf' ?_ ?_
      · intro ids hi
        rcases Option.or_eq_some_iff.1 hi with hi | ⟨-, hi⟩
        · exact (World.found_covers ha allowed hi).within within
        · exact (covers ids hi).within within
      · intro h
        show ((c.found? a).or found).isSome = true
        rcases hl h with h | ⟨c', a', w', hc', ha', hi⟩
        · rw [Option.isSome_or, answered h, Bool.or_true]
        · cases hc.symm.trans hc'
          cases ha.symm.trans ha'
          rw [Option.isSome_or, hi, Bool.true_or]
  | removing hp hr hts unknown hf =>
    have quiet := silent fun c hc => by
      rcases stops_of_removingAll hts hc with ⟨id, -, hid⟩
      exact ⟨id, hid⟩
    cases StopPass.steps_of_step? ht with
    | removing hk hn =>
      refine .removing hp (hr.within within) (hts.step honest within hk hn) unknown ?_
      exact fun h => (hf (quiet h)).within within
  | ended h hr hp hs => exact hs.elim

end

/-- No turn changes the session. -/
theorem Turn.session (h : Turn l s m s' n) : n.session = l.session := by
  cases h <;> rfl

/-- A turn by calls of a cleanup leaves containers that stood before. -/
theorem Turn.within (h : Turn l s m s' n) (hc : ∀ c, s.call? m = some c → c.cleansUp = true) :
    n.world.engine.Within l.world.engine := by
  rcases h.moved with ⟨c, r, hc', hr⟩ | ⟨-, holdings, registry, log, gate, hw⟩
  · exact (World.effect_of_perform hr).within (Call.cleansUp_ne_create (hc c hc'))
  · exact .of_eq (by rw [hw])

/-- A caller that winds down goes on doing so. -/
theorem WindsDown.turn (h : s.WindsDown) (turn : Turn l s m s' n) (left : l.leftovers = []) :
    s'.WindsDown ∧ n.report = l.report := by
  have none : l.victims = [] := by
    simp [victims, left]
  have halting {vs : List Victim} {next : Afterwards} (he : s = .halting vs next) :
      s'.WindsDown := by
    subst he
    cases next with
    | drain f => exact h.elim
    | announce p r =>
      rcases turn.halts h with ⟨vs', rfl, closes⟩ | ⟨f, other, -⟩ | ⟨q, o, -, rfl⟩
      · exact closes
      · cases other
      · trivial
  -- What was left behind would be cancelled with the runtime, but there is nothing.
  cases turn
  case disconnect => exact ⟨Client.close_gives, rfl⟩
  case releaseHalting => exact ⟨by simp [none, Stage.WindsDown], rfl⟩
  case disconnected => exact ⟨by simp [none, Stage.WindsDown], rfl⟩
  case disconnectSteps hn => exact ⟨Work.Gives.next h hn, rfl⟩
  case disconnectExpired t log =>
    refine ⟨?_, rfl⟩
    intro v hv
    rw [none] at hv
    rcases List.mem_singleton.1 hv with rfl
    exact h
  case victimDone => exact ⟨halting rfl, rfl⟩
  case victimDies => exact ⟨halting rfl, rfl⟩
  case victimGoes => exact ⟨halting rfl, rfl⟩
  case victimCancelled => exact ⟨halting rfl, rfl⟩
  all_goals first | exact ⟨trivial, rfl⟩ | exact h.elim

/-- A caller that has entered the last phase keeps what it knows about its result. -/
theorem Cleanup.wind (h : Cleanup l p cs listed s) (hs : s.WindsDown) (turn : Turn l s m s' n)
    (left : l.leftovers = []) (phase : n.phase = l.phase) (hl : listed' → listed) :
    Cleanup n p cs listed' s' := by
  have within := turn.within fun c hc => h.cleansUp hc
  rcases WindsDown.turn hs turn left with ⟨hs', report⟩
  cases h with
  | ended h hr hp _ =>
    exact .ended (h.frame within turn.session hl) (report ▸ hr) (phase.trans hp) hs'
  | _ => exact hs.elim

section

variable {x : Moment} {i : Nat}

theorem Moment.lists_iff : x.lists = true ↔
    (∃ q pass, x.stage? = some (.stopping q pass)) ∧
      ∃ c r w, x.call? = some c ∧ x.before.world.perform c = some (r, w) ∧
        (c.found? r).isSome = true := by
  unfold Moment.lists
  constructor
  · intro h
    split at h
    · rename_i q pass c hs hc
      rcases Option.any_eq_true .. |>.1 h with ⟨r, hr, hf⟩
      exact ⟨⟨q, pass, hs⟩, c, r.1, r.2, hc, hr, hf⟩
    · cases h
  · rintro ⟨⟨q, pass, hs⟩, c, r, w, hc, hr, hf⟩
    simp [hs, hc, hr, hf]

/-- The pass of the caller moves on. -/
theorem Cleanup.pass {q : Purpose} {pass : StopPass}
    (h : Cleanup l p cs listed (.stopping q pass)) (honest : l.world.engine.Honest)
    (turn : Turn l (.stopping q pass) m s' n) (calm : m ≠ .expire)
    (hl : listed' → listed ∨ ∃ k c r w, m = .go k ∧ pass.call? k = some c ∧
      l.world.perform c = some (r, w) ∧ (c.found? r).isSome = true) :
    Cleanup n p cs listed' s' := by
  have idle {k : Nat} {r : StopPass.Progress} {w : World} (hm : m = .go k)
      (ht : pass.turn? l.world = some (r, w)) : listed' → listed := by
    intro h
    rcases hl h with h | ⟨k', c, -, -, -, hc, -⟩
    · exact h
    · cases (StopPass.turn?_call? ht k').symm.trans hc
  -- The pass lists containers by calls only, never by going on to its next stage.
  cases turn with
  | passGoes q k ht => exact (h.passGoes ht).frame (.refl _) rfl rfl rfl (idle rfl ht)
  | passEnds q k ht =>
    have hq : q = p := by
      cases h with
      | ended h hr hp hs => exact hs.elim
      | _ => rfl
    subst hq
    exact .clearing ((h.passEnds ht).frame (.refl _) rfl (idle rfl ht))
  | passSteps q k none ht =>
    refine h.passSteps honest ht ?_
    intro h
    rcases hl h with h | ⟨k', c, r, w, hm, hc, hr⟩
    · exact .inl h
    · cases hm
      exact .inr ⟨c, r, w, hc, hr⟩
  | passExpired => exact absurd rfl calm

/-- The caller that drained moves on with what it knows. -/
theorem Cleanup.turn (h : Cleanup x.before p cs listed s)
    (actions : ∀ c ∈ cs, c.action = .remove) (ha : x.action = .caller i m)
    (hs : x.before.callers[i]? = some s) (turn : Turn x.before s m s' n)
    (hr : x.reached? = some s') (sound : x.before.Sound) (honest : x.before.world.engine.Honest)
    (calm : x.givesUp = false) (left : x.before.leftovers = [])
    (hl : listed' → listed ∨ x.lists = true) : Cleanup n p cs listed' s' := by
  have hx : x.stage? = some s := (Moment.stage?_caller ha).trans hs
  have call : x.call? = s.call? m := by
    simp [Moment.call?, Lifecycle.call?, ha, hs]
  -- Only a pass lists.
  have quiet (no : ∀ q pass, s ≠ .stopping q pass) : listed' → listed := by
    intro h
    rcases hl h with h | h
    · exact h
    · rcases Moment.lists_iff.1 h with ⟨⟨q, pass, hp⟩, -⟩
      exact absurd (Option.some.inj (hx.symm.trans hp)) (no q pass)
  have passes {q : Purpose} {pass : StopPass} (h : Cleanup x.before p cs listed s)
      (he : s = .stopping q pass) : Cleanup n p cs listed' s' := by
    subst he
    refine h.pass honest turn ?_ ?_
    · rintro rfl
      exact absurd hs (Moment.not_expired calm ha)
    · intro h
      rcases hl h with h | h
      · exact .inl h
      · rcases Moment.lists_iff.1 h with ⟨-, c, r, w, hc, hr⟩
        cases m with
        | go k => exact .inr ⟨k, c, r, w, rfl, call.symm.trans hc, hr⟩
        | _ => cases call.symm.trans hc
  have within := turn.within fun c hc => h.cleansUp hc
  have session := turn.session
  have kept := h
  cases h with
  | confirming no =>
    have no' : ¬ listed' := mt (quiet fun q pass he => by cases he) no
    cases turn with
    | confirmNothing =>
      refine .clearing ⟨fun h => absurd h no', fun strict _ => ⟨{}, rfl, ?_, ?_⟩⟩
      · exact fun c hc => absurd hc List.not_mem_nil
      · exact fun id h => absurd h StopPass.not_accounts_empty
    | confirm => exact .stopping no' (sweepOf_eq_some x.before) (removingAll_start _ actions)
    | confirmAnew => exact .stopping no' (sweepOf_eq_some x.before) (removingAll_start _ actions)
    | confirmRefused => exact absurd hr (Moment.not_refused calm hx)
  | stopping => exact passes kept rfl
  | listing => exact passes kept rfl
  | removing => exact passes kept rfl
  | clearing h =>
    have outcome := h.frame within session (quiet fun q pass he => by cases he)
    cases turn with
    | clearFailure f r =>
      refine .closing outcome ?_
      intro g r' _ he
      cases he
      rfl
    | clear _ _ _ _ no => exact .closing outcome fun f r' hf he => absurd he (no f r' hf)
  | closing h report =>
    have outcome := h.frame within session (quiet fun q pass he => by cases he)
    cases turn with
    | closeFailed f => exact .ended outcome (fun r' he => report f r' rfl he) rfl trivial
    | closeStopped strict r =>
      refine .ended outcome ?_ rfl trivial
      intro r' he
      rw [he]
      rfl
    | closeRefused _ _ _ _ no =>
      rw [sound.phase_eq hs rfl] at no
      exact absurd p.target_mem_next no
  | ended _ _ _ hw =>
    rcases turn.history with hh | ⟨q, -, -, he⟩
    · refine Cleanup.wind kept hw turn left (phase_of_history_eq hh) (quiet ?_)
      rintro q pass rfl
      exact hw
    · cases he <;> exact hw.elim

end

/-! ## Runs -/

/-- Only one caller makes calls: nobody else drives, and nothing is left behind. -/
structure Solo (i : Nat) (l : Lifecycle) : Prop where
  only : ∀ {j : Nat} {s : Stage} {q : Phase}, l.callers[j]? = some s → s.drives? = some q → j = i
  leftovers : l.leftovers = []

/-- One caller works on its own, and no capability is recorded. -/
structure Alone (i : Nat) (l : Lifecycle) : Prop extends Solo i l where
  ledger : l.world.ledger.entries = []

section

variable {tr u v : List Moment} {x : Moment} {i j : Nat} {a : Action}

/-- A drained environment is past its setup. -/
theorem Drained.phase_ne (h : l.Drained) (sound : l.Sound) :
    l.phase ≠ .uninitialized ∧ l.phase ≠ .ready := by
  rcases h with ht | ⟨i, s, hs, hp⟩
  · constructor <;>
    · intro he
      rw [he] at ht
      cases ht
  · rcases Stage.isPast_drives? hp with ⟨q, hq⟩
    rw [sound.phase_eq hs hq]
    exact drives?_ne hq

/-- Past the drain nobody begins to drive. -/
theorem Turn.idle (h : Turn l s m s' n) (hs : s.drives? = none)
    (late : l.phase ≠ .uninitialized ∧ l.phase ≠ .ready) :
    s'.drives? = none ∧ s.call? m = none ∧ n.leftovers = l.leftovers ∧ n.report = l.report ∧
      n.phase = l.phase ∧ n.world.engine = l.world.engine ∧
        n.world.ledger = l.world.ledger := by
  rcases h.drives_of_none hs with ⟨hn, hh⟩ | ⟨hp, -⟩
  · have phase : n.phase = l.phase := phase_of_history_eq hh
    cases h <;> first | exact ⟨hn, rfl, rfl, rfl, phase, rfl, rfl⟩ | cases hs
  · rcases hp with hp | hp
    · exact absurd hp late.1
    · exact absurd hp late.2

/-- Only drivers make calls. -/
theorem Stage.drives?_of_call? (hc : s.call? m = some c) : ∃ q, s.drives? = some q := by
  unfold Stage.call? at hc
  split at hc
  all_goals first | exact ⟨_, rfl⟩ | cases hc

/-- All calls are made by the caller that works on its own. -/
theorem Solo.call (alone : Solo i x.before) (hc : x.call? = some c) :
    ∃ m s, x.action = .caller i m ∧ x.before.callers[i]? = some s ∧ s.call? m = some c := by
  unfold Moment.call? at hc
  cases ha : x.action with
  | caller j m =>
    rw [ha] at hc
    rcases Option.bind_eq_some_iff.1 hc with ⟨s, hs, hc⟩
    rcases Stage.drives?_of_call? hc with ⟨q, hq⟩
    rcases alone.only hs hq with rfl
    exact ⟨m, s, rfl, hs, hc⟩
  | leftover j k =>
    rw [ha] at hc
    rcases Option.bind_eq_some_iff.1 hc with ⟨o, ho, -⟩
    rw [alone.leftovers] at ho
    cases ho
  | _ =>
    rw [ha] at hc
    cases hc

/-- Nothing is recorded by a caller that cleans up on its own. -/
theorem Alone.ledger_after (alone : Alone i x.before) (h : Cleanup x.before p cs listed s)
    (hs : x.before.callers[i]? = some s) (act : x.before.act? x.action = some x.after) :
    x.after.world.ledger.entries = [] := by
  rcases (change_of_act? act).ledger with ⟨cs', hr, he⟩ | ⟨-, -, -, -, -, he⟩
  · cases cs' with
    | nil => exact he ▸ alone.ledger
    | cons c cs' =>
      rcases hr c (List.mem_cons_self ..) with hc | ⟨j, m, q, d, hd, -, hj, -⟩
      · rcases alone.call hc with ⟨m, t, -, ht, hc⟩
        cases hs.symm.trans ht
        exact absurd rfl (Call.cleansUp_ne_record (h.cleansUp hc) c)
      · rcases alone.only hj rfl with rfl
        cases hs.symm.trans hj
        cases h with
        | ended _ _ _ hw => exact hw.elim
  · rw [he]

/-- Others leave a caller alone that is past the start of its setup. -/
theorem Solo.others (alone : Solo i x.before)
    (late : x.before.phase ≠ .uninitialized ∧ x.before.phase ≠ .ready)
    (act : x.before.act? x.action = some x.after)
    (other : ∀ m, x.action ≠ .caller i m) :
    x.after.leftovers = [] ∧ x.after.report = x.before.report ∧
      x.after.phase = x.before.phase ∧ x.after.session = x.before.session ∧
        x.after.world.engine = x.before.world.engine ∧
          ∀ (j : Nat) (t : Stage) (q : Phase), x.after.callers[j]? = some t →
            t.drives? = some q → j = i := by
  rcases x with ⟨before, action, after⟩
  have hc : Change before action after := change_of_act? act
  have left : before.leftovers = [] := alone.leftovers
  -- The only one who drives does not move, so that nobody else makes any calls.
  cases hc with
  | enter d =>
    refine ⟨left, rfl, rfl, rfl, rfl, ?_⟩
    intro j t q ht hq
    rcases getElem?_append_singleton_cases ht with ht | rfl
    · exact alone.only ht hq
    · cases hq
  | @caller j m s s' n hs turn =>
    have hd : s.drives? = none := by
      cases hd : s.drives? with
      | none => rfl
      | some q =>
        rcases alone.only hs hd with rfl
        exact absurd rfl (other m)
    rcases turn.idle hd late with ⟨hn, -, left', report, phase, engine, -⟩
    refine ⟨left'.trans left, report, phase, turn.session, engine, ?_⟩
    intro k t q ht hq
    rcases getElem?_set_cases ht with ⟨rfl, rfl⟩ | ⟨-, ht⟩
    · rw [hn] at hq
      cases hq
    · exact alone.only ht hq
  | work j k hj ht => cases left ▸ hj
  | passGoes j k hj ht => cases left ▸ hj
  | passEnds j k hj ht => cases left ▸ hj
  | passSteps j k hj idle ht => cases left ▸ hj
  | refuse k => exact ⟨left, rfl, rfl, rfl, rfl, fun _ _ _ ht hq => alone.only ht hq⟩
  | gate isOpen => exact ⟨left, rfl, rfl, rfl, rfl, fun _ _ _ ht hq => alone.only ht hq⟩

/-- The label query of a caller that works on its own is its own. -/
theorem Alone.lists (alone : Alone i x.before) (h : x.lists = true) :
    ∃ m, x.action = .caller i m := by
  rcases Moment.lists_iff.1 h with ⟨-, c, -, -, hc, -⟩
  rcases alone.call hc with ⟨m, -, ha, -⟩
  exact ⟨m, ha⟩

/-- A cleanup goes on, whoever moves. -/
theorem Cleanup.step (h : Cleanup x.before p cs listed s) (alone : Alone i x.before)
    (hs : x.before.callers[i]? = some s) (act : x.before.act? x.action = some x.after)
    (actions : ∀ c ∈ cs, c.action = .remove) (sound : x.before.Sound)
    (drained : x.before.Drained) (honest : x.before.world.engine.Honest)
    (calm : x.givesUp = false) (hl : listed' → listed ∨ x.lists = true) :
    Alone i x.after ∧ ∃ s', x.after.callers[i]? = some s' ∧ Cleanup x.after p cs listed' s' := by
  have ledger := alone.ledger_after h hs act
  rcases (change_of_act? act).goes hs with ⟨other, hn⟩ | ⟨m, s', n, ha, turn, he, hn⟩
  · -- Somebody else moves, who leaves the engine alone.
    have late := drained.phase_ne sound
    rcases alone.others late act other with ⟨left, report, phase, session, engine, only⟩
    refine ⟨⟨⟨fun {j t q} => only j t q, left⟩, ledger⟩, s, hn, ?_⟩
    refine h.frame (.of_eq (by rw [engine])) session report phase ?_
    intro h
    rcases hl h with h | h
    · exact h
    · rcases alone.lists h with ⟨m, ha⟩
      exact absurd ha (other m)
  · -- The caller itself moves.
    have hr : x.reached? = some s' := (Moment.reached?_caller ha).trans hn
    have h' := h.turn actions ha hs turn hr sound honest calm alone.leftovers hl
    have left : n.leftovers = [] := by
      rcases turn.leftovers with hl | hl | ⟨t, -, -, -, f, rfl⟩ | ⟨q, pass, rfl, rfl⟩
      · exact hl.trans alone.leftovers
      · exact hl
      · cases h' with
        | ended _ _ _ hw => exact hw.elim
      · exact absurd hs (Moment.not_expired calm ha)
    refine ⟨⟨⟨?_, ?_⟩, ledger⟩, s', hn, ?_⟩
    · intro j t q ht hq
      rw [he] at ht
      rcases getElem?_set_cases ht with ⟨rfl, rfl⟩ | ⟨-, ht⟩
      · rfl
      · exact alone.only ht hq
    · rw [he]
      exact left
    · rw [he]
      exact h'.frame (.refl _) rfl rfl rfl id

/-- The capabilities that a run of tidy plans drains remove their containers. -/
theorem Run.drains_removals (fresh : l.Fresh) (run : Run l (u ++ x :: v) l')
    (tidy : ∀ z ∈ u, z.action.Tidy) (hx : x.drains = true) :
    ∀ c ∈ x.before.world.ledger.entries.reverse, c.action = .remove := by
  have before := run.drains_only fresh hx
  have ht : x.before.Tidy :=
    run.at_moment.1.tidy fresh tidy fun z hz => before z (List.mem_append_left _ hz)
  exact fun c hc => ht.entries c (List.mem_reverse.1 hc)

/-- After the drain of a run of tidy plans, the caller that drained cleans up on its own. -/
theorem Run.cleanup (fresh : l.Fresh) (run : Run l (u ++ x :: v) l')
    (ha : x.action = .caller i m) (hx : x.stage? = some (.draining p))
    (tidy : ∀ z ∈ u, z.action.Tidy) (honest : ∀ z ∈ v, z.before.world.engine.Honest)
    (calm : ∀ z ∈ v, z.givesUp = false) :
    Alone i l' ∧ ∃ s, l'.callers[i]? = some s ∧
      Cleanup l' p x.before.world.ledger.entries.reverse (∃ z ∈ v, z.lists = true) s := by
  have drains : x.drains = true := by simp [Moment.drains, hx]
  have actions := run.drains_removals fresh tidy drains
  -- By induction on what happens after the drain.
  induction v using List.reverseRecOn generalizing l' with
  | nil =>
    rcases run.tail_inv with ⟨front, act, rfl⟩
    rcases Moment.drains_turn act drains with ⟨j, k, q, ha', hi, hn, callers, log, he⟩
    cases ha.symm.trans ha'
    have hq : q = p := by
      cases hi.symm.trans ((Moment.stage?_caller ha).symm.trans hx)
      rfl
    subst hq
    have before := run.drains_only fresh drains
    have ht : x.before.Tidy := front.tidy fresh tidy fun z hz => before z (by simpa using hz)
    have left := ht.leftovers_draining (front.sound fresh) hi
    refine ⟨⟨⟨?_, ?_⟩, ?_⟩, _, hn, .confirming (by simp)⟩
    · intro j s q hs hq
      exact (run.sound fresh).unique hs hn hq rfl
    · rw [he]
      exact left
    · rw [he]
  | append_singleton v y ih =>
    have run' : Run l ((u ++ x :: v) ++ [y]) l' := by
      simpa using run
    rcases run'.tail_inv with ⟨front, act, rfl⟩
    obtain ⟨alone, s, hs, h⟩ := ih front (fun z hz => honest z (List.mem_append_left _ hz))
      fun z hz => calm z (List.mem_append_left _ hz)
    refine h.step alone hs act actions (front.sound fresh) (front.drained fresh drains)
      (honest y (by simp)) (calm y (by simp)) ?_
    rintro ⟨z, hz, hl⟩
    rcases List.mem_append.1 hz with hz | hz
    · exact .inl ⟨z, hz, hl⟩
    · rcases List.mem_singleton.1 hz with rfl
      exact .inr hl

/-- The rules of the engine stay what they are. -/
theorem Run.faults (run : Run l tr l') : l'.world.engine.faults = l.world.engine.faults := by
  induction run with
  | refl => rfl
  | tail run h ih =>
    refine Eq.trans ?_ ih
    rcases (change_of_act? h).moved with ⟨c, r, -, hr⟩ | ⟨-, holdings, registry, log, gate, hw⟩
    · exact (World.effect_of_perform hr).faults
    · rw [hw]

/-- An engine with plain rules is honest throughout a run. -/
theorem Run.honest (run : Run l tr l') (plain : l.world.engine.Plain) :
    ∀ x ∈ tr, x.before.world.engine.Honest := by
  intro x hx
  rcases List.append_of_mem hx with ⟨u, v, rfl⟩
  refine Engine.Plain.honest ?_
  rw [Engine.Plain, run.at_moment.1.faults]
  exact plain

/-- The session of an environment stays what it is. -/
theorem Run.session (run : Run l tr l') : l'.session = l.session := by
  induction run with
  | refl => rfl
  | tail run h ih =>
    refine Eq.trans ?_ ih
    cases change_of_act? h with
    | caller i hs turn => exact turn.session
    | _ => rfl

end

end Lifecycle
end Testbed

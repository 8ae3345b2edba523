import Testbed.Lifecycle.Step
import Testbed.Proofs.Effect

/-!
# What programs and passes leave alone

A program that moves on changes the world by its next call, a stop pass by the next call of one of
its programs, and publishing only changes the registry and the ledger.
-/

namespace Testbed

/-- An entry of a list of which one entry has been replaced. -/
theorem getElem?_set_cases {α : Type} {xs : List α} {i j : Nat} {a b : α}
    (h : (xs.set i a)[j]? = some b) : (j = i ∧ b = a) ∨ (j ≠ i ∧ xs[j]? = some b) := by
  rw [List.getElem?_set] at h
  split at h
  · rename_i hij
    split at h
    · cases h
      exact .inl ⟨hij.symm, rfl⟩
    · cases h
  · rename_i hij
    exact .inr ⟨fun h => hij h.symm, h⟩

theorem getElem?_append_singleton_cases {α : Type} {xs : List α} {j : Nat} {a b : α}
    (h : (xs ++ [a])[j]? = some b) : xs[j]? = some b ∨ b = a := by
  rw [List.getElem?_append] at h
  split at h
  · exact .inl h
  · rcases List.mem_singleton.1 (List.mem_of_getElem? h) with rfl
    exact .inr rfl

/-- The call that a program makes next. -/
def Program.call? {Call : Type} {Reply : Call → Type} {α : Type} :
    Program Call Reply α → Option Call
  | .done _ => none
  | .call c _ => some c

/-- The call that the k-th program of a stop pass makes next. -/
def StopPass.call? (p : StopPass) (k : Nat) : Option Call :=
  match p.stage with
  | .stopping children => children[k]?.bind Program.call?
  | .listing _ task => task.call?
  | .removing _ _ children => children[k]?.bind Program.call?

/-- The call that a program of a runtime that is shutting down makes next. -/
def Victim.call? : Victim → Option Call
  | .waiting t | .dying t => t.call?

namespace World

variable {w w' : World}

/-! ## Effects -/

theorem Effect.history {c : Call} (h : Effect w c w') : w'.history = w.history := by
  cases h with
  | shutdown =>
    rcases closeRuntime_eq w with ⟨isOpen, closed, log, he⟩
    rw [he]
  | _ => rfl

theorem next?_call {α : Type} {t t' : Task α} (h : w.next? t = some (t', w')) :
    ∃ c, t.call? = some c ∧ Effect w c w' := by
  rcases next?_eq_some h with ⟨c, next, r, rfl, hr, rfl⟩
  exact ⟨c, rfl, effect_of_perform hr⟩

theorem cancel?_call {α : Type} {t t' : Task α} {landed : Bool}
    (h : w.cancel? landed t = some (t', w')) :
    w' = w ∨ ∃ c, t.call? = some c ∧ landed = true ∧ c.inWorker = true ∧ Effect w c w' := by
  rcases cancel?_eq_some h with ⟨c, next, r, rfl, -, rfl, hw⟩
  split at hw
  · rename_i hl
    rcases hw with ⟨r, hr⟩
    exact .inr ⟨c, rfl, hl.1, hl.2, effect_of_perform hr⟩
  · exact .inl hw

theorem next?_history {α : Type} {t t' : Task α} (h : w.next? t = some (t', w')) :
    w'.history = w.history := by
  rcases next?_call h with ⟨c, -, he⟩
  exact he.history

theorem cancel?_history {α : Type} {t t' : Task α} {landed : Bool}
    (h : w.cancel? landed t = some (t', w')) : w'.history = w.history := by
  rcases cancel?_call h with rfl | ⟨c, -, -, -, he⟩
  · rfl
  · exact he.history

end World

/-! ## Stop passes -/

namespace StopPass

variable {w w' : World} {p p' : StopPass}

theorem advanceChild_eq_some {α : Type} {k : Nat} {ts ts' : List (Task α)}
    (h : advanceChild w k ts = some (ts', w')) :
    ∃ t t', ts[k]? = some t ∧ w.next? t = some (t', w') ∧ ts' = ts.set k t' := by
  unfold advanceChild at h
  cases ht : ts[k]? with
  | none => simp [ht] at h
  | some t =>
    cases hn : w.next? t with
    | none => simp [ht, hn] at h
    | some r =>
      simp only [ht, hn, Option.bind_eq_bind, Option.bind_some] at h
      cases h
      exact ⟨t, r.1, rfl, hn, rfl⟩

/-- The ways in which one of the programs of a pass moves on by its next call. -/
inductive Steps (w : World) (k : Nat) (w' : World) : StopPass → StopPass → Prop where
  | stopping {cs : List Capability} {sweep : Option String}
      {ts : List (Task (Except Fault Unit))} {t t' : Task (Except Fault Unit)}
      (hk : ts[k]? = some t) (h : w.next? t = some (t', w')) :
      Steps w k w' ⟨cs, sweep, .stopping ts⟩ ⟨cs, sweep, .stopping (ts.set k t')⟩
  | listing {cs : List Capability} {sweep : Option String} {rs : List (Except Fault Unit)}
      {t t' : Task (Except Fault (List String))} (h : w.next? t = some (t', w')) :
      Steps w k w' ⟨cs, sweep, .listing rs t⟩ ⟨cs, sweep, .listing rs t'⟩
  | removing {cs : List Capability} {sweep : Option String} {rs : List (Except Fault Unit)}
      {ids : List String} {ts : List (Task (Except Fault Bool))}
      {t t' : Task (Except Fault Bool)} (hk : ts[k]? = some t) (h : w.next? t = some (t', w')) :
      Steps w k w' ⟨cs, sweep, .removing rs ids ts⟩ ⟨cs, sweep, .removing rs ids (ts.set k t')⟩

/-- The ways in which a pass goes on once the programs of its stage are done. -/
inductive Turns (w : World) : StopPass → Progress → World → Prop where
  | lists {cs : List Capability} {session : String} {ts : List (Task (Except Fault Unit))}
      {rs : List (Except Fault Unit)} (h : outcomes? ts = some rs) :
      Turns w ⟨cs, some session, .stopping ts⟩
        (.going ⟨cs, some session, .listing rs (labelled session)⟩) w
  | reports {cs : List Capability} {ts : List (Task (Except Fault Unit))}
      {rs : List (Except Fault Unit)} (h : outcomes? ts = some rs) :
      Turns w ⟨cs, none, .stopping ts⟩ (.ended (.ok (report cs rs))) w
  | sweeps {cs : List Capability} {sweep : Option String} {rs : List (Except Fault Unit)}
      {t : Task (Except Fault (List String))} {found ids : List String}
      (h : outcome? t = some (.ok found))
      (hi : ids = leftovers ⟨cs, sweep, .listing rs t⟩ found) :
      Turns w ⟨cs, sweep, .listing rs t⟩
        (.going ⟨cs, sweep, .removing rs ids
          (ids.map fun id => (Client.removeContainer id).run)⟩) w
  | lost {cs : List Capability} {sweep : Option String} {rs : List (Except Fault Unit)}
      {t : Task (Except Fault (List String))} {f : Fault} (h : outcome? t = some (.error f)) :
      Turns w ⟨cs, sweep, .listing rs t⟩ (.ended (.error f)) w
  | sums {cs : List Capability} {sweep : Option String} {rs : List (Except Fault Unit)}
      {ids : List String} {ts : List (Task (Except Fault Bool))}
      {removed : List (Except Fault Bool)} (log : List LogRecord)
      (h : outcomes? ts = some removed) :
      Turns w ⟨cs, sweep, .removing rs ids ts⟩
        (.ended (.ok ((report cs rs).append (sweptReport ids removed)))) { w with log := log }

theorem steps_of_step? {k : Nat} (h : p.step? w k = some (p', w')) : Steps w k w' p p' := by
  rcases p with ⟨cs, sweep, stage⟩
  cases stage with
  | stopping ts =>
    rcases Option.bind_eq_some_iff.1 h with ⟨r, ha, h⟩
    rcases advanceChild_eq_some ha with ⟨t, t', ht, hn, hts⟩
    cases h
    rw [hts]
    exact .stopping ht hn
  | listing rs t =>
    rcases Option.bind_eq_some_iff.1 h with ⟨r, hn, h⟩
    cases h
    exact .listing hn
  | removing rs ids ts =>
    rcases Option.bind_eq_some_iff.1 h with ⟨r, ha, h⟩
    rcases advanceChild_eq_some ha with ⟨t, t', ht, hn, hts⟩
    cases h
    rw [hts]
    exact .removing ht hn

theorem turns_of_turn? {r : Progress} (h : p.turn? w = some (r, w')) : Turns w p r w' := by
  rcases p with ⟨cs, sweep, stage⟩
  cases stage with
  | stopping ts =>
    rcases Option.map_eq_some_iff.1 h with ⟨rs, ho, h⟩
    cases sweep with
    | none =>
      cases h
      exact .reports ho
    | some session =>
      cases h
      exact .lists ho
  | listing rs t =>
    rcases Option.map_eq_some_iff.1 h with ⟨found, ho, h⟩
    cases found with
    | error f =>
      cases h
      exact .lost ho
    | ok ids =>
      cases h
      exact .sweeps ho rfl
  | removing rs ids ts =>
    rcases Option.map_eq_some_iff.1 h with ⟨removed, ho, h⟩
    cases h
    exact .sums _ ho

/-- A pass that takes a turn only writes to the log. -/
theorem turn?_world {r : Progress} (h : p.turn? w = some (r, w')) :
    ∃ log, w' = { w with log := log } := by
  cases turns_of_turn? h with
  | sums log ho => exact ⟨log, rfl⟩
  | _ => exact ⟨w.log, rfl⟩

/-- A pass that moves on makes the next call of one of its programs. -/
theorem step?_call {k : Nat} (h : p.step? w k = some (p', w')) :
    ∃ c, p.call? k = some c ∧ World.Effect w c w' := by
  cases steps_of_step? h with
  | stopping hk hn =>
    have called := World.next?_call hn
    simpa [call?, hk] using called
  | listing hn => exact World.next?_call hn
  | removing hk hn =>
    have called := World.next?_call hn
    simpa [call?, hk] using called

theorem turn?_history {r : Progress} (h : p.turn? w = some (r, w')) :
    w'.history = w.history := by
  rcases turn?_world h with ⟨log, rfl⟩
  rfl

theorem step?_history {k : Nat} (h : p.step? w k = some (p', w')) :
    w'.history = w.history := by
  rcases step?_call h with ⟨c, -, he⟩
  exact he.history

end StopPass

/-! ## Publishing -/

namespace Registry

variable {r r' : Registry} {key : String} {value : Entry}

theorem set_eq (r : Registry) (key : String) (value : Entry) :
    (r.state = .opened ∧
      r.set key value = .ok { r with entries := Json.setField key value r.entries }) ∨
    r.state ≠ .opened ∧ ∃ f, r.set key value = .error f := by
  unfold set
  cases h : r.state with
  | opened => exact .inl ⟨rfl, rfl⟩
  | _ => exact .inr ⟨nofun, _, rfl⟩

theorem of_set (h : r.set key value = .ok r') :
    r.state = .opened ∧ r' = { r with entries := Json.setField key value r.entries } := by
  rcases r.set_eq key value with ⟨opened, he⟩ | ⟨-, f, he⟩
  · cases he.symm.trans h
    exact ⟨opened, rfl⟩
  · cases he.symm.trans h

theorem not_opened_of_set {f : Fault} (h : r.set key value = .error f) : r.state ≠ .opened := by
  rcases r.set_eq key value with ⟨-, he⟩ | ⟨closed, -⟩
  · cases he.symm.trans h
  · exact closed

end Registry

namespace Lifecycle

variable {w w' : World}

theorem takeOver_world (w : World) (h : Handle) :
    ∃ ledger, takeOver w h = { w with ledger := ledger } := by
  unfold takeOver
  split
  · exact ⟨_, rfl⟩
  · exact ⟨w.ledger, rfl⟩

theorem takeOver_registry (w : World) (h : Handle) : (takeOver w h).registry = w.registry := by
  rcases takeOver_world w h with ⟨ledger, he⟩
  rw [he]

/-- Entries are stored one after another until one is refused. -/
inductive Stores : World → List (String × Entry) → Except Fault Unit → World → Prop where
  | nil {w : World} : Stores w [] (.ok ()) w
  | refused {w : World} {key : String} {value : Entry} {es : List (String × Entry)} {f : Fault}
      (h : w.registry.set key value = .error f) : Stores w ((key, value) :: es) (.error f) w
  | stored {w w' : World} {key : String} {value : Entry} {es : List (String × Entry)}
      {r : Registry} {o : Except Fault Unit} (log : List LogRecord)
      (h : w.registry.set key value = .ok r)
      (rest : Stores { w with registry := r, log := log } es o w') :
      Stores w ((key, value) :: es) o w'

/-- Handles are taken over one after another, until a service has been seen before or the entry of
a handle is refused. -/
inductive Takes : World → List Service → List Handle → Except Fault Unit → World → Prop where
  | nil {w : World} {seen : List Service} : Takes w seen [] (.ok ()) w
  | twice {w : World} {seen : List Service} {h : Handle} {hs : List Handle}
      (known : h.service ∈ seen) :
      Takes w seen (h :: hs) (.error (twice h.service)) (takeOver w h)
  | refused {w : World} {seen : List Service} {h : Handle} {hs : List Handle} {f : Fault}
      (new : h.service ∉ seen)
      (hr : w.registry.set h.service.key (.handle h.detached) = .error f) :
      Takes w seen (h :: hs) (.error f) (takeOver w h)
  | taken {w w' : World} {seen : List Service} {h : Handle} {hs : List Handle} {r : Registry}
      {o : Except Fault Unit} (log : List LogRecord) (new : h.service ∉ seen)
      (hr : w.registry.set h.service.key (.handle h.detached) = .ok r)
      (rest : Takes { takeOver w h with registry := r, log := log } (h.service :: seen) hs o w') :
      Takes w seen (h :: hs) o w'

/-- What is written behind the handles. -/
def closingEntries (s : EnvironmentSettings) : List (String × Entry) :=
  [(Registry.settingsKey, .settings s.freeze), (Registry.tokenKey, .json (.str ""))]

/-- Publishing takes over the handles and stores the settings and the token behind them. -/
inductive Publishes (w : World) (d : Delivery) : Except Fault EnvironmentSettings → World → Prop where
  | untyped {word : String} (hd : d.settings = .other word) :
      Publishes w d (.error (noSettings word)) w
  | failed {s : EnvironmentSettings} {f : Fault} {w' : World} (hd : d.settings = .settings s)
      (handles : Takes w [] d.handles (.error f) w') : Publishes w d (.error f) w'
  | refused {s : EnvironmentSettings} {f : Fault} {w₁ w' : World} (hd : d.settings = .settings s)
      (handles : Takes w [] d.handles (.ok ()) w₁)
      (rest : Stores w₁ (closingEntries s) (.error f) w') : Publishes w d (.error f) w'
  | done {s : EnvironmentSettings} {w₁ w' : World} (hd : d.settings = .settings s)
      (handles : Takes w [] d.handles (.ok ()) w₁)
      (rest : Stores w₁ (closingEntries s) (.ok ()) w') : Publishes w d (.ok s.freeze) w'

theorem store_refused {key : String} {value : Entry} {f : Fault}
    (h : store w key value = (.error f, w')) : w.registry.set key value = .error f ∧ w' = w := by
  unfold store at h
  split at h
  · cases h
  · rename_i hf
    cases h
    exact ⟨hf, rfl⟩

theorem store_accepted {key : String} {value : Entry} (h : store w key value = (.ok (), w')) :
    ∃ r log, w.registry.set key value = .ok r ∧ w' = { w with registry := r, log := log } := by
  unfold store at h
  split at h
  · rename_i r hr
    cases h
    exact ⟨r, _, hr, rfl⟩
  · cases h

theorem takes_of_publishHandles {hs : List Handle} {seen : List Service} {o : Except Fault Unit}
    (h : publishHandles w seen hs = (o, w')) : Takes w seen hs o w' := by
  induction hs generalizing w seen with
  | nil =>
    cases h
    exact .nil
  | cons g hs ih =>
    unfold publishHandles at h
    simp only [List.contains_eq_mem, decide_eq_true_eq] at h
    split at h
    · rename_i known
      cases h
      exact .twice known
    · rename_i new
      split at h
      · rename_i hf
        cases h
        rcases store_refused hf with ⟨refused, rfl⟩
        rw [takeOver_registry] at refused
        exact .refused new refused
      · rename_i w₁ ho
        rcases store_accepted ho with ⟨r, log, stored, rfl⟩
        rw [takeOver_registry] at stored
        exact .taken _ new stored (ih h)

theorem publishes_of_publish {d : Delivery} {o : Except Fault EnvironmentSettings}
    (h : publish w d = (o, w')) : Publishes w d o w' := by
  unfold publish at h
  split at h
  · rename_i word hd
    cases h
    exact .untyped hd
  · rename_i s hd
    split at h
    · rename_i failed
      cases h
      exact .failed hd (takes_of_publishHandles failed)
    · rename_i w₁ ho
      have handles := takes_of_publishHandles ho
      split at h
      · rename_i hf
        cases h
        rcases store_refused hf with ⟨refused, rfl⟩
        exact .refused hd handles (.refused refused)
      · rename_i w₂ settings
        rcases store_accepted settings with ⟨r, log, stored, rfl⟩
        split at h
        · rename_i hf
          cases h
          rcases store_refused hf with ⟨refused, rfl⟩
          exact .refused hd handles (.stored log stored (.refused refused))
        · rename_i token
          cases h
          rcases store_accepted token with ⟨r', log', stored', rfl⟩
          exact .done hd handles (.stored log stored (.stored log' stored' .nil))

theorem Stores.world {es : List (String × Entry)} {o : Except Fault Unit} (h : Stores w es o w') :
    ∃ registry log, w' = { w with registry := registry, log := log } := by
  induction h with
  | nil => exact ⟨_, _, rfl⟩
  | refused => exact ⟨_, _, rfl⟩
  | stored log hr rest ih =>
    rcases ih with ⟨registry, log', rfl⟩
    exact ⟨_, _, rfl⟩

theorem Takes.world {seen : List Service} {hs : List Handle} {o : Except Fault Unit}
    (h : Takes w seen hs o w') :
    ∃ registry ledger log, w' = { w with registry := registry, ledger := ledger, log := log } := by
  induction h with
  | nil => exact ⟨_, _, _, rfl⟩
  | @twice w seen h hs known =>
    rcases takeOver_world w h with ⟨ledger, he⟩
    exact ⟨_, _, _, he⟩
  | @refused w seen h hs f new hr =>
    rcases takeOver_world w h with ⟨ledger, he⟩
    exact ⟨_, _, _, he⟩
  | @taken w w' seen h hs r o log new hr rest ih =>
    rcases takeOver_world w h with ⟨ledger, he⟩
    rcases ih with ⟨registry, ledger', log', rfl⟩
    exact ⟨registry, ledger', log', by rw [he]⟩

/-- Publishing changes the registry and the ledger only. -/
theorem publish_world {d : Delivery} {o : Except Fault EnvironmentSettings}
    (h : publish w d = (o, w')) :
    ∃ registry ledger log,
      w' = { w with registry := registry, ledger := ledger, log := log } := by
  have behind {w₁ : World} {s : EnvironmentSettings} {o : Except Fault Unit}
      (handles : Takes w [] d.handles (.ok ()) w₁) (rest : Stores w₁ (closingEntries s) o w') :
      ∃ registry ledger log,
        w' = { w with registry := registry, ledger := ledger, log := log } := by
    rcases handles.world with ⟨registry, ledger, log, rfl⟩
    rcases rest.world with ⟨registry', log', rfl⟩
    exact ⟨_, _, _, rfl⟩
  cases publishes_of_publish h with
  | untyped => exact ⟨_, _, _, rfl⟩
  | failed hd handles => exact handles.world
  | refused hd handles rest => exact behind handles rest
  | done hd handles rest => exact behind handles rest

theorem publish_history {d : Delivery} {o : Except Fault EnvironmentSettings}
    (h : publish w d = (o, w')) : w'.history = w.history := by
  rcases publish_world h with ⟨registry, ledger, log, rfl⟩
  rfl

end Lifecycle
end Testbed

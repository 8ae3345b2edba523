import Testbed.Proofs.Expiry
import Testbed.Proofs.Handling
import Testbed.Proofs.Occupancy

/-!
# What a driver has in its custody

Whoever drives an environment answers for its runtime, for its engine client and for the work that
still runs there.  `Custody` says for each stage of the driver which of them it holds, and that the
books on runtimes and clients balance with that.  It is kept by every turn of a setup, up to the
point where the runtime of a setup that has failed is shut down.
-/

namespace Testbed

/-- A call that leaves the engine client and the runtime to others. -/
def Call.LeavesAlone (c : Call) : Prop := c.sparesClient = true ∧ c ≠ .shutdownRuntime

theorem Call.leavesAlone_of_isStop {c : Call} (h : c.isStop = true) : c.LeavesAlone := by
  refine ⟨?_, by rintro rfl; cases h⟩
  cases c with
  | engine r => cases r <;> first | rfl | cases h
  | _ => first | rfl | cases h

theorem Call.leavesAlone_listLabelled (filter : String) :
    (Call.engine (.listLabelled filter)).LeavesAlone := ⟨rfl, nofun⟩

theorem StopPass.start_leavesAlone (cs : List Capability) (sweep : Option String) :
    (StopPass.start cs sweep).Makes Call.LeavesAlone :=
  start_makes sweep (fun _ => Call.leavesAlone_of_isStop) fun _ _ => ⟨rfl, nofun⟩

/-- The program that runs, cancelled or not. -/
def Victim.task : Victim → Task (Except Fault Unit)
  | .waiting t | .dying t => t

theorem Victim.call?_eq (v : Victim) : v.call? = v.task.call? := by
  cases v <;> rfl

/-- A teardown waits under a bound, for containers to be stopped or for the client to be closed. -/
def Stage.isBounded : Stage → Bool
  | .stopping .. | .disconnecting .. => true
  | _ => false

/-! ## Runtimes -/

namespace World

variable {w w' : World} {c : Call} {r : c.Reply}

theorem closeRuntime_estate (w : World) : w.closeRuntime.workersOpen = false ∧
    w.closeRuntime.runtimesClosed = w.runtimesClosed + w.workersOpen.toNat ∧
      w.closeRuntime.runtimesStarted = w.runtimesStarted ∧
        w.closeRuntime.clientOpen = w.clientOpen := by
  unfold closeRuntime
  split
  · rename_i h
    simp [h]
  · rename_i h
    simp [h]

/-- A call starts no runtime, and shuts one down at most. -/
theorem Effect.runtimes (h : Effect w c w') : w'.runtimesStarted = w.runtimesStarted ∧
    w'.runtimesClosed + w'.workersOpen.toNat = w.runtimesClosed + w.workersOpen.toNat := by
  cases h with
  | shutdown =>
    rcases closeRuntime_estate w with ⟨shut, closed, started, -⟩
    exact ⟨started, by simp [shut, closed]⟩
  | _ => exact ⟨rfl, rfl⟩

theorem Answers.runtimes (h : w.Answers c r w') : w'.runtimesStarted = w.runtimesStarted ∧
    w'.runtimesClosed + w'.workersOpen.toNat = w.runtimesClosed + w.workersOpen.toNat := by
  rcases h with reply | ⟨-, rfl | ⟨r', reply⟩⟩
  · exact (effect_of_perform reply).runtimes
  · exact ⟨rfl, rfl⟩
  · exact (effect_of_perform reply).runtimes

end World

namespace Lifecycle

variable {l n : Lifecycle} {e₀ e : Estate} {tr : List Moment} {x : Moment} {s s' : Stage}
  {m : Move} {i : Nat} {cs : List Stage} {p : Purpose}

/-- Apart from one that still takes work, the runtimes that were started since the estate `e₀` have
been shut down. -/
def Even (e₀ e : Estate) : Prop :=
  e.closed + e.workersOpen.toNat + e₀.started = e.started + e₀.closed

/-- A runtime has been started, and there is an engine client. -/
structure Launched (e₀ e : Estate) : Prop where
  client : e.hasClient = true
  even : Even e₀ e

/-- Nothing is under way on the runtime. -/
structure Resting (e₀ : Estate) (tr : List Moment) (e : Estate) : Prop
    extends Launched e₀ e where
  left : e.leftovers = []
  books : Books e₀ tr e 0

/-- At most one program is under way. -/
inductive Running (e₀ : Estate) (tr : List Moment) (e : Estate) :
    List (Task (Except Fault Unit)) → Prop where
  | none (books : Books e₀ tr e 0) : Running e₀ tr e []
  | one {t : Task (Except Fault Unit)} (flight : Flight e₀ tr e (fun s _ => s ≠ .closing) t) :
      Running e₀ tr e [t]

/-- Which runtime is held when the containers are stopped: that of the environment, or none after a
setup that has failed. -/
def Holds (e : Estate) : Purpose → Prop
  | .failure _ => e.held = false ∧ e.workersOpen = false
  | .teardown _ => e.held = true

/-- A teardown finds nothing to stop and its runtime shut down by a program. -/
structure Deserted (tr : List Moment) (p : Purpose) : Prop where
  teardown : ∃ strict, p = .teardown strict
  nothing : HandedOver tr []
  shut : ∃ z ∈ tr, z.call? = some .shutdownRuntime

/-- What the driver of an environment has in its custody. -/
inductive Custody (e₀ : Estate) (tr : List Moment) (e : Estate) : Stage → Prop where
  | starting (p : Plan) (handles : p.Handles) (started : e.started = e₀.started)
      (closed : e.closed = e₀.closed) (left : e.leftovers = []) (books : Books e₀ tr e 0) :
      Custody e₀ tr e (.starting p)
  | initializing (p : Plan) (t : Task (Except Fault Delivery)) (handles : p.Handles)
      (held : e.held = true) (launched : Launched e₀ e) (left : e.leftovers = [])
      (flight : Flight e₀ tr e (fun s _ => s ≠ .closing) t) :
      Custody e₀ tr e (.initializing p t)
  | publishing (p : Plan) (d : Delivery) (handles : p.Handles) (held : e.held = true)
      (rests : Resting e₀ tr e) : Custody e₀ tr e (.publishing p d)
  | finishing (t : Task (Except Fault Unit)) (held : e.held = true) (launched : Launched e₀ e)
      (left : e.leftovers = []) (flight : Flight e₀ tr e (fun s _ => s ≠ .closing) t) :
      Custody e₀ tr e (.finishing t)
  | sealing (held : e.held = true) (rests : Resting e₀ tr e) : Custody e₀ tr e .sealing
  | entering (held : e.held = true) (rests : Resting e₀ tr e) : Custody e₀ tr e .entering
  | failing (f : Fault) (held : e.held = true) (launched : Launched e₀ e)
      (ts : List (Task (Except Fault Unit))) (left : e.leftovers = ts.map .work)
      (running : Running e₀ tr e ts) : Custody e₀ tr e (.failing f)
  | halting (vs : List Victim) (f : Fault) (given : e.held = false) (launched : Launched e₀ e)
      (left : e.leftovers = []) (running : Running e₀ tr e (vs.map Victim.task)) :
      Custody e₀ tr e (.halting vs (.drain f))
  | quieting (strict : Bool) (held : e.held = true) (rests : Resting e₀ tr e) :
      Custody e₀ tr e (.quieting strict)
  | draining (p : Purpose) (holds : Holds e p) (rests : Resting e₀ tr e) :
      Custody e₀ tr e (.draining p)
  | confirming (p : Purpose) (cs : List Capability) (holds : Holds e p)
      (rests : Resting e₀ tr e) : Custody e₀ tr e (.confirming p cs)
  | stopping (p : Purpose) (pass : StopPass) (held : e.held = true)
      (opened : e.workersOpen = true) (rests : Resting e₀ tr e)
      (makes : pass.Makes Call.LeavesAlone) : Custody e₀ tr e (.stopping p pass)
  | clearing (p : Purpose) (r : Except Fault TeardownReport) (held : e.held = true)
      (rests : Resting e₀ tr e) (deserted : e.workersOpen = false → Deserted tr p) :
      Custody e₀ tr e (.clearing p r)
  | closing (p : Purpose) (r : Except Fault TeardownReport) (held : e.held = true)
      (rests : Resting e₀ tr e) (deserted : e.workersOpen = false → Deserted tr p) :
      Custody e₀ tr e (.closing p r)
  | releasing (p : Purpose) (r : Except Fault TeardownReport) (held : e.held = true)
      (rests : Resting e₀ tr e) (deserted : e.workersOpen = false → Deserted tr p) :
      Custody e₀ tr e (.releasing p r)
  | disconnecting (p : Purpose) (r : Except Fault TeardownReport)
      (t : Task (Except Fault Unit)) (given : e.held = false) (opened : e.workersOpen = true)
      (launched : Launched e₀ e) (left : e.leftovers = [])
      (closes : Work.Gives (fun c => c.isClose = true) (fun _ => True) t)
      (flight : Flight e₀ tr e (fun s _ => s = .known false) t) :
      Custody e₀ tr e (.disconnecting p r t)
  | haltingLast (p : Purpose) (r : Except Fault TeardownReport) (given : e.held = false)
      (rests : Resting e₀ tr e) (shut : e.clientOpen = false) :
      Custody e₀ tr e (.halting [] (.announce p r))
  | announcing (p : Purpose) (r : Except Fault TeardownReport) (given : e.held = false)
      (ended : e.workersOpen = false) (rests : Resting e₀ tr e)
      (deserted : e.clientOpen = true → Deserted tr p) : Custody e₀ tr e (.announcing p r)
  | answering (p : Purpose) (r : Except Fault TeardownReport) (given : e.held = false)
      (ended : e.workersOpen = false) (rests : Resting e₀ tr e)
      (deserted : e.clientOpen = true → Deserted tr p) : Custody e₀ tr e (.answering p r)

/-! ## Moments at which no program moves -/

theorem Even.of_eq {e' : Estate} (h : Even e₀ e) (started : e'.started = e.started)
    (closed : e'.closed + e'.workersOpen.toNat = e.closed + e.workersOpen.toNat) :
    Even e₀ e' := by
  unfold Even at h ⊢
  omega

/-- At a moment at which no program moves, a runtime is at most held or given up. -/
theorem Resting.still (h : Resting e₀ tr x.before.estate) (idle : x.current? = none) {b : Bool}
    (same : x.after.estate = { x.before.estate with held := b }) :
    Resting e₀ (tr ++ [x]) x.after.estate := by
  have clientOpen : x.after.estate.clientOpen = x.before.estate.clientOpen := by rw [same]
  refine ⟨⟨?_, ?_⟩, ?_, h.books.still idle clientOpen⟩
  · rw [same]
    exact h.client
  · rw [same]
    exact h.even
  · rw [same]
    exact h.left

theorem Deserted.append (h : Deserted tr p) (x : Moment) : Deserted (tr ++ [x]) p where
  teardown := h.teardown
  nothing := h.nothing.append x
  shut := by
    rcases h.shut with ⟨z, hz, call⟩
    exact ⟨z, List.mem_append_left _ hz, call⟩

/-- A program that has come to its end owes nothing. -/
theorem Flight.done {α : Type} {a : Except Fault α}
    (h : Flight e₀ tr e (fun s _ => s ≠ .closing) (.done a)) : Books e₀ tr e 0 := by
  rcases h with ⟨s, settled, -, books⟩
  rw [← Client.Standing.debt_of_ne settled]
  exact books

/-- What is left of a program when its value is not needed. -/
theorem Flight.unfinished {α : Type} {t : Task (Except Fault α)} {t' : Task (Except Fault Unit)}
    (h : Flight e₀ tr e (fun s _ => s ≠ .closing) t) (ht : StopPass.unfinished? t = some t') :
    Flight e₀ tr e (fun s _ => s ≠ .closing) t' := by
  rcases h with ⟨s, follows, known⟩
  refine ⟨s, ?_, known⟩
  unfold StopPass.unfinished? at ht
  split at ht
  · cases ht
  · cases ht
    exact Task.follows_bind.2 (follows.mono fun _ _ h => h)

theorem reaches_of_plan (plan : x.isRelease = false) :
    x.isRelease = true → x.closes = x.asksClose := by
  rw [plan]
  nofun

/-! ## Turns of the driver -/

/-- A caller has made a turn at a moment. -/
structure Moment.Turned (x : Moment) (s : Stage) (m : Move) (s' : Stage) (n : Lifecycle) :
    Prop where
  action : ∃ i, x.action = .caller i m
  stage : x.stage? = some s
  step : x.before.stepStage? s m = some (s', n)
  world : x.after.world = n.world
  estate : x.after.estate = n.estate

theorem Moment.Turned.turn (h : x.Turned s m s' n) : Turn x.before s m s' n :=
  turn_of_stepStage? h.step

theorem Moment.Turned.current {k : Nat} (h : x.Turned s (.go k) s' n) :
    x.current? = s.call? (.go k) :=
  h.action.elim fun _ ha => Moment.current?_go ha h.stage

theorem Moment.Turned.isRelease (h : x.Turned s m s' n) : x.isRelease = s.isRelease :=
  Moment.isRelease_eq h.stage

theorem Moment.Turned.expired (h : x.Turned s .expire s' n) : x.current? = none :=
  h.action.elim fun _ ha => Moment.current?_of_expire ha

/-- A program of the plan goes on with its call: it handles the client properly, and shuts down one
runtime at most. -/
theorem Flight.replied {α : Type} {c : Call} {next : c.Reply → Task (Except Fault α)}
    {r : c.Reply} (flight : Flight e₀ tr x.before.estate (fun s _ => s ≠ .closing) (.call c next))
    (launched : Launched e₀ x.before.estate) (plan : x.isRelease = false)
    (current : x.current? = some c) (answered : x.before.world.Answers c r x.after.world)
    (client : x.after.hasClient = x.before.hasClient) :
    Launched e₀ x.after.estate ∧
      Flight e₀ (tr ++ [x]) x.after.estate (fun s _ => s ≠ .closing) (next r) := by
  refine ⟨⟨client.trans launched.client, ?_⟩, ?_⟩
  · exact launched.even.of_eq answered.runtimes.1 answered.runtimes.2
  · exact flight.answers current answered (reaches_of_plan plan)

theorem Flight.goes {α : Type} {t t' : Task (Except Fault α)} {w : World} {k : Nat}
    (flight : Flight e₀ tr x.before.estate (fun s _ => s ≠ .closing) t)
    (launched : Launched e₀ x.before.estate) (h : x.Turned s (.go k) s' n)
    (call : s.call? (.go k) = t.call?) (plan : s.isRelease = false)
    (goes : x.before.world.next? t = some (t', w)) (after : n = { x.before with world := w }) :
    Launched e₀ x.after.estate ∧
      Flight e₀ (tr ++ [x]) x.after.estate (fun s _ => s ≠ .closing) t' := by
  rcases World.answers_of_next? goes with ⟨c, next, r, rfl, rfl, answered⟩
  subst after
  refine flight.replied launched (h.isRelease.trans plan) (h.current.trans call) ?_
    (congrArg Estate.hasClient h.estate)
  rw [h.world]
  exact answered

/-- A program of the plan that has come to its end leaves nothing under way. -/
theorem Flight.rests {α : Type} {a : Except Fault α} {k : Nat}
    (flight : Flight e₀ tr x.before.estate (fun s _ => s ≠ .closing) (.done a))
    (launched : Launched e₀ x.before.estate) (left : x.before.leftovers = [])
    (h : x.Turned s (.go k) s' x.before) (silent : s.call? (.go k) = none) :
    Resting e₀ (tr ++ [x]) x.after.estate :=
  Resting.still ⟨launched, left, flight.done⟩ (h.current.trans silent) h.estate

/-- The bound of a setup expires while a program of the plan runs. -/
theorem Flight.expires {α : Type} {t : Task (Except Fault α)} {t' : Task (Except Fault Unit)}
    (flight : Flight e₀ tr x.before.estate (fun s _ => s ≠ .closing) t)
    (held : x.before.held = true) (launched : Launched e₀ x.before.estate)
    (left : x.before.leftovers = []) (ht : StopPass.unfinished? t = some t')
    (h : x.Turned s .expire s'
      { x.before with leftovers := x.before.leftovers ++ [.work t'] }) (f : Fault) :
    Custody e₀ (tr ++ [x]) x.after.estate (.failing f) := by
  have he := h.estate
  refine .failing f ?_ ⟨?_, ?_⟩ [t'] ?_ (.one ?_)
  · rw [he]
    exact held
  · rw [he]
    exact launched.client
  · rw [he]
    exact launched.even
  · rw [he]
    simp [estate, left]
  · exact (flight.unfinished ht).still h.expired (congrArg Estate.clientOpen he)

/-- A setup fails while nothing is under way. -/
theorem Resting.failing (h : Resting e₀ tr e) (held : e.held = true) (f : Fault) :
    Custody e₀ tr e (.failing f) :=
  .failing f held h.toLaunched [] h.left (.none h.books)

/-- While the first part of a plan runs. -/
theorem Custody.initializing_turn {plan : Plan} {t : Task (Except Fault Delivery)}
    (handles : plan.Handles) (held : x.before.held = true)
    (launched : Launched e₀ x.before.estate) (left : x.before.leftovers = [])
    (flight : Flight e₀ tr x.before.estate (fun s _ => s ≠ .closing) t)
    (h : x.Turned (.initializing plan t) m s' n) :
    Custody e₀ (tr ++ [x]) x.after.estate s' := by
  have he := h.estate
  have turn := h.turn
  cases turn
  case init t' w k hn =>
    rcases flight.goes launched h rfl rfl hn rfl with ⟨launched, flight⟩
    refine .initializing plan _ handles ?_ launched ?_ flight
    · rw [he]
      exact held
    · rw [he]
      exact left
  case initDone k d =>
    exact .publishing plan d handles (he ▸ held) (flight.rests launched left h rfl)
  case initFailed k f => exact (flight.rests launched left h rfl).failing (he ▸ held) _
  case initExpired t' ht => exact flight.expires held launched left ht h _

/-- While containers are published. -/
theorem Custody.publishing_turn {plan : Plan} {d : Delivery} (handles : plan.Handles)
    (held : x.before.held = true) (rests : Resting e₀ tr x.before.estate)
    (h : x.Turned (.publishing plan d) m s' n) : Custody e₀ (tr ++ [x]) x.after.estate s' := by
  -- Publishing changes the registry, the ledger and the log, none of which is in the estate.
  have published {r : Except Fault EnvironmentSettings} {w : World} (log : List LogRecord)
      (hp : publish x.before.world d = (r, w)) :
      { x.before with world := { w with log := log } : Lifecycle }.estate = x.before.estate := by
    rcases publish_world hp with ⟨registry, ledger, log', rfl⟩
    rfl
  have still (same : n.estate = x.before.estate) (idle : x.current? = none) :
      Resting e₀ (tr ++ [x]) x.after.estate ∧ x.after.estate.held = true := by
    have he := h.estate.trans same
    exact ⟨rests.still idle he, he ▸ held⟩
  have turn := h.turn
  cases turn with
  | @publishFailed _ _ k f w hp =>
    rcases still (published w.log hp) (h.current.trans rfl) with ⟨rests, held⟩
    exact rests.failing held f
  | @publishLast _ _ k frozen w hp after =>
    rcases still (published w.log hp) (h.current.trans rfl) with ⟨rests, held⟩
    exact .sealing held rests
  | @publishThen _ _ k frozen w after log hp ha running =>
    rcases still (published _ hp) (h.current.trans rfl) with ⟨rests, held⟩
    exact .finishing _ held rests.toLaunched rests.left
      ⟨.unknown, handles.after after ha frozen, trivial, rests.books⟩
  | @publishClosed _ _ k frozen w log hp closed =>
    rcases still (published _ hp) (h.current.trans rfl) with ⟨rests, held⟩
    exact rests.failing held _

/-- While the second part of a plan runs. -/
theorem Custody.finishing_turn {t : Task (Except Fault Unit)} (held : x.before.held = true)
    (launched : Launched e₀ x.before.estate) (left : x.before.leftovers = [])
    (flight : Flight e₀ tr x.before.estate (fun s _ => s ≠ .closing) t)
    (h : x.Turned (.finishing t) m s' n) : Custody e₀ (tr ++ [x]) x.after.estate s' := by
  have he := h.estate
  have turn := h.turn
  cases turn
  case finish t' w k hn =>
    rcases flight.goes launched h rfl rfl hn rfl with ⟨launched, flight⟩
    refine .finishing _ ?_ launched ?_ flight
    · rw [he]
      exact held
    · rw [he]
      exact left
  case finishDone k => exact .sealing (he ▸ held) (flight.rests launched left h rfl)
  case finishFailed k f => exact (flight.rests launched left h rfl).failing (he ▸ held) _
  case finishExpired t' ht => exact flight.expires held launched left ht h _

/-! ## Before and after the plan -/

/-- When a setup starts its runtime. -/
theorem Custody.starting_turn {plan : Plan} (handles : plan.Handles)
    (started : x.before.estate.started = e₀.started) (closed : x.before.estate.closed = e₀.closed)
    (left : x.before.leftovers = []) (books : Books e₀ tr x.before.estate 0)
    (granted : x.before.refusals = 0) (h : x.Turned (.starting plan) m s' n) :
    Custody e₀ (tr ++ [x]) x.after.estate s' := by
  have he := h.estate
  have turn := h.turn
  cases turn with
  | launch p k host log none =>
    have books := books.still (h.current.trans rfl) (congrArg Estate.clientOpen he)
    refine .initializing plan _ handles ?_ ⟨?_, ?_⟩ ?_ ⟨.unknown, handles.init _, trivial, books⟩
    · rw [he]
      rfl
    · rw [he]
      rfl
    · simp only [estate] at started closed
      rw [he]
      simp only [Even, estate, Bool.toNat_true, started, closed]
      omega
    · rw [he]
      exact left
  | launchRefused p k c refused => simp [granted] at refused

/-- When the registry is sealed. -/
theorem Custody.sealing_turn (held : x.before.held = true) (rests : Resting e₀ tr x.before.estate)
    (h : x.Turned .sealing m s' n) : Custody e₀ (tr ++ [x]) x.after.estate s' := by
  have he := h.estate
  have turn := h.turn
  cases turn with
  | sealFailed k hf =>
    exact (rests.still (h.current.trans rfl) he).failing (he ▸ held) _
  | _ => exact .entering (he ▸ held) (rests.still (h.current.trans rfl) he)

/-- The programs of a runtime that shuts down are those that were left behind. -/
theorem tasks_of_victims {ts : List (Task (Except Fault Unit))}
    (left : l.leftovers = ts.map .work) : l.victims.map Victim.task = ts := by
  rw [victims, left]
  clear left
  induction ts with
  | nil => rfl
  | cons t ts ih => exact congrArg (t :: ·) ih

/-- When a setup has failed, its runtime is about to be shut down. -/
theorem Custody.failing_turn {f : Fault} {ts : List (Task (Except Fault Unit))}
    (held : x.before.held = true) (launched : Launched e₀ x.before.estate)
    (left : x.before.leftovers = ts.map .work) (running : Running e₀ tr x.before.estate ts)
    (ended : x.before.world.workersOpen = true ∨ x.before.leftovers = [])
    (h : x.Turned (.failing f) m s' n) : Custody e₀ (tr ++ [x]) x.after.estate s' := by
  have he := h.estate
  have turn := h.turn
  have idle : x.current? = none := by
    cases turn <;> exact h.current.trans rfl
  have running : Running e₀ (tr ++ [x]) x.after.estate ts := by
    have same : x.after.world.clientOpen = x.before.world.clientOpen := by
      cases turn <;> exact congrArg Estate.clientOpen he
    cases running with
    | none books => exact .none (books.still idle same)
    | one flight => exact .one (flight.still idle same)
  cases turn with
  | failHalting f k log taken =>
    refine .halting _ f ?_ ⟨?_, ?_⟩ ?_ ((tasks_of_victims left).symm ▸ running)
    · rw [he]
      rfl
    · rw [he]
      exact launched.client
    · rw [he]
      exact launched.even
    · rw [he]
      rfl
  | failDraining f k log closed =>
    -- The runtime was shut down before the setup failed, and nothing runs there any more.
    have shut : x.before.world.workersOpen = false := by simpa [held] using closed
    have none : x.before.leftovers = [] := by simpa [shut] using ended
    have still : ts = [] := by simpa [none] using left.symm
    subst still
    cases running with
    | none books =>
      refine .draining _ ?_ ⟨⟨?_, ?_⟩, ?_, books⟩
      · rw [he]
        exact ⟨rfl, shut⟩
      · rw [he]
        exact launched.client
      · rw [he]
        exact launched.even
      · rw [he]
        exact none

/-! ## A runtime that shuts down -/

/-- A runtime that is shut down. -/
theorem Resting.closed (h : Resting e₀ tr x.before.estate) (idle : x.current? = none)
    (client : x.after.estate.hasClient = x.before.estate.hasClient)
    (left : x.after.estate.leftovers = x.before.estate.leftovers)
    (world : x.after.world = x.before.world.closeRuntime) :
    Resting e₀ (tr ++ [x]) x.after.estate ∧ x.after.estate.workersOpen = false ∧
      x.after.estate.clientOpen = x.before.estate.clientOpen := by
  rcases x.before.world.closeRuntime_estate with ⟨shut, closed, started, clientOpen⟩
  rw [← world] at shut closed started clientOpen
  refine ⟨⟨⟨client.trans h.client, h.even.of_eq started ?_⟩, left.trans h.left,
    h.books.still idle clientOpen⟩, shut, clientOpen⟩
  simp [estate, closed, shut]

/-- At most one program runs on the runtime of a setup. -/
theorem Running.victim {vs : List Victim} {k : Nat} {v : Victim}
    (h : Running e₀ tr e (vs.map Victim.task)) (hk : vs[k]? = some v) :
    k = 0 ∧ vs = [v] ∧ Flight e₀ tr e (fun s _ => s ≠ .closing) v.task := by
  match vs, k, hk with
  | [_], 0, rfl =>
    cases h with
    | one flight => exact ⟨rfl, rfl, flight⟩
  | _ :: _ :: _, _, _ => cases h

/-- While the runtime of a failed setup shuts down. -/
theorem Custody.halting_turn {vs : List Victim} {f : Fault} (given : x.before.held = false)
    (launched : Launched e₀ x.before.estate) (left : x.before.leftovers = [])
    (running : Running e₀ tr x.before.estate (vs.map Victim.task))
    (h : x.Turned (.halting vs (.drain f)) m s' n) :
    Custody e₀ (tr ++ [x]) x.after.estate s' := by
  have he := h.estate
  have turn := h.turn
  cases turn with
  | haltedFailing f k =>
    cases running with
    | none books =>
      have rests : Resting e₀ tr x.before.estate := ⟨launched, left, books⟩
      rcases rests.closed (h.current.trans rfl) (by rw [he]; rfl) (by rw [he]; rfl) h.world with
        ⟨rests, shut, -⟩
      exact .draining _ ⟨by rw [he]; exact given, shut⟩ rests
  | @victimDone vs next k o hk =>
    -- A program that is cancelled ends like one that was waited for.
    have ended {v : Victim} (hk : vs[k]? = some v) (done : v.task = .done o) :
        Custody e₀ (tr ++ [x]) x.after.estate (.halting (vs.eraseIdx k) (.drain f)) := by
      rcases running.victim hk with ⟨rfl, rfl, flight⟩
      have idle : x.current? = none := h.current.trans (by
        simp [Stage.call?, Victim.call?_eq, done, Program.call?])
      rw [done] at flight
      have rests : Resting e₀ tr x.before.estate := ⟨launched, left, flight.done⟩
      have rests := rests.still idle he
      exact .halting [] f (he ▸ given) rests.toLaunched rests.left (.none rests.books)
    rcases hk with hk | hk
    · exact ended hk rfl
    · exact ended hk rfl
  | @victimDies vs next k t t' w hk hn =>
    rcases running.victim hk with ⟨rfl, rfl, flight⟩
    rcases flight.goes launched h rfl rfl hn rfl with ⟨launched, flight⟩
    refine .halting [.dying t'] f ((congrArg Estate.held he).trans given) launched ?_ (.one flight)
    rw [he]
    exact left
  | @victimGoes vs next k t t' w hk hn =>
    rcases running.victim hk with ⟨rfl, rfl, flight⟩
    rcases flight.goes launched h rfl rfl hn rfl with ⟨launched, flight⟩
    refine .halting [.waiting t'] f ((congrArg Estate.held he).trans given) launched ?_
      (.one flight)
    rw [he]
    exact left
  | @victimCancelled vs next k landed t t' w hk hn =>
    rcases running.victim hk with ⟨rfl, rfl, flight⟩
    rcases World.answers_of_cancel? hn with ⟨c, next, r, rfl, rfl, answered⟩
    have current : x.current? = some c :=
      h.action.elim fun _ ha => Moment.current?_cancel ha h.stage
    rcases flight.replied launched (h.isRelease.trans rfl) current (by rw [h.world]; exact answered)
      (congrArg Estate.hasClient he) with ⟨launched, flight⟩
    refine .halting [.dying _] f ((congrArg Estate.held he).trans given) launched ?_ (.one flight)
    rw [he]
    exact left

end Lifecycle
end Testbed

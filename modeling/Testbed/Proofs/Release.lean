import Testbed.Proofs.Custody
import Testbed.Proofs.Teardown

/-!
# The release of an environment

A driver that stops an environment drains its ledger, stops what was drained on a runtime, and
releases the runtime and the engine client.  It keeps what it has in its custody through every turn,
and so does whoever acts in between, so that it comes back with every runtime shut down and every
client accounted for.

The client stays as it is in one case: a teardown has nothing to stop, and a program of the plan has
shut down the runtime on which the client would have been closed.
-/

namespace Testbed

namespace Lifecycle

variable {l l' n : Lifecycle} {e₀ e : Estate} {tr u v : List Moment} {x y : Moment} {s s' : Stage}
  {m : Move} {i : Nat} {p : Purpose}

/-! ## Stopping -/

/-- When the ledger is drained. -/
theorem Custody.draining_turn (holds : Holds x.before.estate p)
    (rests : Resting e₀ tr x.before.estate) (h : x.Turned (.draining p) m s' n) :
    Custody e₀ (tr ++ [x]) x.after.estate s' := by
  have he := h.estate
  have turn := h.turn
  cases turn with
  | drain p k log => exact .confirming p _ (he ▸ holds) (rests.still (h.current.trans rfl) he)

/-- If runtimes can be started, a pass is always started unless there is nothing to do. -/
theorem confirm_cases {cs : List Capability} (granted : l.refusals = 0)
    (h : l.confirm p cs = (s', n)) :
    (cs = [] ∧ l.sweepOf p = none ∧ s' = .clearing p (.ok {}) ∧ n = l) ∨
      s' = .stopping p (.start cs (l.sweepOf p)) ∧
        ((l.held = true ∧ l.world.workersOpen = true ∧ n = l) ∨
          ¬ (l.held = true ∧ l.world.workersOpen = true) ∧ n = { l with
            held := true, world := l.world.startRuntime l.settings.runtimeWorkers }) := by
  unfold confirm at h
  by_cases nothing : cs.isEmpty && (l.sweepOf p).isNone
  · simp only [nothing, if_true] at h
    simp only [Bool.and_eq_true, List.isEmpty_iff, Option.isNone_iff_eq_none] at nothing
    cases h
    exact .inl ⟨nothing.1, nothing.2, rfl, rfl⟩
  · refine .inr ?_
    simp only [nothing, acquire_of_zero granted] at h
    by_cases running : l.held = true ∧ l.world.workersOpen = true
    · have open_ : l.isRunning = true := by simpa [isRunning] using running
      simp only [open_] at h
      cases h
      exact ⟨rfl, .inl ⟨running.1, running.2, rfl⟩⟩
    · have shut : l.isRunning = false := by simpa [isRunning] using running
      simp only [shut] at h
      cases h
      exact ⟨rfl, .inr ⟨running, rfl⟩⟩

/-- When a stop pass is about to start. -/
theorem Custody.confirming_turn {cs : List Capability} (holds : Holds x.before.estate p)
    (rests : Resting e₀ tr x.before.estate) (granted : x.before.refusals = 0)
    (handed : HandedOver tr cs)
    (alive : x.before.held = true → x.before.world.workersOpen = true ∨
      ∃ z ∈ tr, z.call? = some .shutdownRuntime)
    (h : x.Turned (.confirming p cs) m s' n) : Custody e₀ (tr ++ [x]) x.after.estate s' := by
  have he := h.estate
  have step := h.step
  cases m with
  | expire => cases step
  | cancel k landed => cases step
  | go k =>
    have idle : x.current? = none := h.current.trans rfl
    rcases confirm_cases granted (Option.some.inj step) with
      ⟨rfl, unswept, rfl, rfl⟩ | ⟨rfl, ⟨held, opened, rfl⟩ | ⟨closed, rfl⟩⟩
    · -- Without a sweep it is a teardown, and holds the runtime of the environment.
      cases p with
      | failure f =>
        have client : x.before.hasClient = true := rests.client
        simp [sweepOf, client] at unswept
      | teardown strict =>
        have held : x.before.held = true := holds
        refine .clearing _ _ (he ▸ held) (rests.still idle he) ?_
        intro shut
        refine Deserted.append ⟨⟨strict, rfl⟩, handed, ?_⟩ x
        refine (alive held).resolve_left ?_
        rw [he] at shut
        simpa [estate] using shut
    · exact .stopping p _ (he ▸ held) (he ▸ opened) (rests.still idle he)
        (StopPass.start_leavesAlone cs _)
    · have shut : x.before.world.workersOpen = false := by
        cases p with
        | failure f => exact holds.2
        | teardown strict =>
          have held : x.before.held = true := holds
          simpa [held] using closed
      refine .stopping p _ ?_ ?_ ⟨⟨?_, ?_⟩, ?_, ?_⟩ ?_
      · rw [he]
        rfl
      · rw [he]
        rfl
      · rw [he]
        exact rests.client
      · have even := rests.even
        rw [he]
        simp only [Even, estate, shut, World.startRuntime, World.say, Bool.toNat_true,
          Bool.toNat_false] at even ⊢
        omega
      · rw [he]
        exact rests.left
      · exact rests.books.still idle (congrArg Estate.clientOpen he)
      · exact StopPass.start_leavesAlone cs _

/-- A program that leaves the client and the runtime to others makes a call. -/
theorem Resting.answers {c : Call} {r : c.Reply} (rests : Resting e₀ tr x.before.estate)
    (alone : c.LeavesAlone) (current : x.current? = some c) (plan : x.isRelease = false)
    (reply : x.before.world.perform c = some (r, x.after.world))
    (client : x.after.hasClient = x.before.hasClient)
    (left : x.after.leftovers = x.before.leftovers) : Resting e₀ (tr ++ [x]) x.after.estate := by
  have answered : x.before.world.Answers c r x.after.world := .inl reply
  refine ⟨⟨client.trans rests.client, ?_⟩, left.trans rests.left, ?_⟩
  · exact rests.even.of_eq answered.runtimes.1 answered.runtimes.2
  · -- The call counts like one of a program that knows nothing about the client.
    have allowed : Client.Standing.unknown.allows c := alone.1
    have balance := Client.Standing.balance allowed trivial answered
    have settled := Client.Standing.next_of_spares (s := .unknown) alone.1 nofun r
    rw [Client.Standing.debt_of_ne settled] at balance
    refine rests.books.step ?_ (reaches_of_plan plan)
    simpa [Moment.asksClose, current, Moment.opens, Client.Standing.debt] using balance

/-- While containers are stopped. -/
theorem Custody.stopping_turn {pass : StopPass} (held : x.before.held = true)
    (opened : x.before.world.workersOpen = true) (rests : Resting e₀ tr x.before.estate)
    (makes : pass.Makes Call.LeavesAlone) (patient : m ≠ .expire)
    (h : x.Turned (.stopping p pass) m s' n) : Custody e₀ (tr ++ [x]) x.after.estate s' := by
  have he := h.estate
  have turn := h.turn
  have logged {pass : StopPass} {progress : StopPass.Progress} {w : World}
      (ht : pass.turn? x.before.world = some (progress, w)) :
      { x.before with world := w : Lifecycle }.estate = x.before.estate := by
    rcases StopPass.turn?_world ht with ⟨log, rfl⟩
    rfl
  have idle {k : Nat} {progress : StopPass.Progress} {w : World}
      (h : x.Turned (.stopping p pass) (.go k) s' n)
      (ht : pass.turn? x.before.world = some (progress, w)) : x.current? = none :=
    h.current.trans (StopPass.turn?_call? ht k)
  -- Between its calls the pass only adds to the log, which is no part of the estate.
  cases turn with
  | @passGoes p pass pass' k w ht =>
    have same := he.trans (logged ht)
    refine .stopping p pass' (same ▸ held) (same ▸ opened) (rests.still (idle h ht) same) ?_
    exact makes.turn ht (fun _ => Call.leavesAlone_of_isStop) Call.leavesAlone_listLabelled
  | @passEnds p pass k r w ht =>
    have same := he.trans (logged ht)
    refine .clearing p _ (same ▸ held) (rests.still (idle h ht) same) fun shut => ?_
    rw [same] at shut
    cases opened.symm.trans shut
  | @passSteps p pass pass' k w none ht =>
    rcases StopPass.step?_moved ht with ⟨c, r, hc, reply⟩ | ⟨silent, -⟩
    · have alone : c.LeavesAlone := makes.call hc
      have workers := effect_workersOpen (World.effect_of_perform reply) alone.2
      refine .stopping p pass' ((congrArg Estate.held he).trans held)
        ((congrArg Estate.workersOpen he).trans (workers.trans opened)) ?_ (makes.step ht)
      have reply : x.before.world.perform c = some (r, x.after.world) := by
        rw [h.world]
        exact reply
      exact rests.answers alone (h.current.trans hc) (h.isRelease.trans rfl) reply
        (congrArg Estate.hasClient he) (congrArg Estate.leftovers he)
    · rcases StopPass.step?_call ht with ⟨c, hc, -⟩
      cases silent.symm.trans hc
  | passExpired => exact absurd rfl patient

/-! ## Releasing -/

/-- A driver comes to its end, or to where it drives no more, with nothing under way. -/
structure Retires (e₀ : Estate) (tr : List Moment) (x : Moment) (s : Stage) : Prop where
  idle : s.drives? = none
  rests : Resting e₀ tr x.after.estate
  held : x.after.held = x.before.held

/-- Until the environment is released, it only matters whether its runtime still takes work. -/
theorem deserted_still (deserted : x.before.world.workersOpen = false → Deserted tr p)
    (same : x.after.estate = x.before.estate) :
    x.after.estate.workersOpen = false → Deserted (tr ++ [x]) p := by
  intro shut
  rw [same] at shut
  exact (deserted shut).append x

/-- When the registry is cleared. -/
theorem Custody.clearing_turn {r : Except Fault TeardownReport} (held : x.before.held = true)
    (rests : Resting e₀ tr x.before.estate)
    (deserted : x.before.world.workersOpen = false → Deserted tr p)
    (h : x.Turned (.clearing p r) m s' n) : Custody e₀ (tr ++ [x]) x.after.estate s' := by
  have he := h.estate
  have turn := h.turn
  cases turn with
  | clearFailure f r k log =>
    exact .closing _ _ (he ▸ held) (rests.still (h.current.trans rfl) he)
      (deserted_still deserted he)
  | clear p r k log other =>
    exact .closing _ _ (he ▸ held) (rests.still (h.current.trans rfl) he)
      (deserted_still deserted he)

/-- When the terminal phase is entered. -/
theorem Custody.closing_turn {r : Except Fault TeardownReport} (held : x.before.held = true)
    (rests : Resting e₀ tr x.before.estate)
    (deserted : x.before.world.workersOpen = false → Deserted tr p)
    (h : x.Turned (.closing p r) m s' n) :
    Retires e₀ (tr ++ [x]) x s' ∨ Custody e₀ (tr ++ [x]) x.after.estate s' := by
  have he := h.estate
  have turn := h.turn
  cases turn with
  | closeFailed f r k log next =>
    exact .inr (.releasing _ _ (he ▸ held) (rests.still (h.current.trans rfl) he)
      (deserted_still deserted he))
  | closeStopped strict r k log next =>
    exact .inr (.releasing _ _ (he ▸ held) (rests.still (h.current.trans rfl) he)
      (deserted_still deserted he))
  | closeRefused => exact .inl ⟨rfl, rests.still (h.current.trans rfl) he, congrArg Estate.held he⟩

/-- An environment that has a client closes it if its runtime takes work. -/
theorem release_cases {r : Except Fault TeardownReport} (client : l.hasClient = true)
    (h : l.release p r = (s', n)) : n = { l with held := false } ∧
      ((l.held = true ∧ l.world.workersOpen = true ∧ s' = .disconnecting p r Client.close) ∨
        ¬ (l.held = true ∧ l.world.workersOpen = true) ∧ s' = .announcing p r) := by
  unfold release at h
  by_cases running : l.held = true ∧ l.world.workersOpen = true
  · have open_ : l.isRunning = true := by simpa [isRunning] using running
    rw [if_pos open_] at h
    simp only at h
    rw [if_pos client] at h
    cases h
    exact ⟨rfl, .inl ⟨running.1, running.2, rfl⟩⟩
  · have shut : l.isRunning = false := by simpa [isRunning] using running
    simp only [shut] at h
    cases h
    exact ⟨rfl, .inr ⟨running, rfl⟩⟩

/-- When the environment is about to be released. -/
theorem Custody.releasing_turn {r : Except Fault TeardownReport} (held : x.before.held = true)
    (rests : Resting e₀ tr x.before.estate)
    (deserted : x.before.world.workersOpen = false → Deserted tr p)
    (h : x.Turned (.releasing p r) m s' n) : Custody e₀ (tr ++ [x]) x.after.estate s' := by
  have he := h.estate
  have step := h.step
  -- The client is there, so it is closed next, unless the runtime has been shut down.
  cases m with
  | expire => cases step
  | cancel k landed => cases step
  | go k =>
    have client : x.before.hasClient = true := rests.client
    rcases release_cases client (Option.some.inj step) with
      ⟨rfl, ⟨-, opened, rfl⟩ | ⟨closed, rfl⟩⟩
    · have rests := rests.still (h.current.trans rfl) he
      refine .disconnecting p r _ ?_ ?_ rests.toLaunched rests.left Client.close_gives
        ⟨.unknown, Client.close_follows, trivial, rests.books⟩
      · rw [he]
        rfl
      · rw [he]
        exact opened
    · have shut : x.before.world.workersOpen = false := by simpa [held] using closed
      refine .announcing p r ?_ ?_ (rests.still (h.current.trans rfl) he) fun _ => ?_
      · rw [he]
        rfl
      · rw [he]
        exact shut
      · exact (deserted shut).append x

/-- While the client is being closed. -/
theorem Custody.disconnecting_turn {r : Except Fault TeardownReport}
    {t : Task (Except Fault Unit)} (given : x.before.held = false)
    (opened : x.before.world.workersOpen = true) (launched : Launched e₀ x.before.estate)
    (left : x.before.leftovers = [])
    (closes : Work.Gives (fun c => c.isClose = true) (fun _ => True) t)
    (flight : Flight e₀ tr x.before.estate (fun s _ => s = .known false) t)
    (patient : m ≠ .expire) (h : x.Turned (.disconnecting p r t) m s' n) :
    Custody e₀ (tr ++ [x]) x.after.estate s' := by
  have he := h.estate
  have turn := h.turn
  cases turn with
  | @disconnectSteps p r k t t' w hn =>
    rcases World.next?_eq_some hn with ⟨c, next, q, rfl, reply, rfl⟩
    have answered : x.before.world.Answers c q x.after.world := by
      rw [h.world]
      exact .inl reply
    have current : x.current? = some c := h.current
    have call : x.call? = some c := h.action.elim fun _ ha => Moment.call?_caller ha h.stage
    -- The runtime takes work, so that the engine gets the request.
    have reaches : x.closes = x.asksClose := by
      simp [Moment.closes, Moment.asksClose, current, call, opened]
    have alone : c ≠ .shutdownRuntime := by
      rintro rfl
      cases closes.1
    have workers := effect_workersOpen (World.effect_of_perform reply) alone
    refine .disconnecting p r _ ((congrArg Estate.held he).trans given)
      ((congrArg Estate.workersOpen he).trans (workers.trans opened))
      ⟨(congrArg Estate.hasClient he).trans launched.client, ?_⟩
      ((congrArg Estate.leftovers he).trans left) (closes.2 q)
      (flight.answers current answered fun _ => reaches)
    exact launched.even.of_eq answered.runtimes.1 answered.runtimes.2
  | disconnected p r k o log =>
    -- The program that closes the client has ended, so that the client is known to be closed.
    rcases flight with ⟨s, known, fits, books⟩
    have known : s = .known false := known
    subst known
    have none : x.before.victims = [] := by simp [victims, left]
    have same : x.after.estate = x.before.estate := he.trans (by simp [estate, left])
    have rests : Resting e₀ tr x.before.estate := ⟨launched, left, books⟩
    rw [none]
    exact .haltingLast p r (same ▸ given) (rests.still (h.current.trans rfl) same) (same ▸ fits)
  | disconnectExpired => exact absurd rfl patient

/-- When the last runtime is shut down. -/
theorem Custody.haltingLast_turn {r : Except Fault TeardownReport}
    (given : x.before.held = false) (rests : Resting e₀ tr x.before.estate)
    (shut : x.before.world.clientOpen = false)
    (h : x.Turned (.halting [] (.announce p r)) m s' n) :
    Custody e₀ (tr ++ [x]) x.after.estate s' := by
  have he := h.estate
  have turn := h.turn
  cases turn with
  | halted p r k =>
    rcases rests.closed (h.current.trans rfl) (by rw [he]; rfl) (by rw [he]; rfl) h.world with
      ⟨rests, ended, client⟩
    refine .announcing p r ((congrArg Estate.held he).trans given) ended rests fun opened => ?_
    rw [client] at opened
    cases shut.symm.trans opened
  | victimDone _ _ _ hk => simp at hk
  | victimDies _ _ _ hk => simp at hk
  | victimGoes _ _ _ hk => simp at hk
  | victimCancelled _ _ _ _ hk => simp at hk

/-- When the end is announced. -/
theorem Custody.announcing_turn {r : Except Fault TeardownReport} (given : x.before.held = false)
    (ended : x.before.world.workersOpen = false) (rests : Resting e₀ tr x.before.estate)
    (deserted : x.before.world.clientOpen = true → Deserted tr p)
    (h : x.Turned (.announcing p r) m s' n) : Custody e₀ (tr ++ [x]) x.after.estate s' := by
  have he := h.estate
  have turn := h.turn
  cases turn with
  | announceFailure f r k =>
    refine .answering _ _ (he ▸ given) (he ▸ ended) (rests.still (h.current.trans rfl) he) ?_
    exact fun opened => (deserted ((congrArg Estate.clientOpen he).symm.trans opened)).append x
  | announceTeardown strict r k =>
    refine .answering _ _ (he ▸ given) (he ▸ ended) (rests.still (h.current.trans rfl) he) ?_
    exact fun opened => (deserted ((congrArg Estate.clientOpen he).symm.trans opened)).append x

/-! ## Every turn -/

/-- What a driver has in its custody after its turn. -/
theorem Custody.turn (custody : Custody e₀ tr x.before.estate s) (h : x.Turned s m s' n)
    (granted : x.before.refusals = 0) (patient : s.isBounded = true → m ≠ .expire)
    (settled : ∀ f, s = .failing f →
      x.before.world.workersOpen = true ∨ x.before.leftovers = [])
    (handed : ∀ p cs, s = .confirming p cs → HandedOver tr cs)
    (alive : x.before.held = true → x.before.world.workersOpen = true ∨
      ∃ z ∈ tr, z.call? = some .shutdownRuntime) :
    Retires e₀ (tr ++ [x]) x s' ∨ Custody e₀ (tr ++ [x]) x.after.estate s' := by
  have he := h.estate
  -- One lemma for each stage of the driver.
  cases custody with
  | starting p handles started closed left books =>
    exact .inr (starting_turn handles started closed left books granted h)
  | initializing p t handles held launched left flight =>
    exact .inr (initializing_turn handles held launched left flight h)
  | publishing p d handles held rests => exact .inr (publishing_turn handles held rests h)
  | finishing t held launched left flight =>
    exact .inr (finishing_turn held launched left flight h)
  | sealing held rests => exact .inr (sealing_turn held rests h)
  | entering held rests =>
    have turn := h.turn
    cases turn <;>
      exact .inl ⟨rfl, rests.still (h.current.trans rfl) he, congrArg Estate.held he⟩
  | failing f held launched ts left running =>
    exact .inr (failing_turn held launched left running (settled f rfl) h)
  | halting vs f given launched left running =>
    exact .inr (halting_turn given launched left running h)
  | quieting strict held rests =>
    have turn := h.turn
    cases turn with
    | quiet strict k log =>
      exact .inr (.draining _ (he ▸ held) (rests.still (h.current.trans rfl) he))
  | draining p holds rests => exact .inr (draining_turn holds rests h)
  | confirming p cs holds rests =>
    exact .inr (confirming_turn holds rests granted (handed p cs rfl) alive h)
  | stopping p pass held opened rests makes =>
    exact .inr (stopping_turn held opened rests makes (patient rfl) h)
  | clearing p r held rests deserted => exact .inr (clearing_turn held rests deserted h)
  | closing p r held rests deserted => exact closing_turn held rests deserted h
  | releasing p r held rests deserted => exact .inr (releasing_turn held rests deserted h)
  | disconnecting p r t given opened launched left closes flight =>
    exact .inr (disconnecting_turn given opened launched left closes flight (patient rfl) h)
  | haltingLast p r given rests shut => exact .inr (haltingLast_turn given rests shut h)
  | announcing p r given ended rests deserted =>
    exact .inr (announcing_turn given ended rests deserted h)
  | answering p r given ended rests deserted =>
    have turn := h.turn
    cases turn <;>
      exact .inl ⟨rfl, rests.still (h.current.trans rfl) he, congrArg Estate.held he⟩

/-- A moment at which nothing happens to the estate takes nothing out of custody. -/
theorem Custody.still (h : Custody e₀ tr x.before.estate s) (idle : x.current? = none)
    (same : x.after.estate = x.before.estate) : Custody e₀ (tr ++ [x]) x.after.estate s := by
  have client : x.after.world.clientOpen = x.before.world.clientOpen :=
    congrArg Estate.clientOpen same
  have books {d : Nat} (h : Books e₀ tr x.before.estate d) :
      Books e₀ (tr ++ [x]) x.before.estate d := same ▸ h.still idle client
  have rest (h : Resting e₀ tr x.before.estate) : Resting e₀ (tr ++ [x]) x.before.estate :=
    same ▸ h.still idle same
  have flies {α : Type} {Q : Client.Standing → Except Fault α → Prop} {t : Task (Except Fault α)}
      (h : Flight e₀ tr x.before.estate Q t) : Flight e₀ (tr ++ [x]) x.before.estate Q t :=
    same ▸ h.still idle client
  have runs {ts : List (Task (Except Fault Unit))} (h : Running e₀ tr x.before.estate ts) :
      Running e₀ (tr ++ [x]) x.before.estate ts := by
    cases h with
    | none b => exact .none (books b)
    | one flight => exact .one (flies flight)
  -- What is known of the estate is known of the same estate a moment later.
  rw [same]
  cases h with
  | starting p handles started closed left b =>
    exact .starting p handles started closed left (books b)
  | initializing p t handles held launched left flight =>
    exact .initializing p t handles held launched left (flies flight)
  | publishing p d handles held rests => exact .publishing p d handles held (rest rests)
  | finishing t held launched left flight => exact .finishing t held launched left (flies flight)
  | sealing held rests => exact .sealing held (rest rests)
  | entering held rests => exact .entering held (rest rests)
  | failing f held launched ts left running => exact .failing f held launched ts left (runs running)
  | halting vs f given launched left running =>
    exact .halting vs f given launched left (runs running)
  | quieting strict held rests => exact .quieting strict held (rest rests)
  | draining p holds rests => exact .draining p holds (rest rests)
  | confirming p cs holds rests => exact .confirming p cs holds (rest rests)
  | stopping p pass held opened rests makes => exact .stopping p pass held opened (rest rests) makes
  | clearing p r held rests deserted =>
    exact .clearing p r held (rest rests) fun shut => (deserted shut).append x
  | closing p r held rests deserted =>
    exact .closing p r held (rest rests) fun shut => (deserted shut).append x
  | releasing p r held rests deserted =>
    exact .releasing p r held (rest rests) fun shut => (deserted shut).append x
  | disconnecting p r t given opened launched left closes flight =>
    exact .disconnecting p r t given opened launched left closes (flies flight)
  | haltingLast p r given rests shut => exact .haltingLast p r given (rest rests) shut
  | announcing p r given ended rests deserted =>
    exact .announcing p r given ended (rest rests) fun opened => (deserted opened).append x
  | answering p r given ended rests deserted =>
    exact .answering p r given ended (rest rests) fun opened => (deserted opened).append x

/-! ## Every action -/

/-- What is expected at a moment. -/
structure Moment.Regular (x : Moment) : Prop where
  /-- Both parts of a plan handle the engine client properly. -/
  handles : ∀ p, x.action = .enter (.setup p) → p.Handles
  /-- Runtimes can be started. -/
  grants : ∀ k, x.action ≠ .refuse (k + 1)
  /-- No bound of a teardown expires. -/
  patient : ∀ s, x.stage? = some s → s.isBounded = true → ∀ i, x.action ≠ .caller i .expire
  /-- A runtime that has been shut down runs nothing that a setup has left behind. -/
  ended : ∀ f, x.stage? = some (.failing f) →
    x.before.world.workersOpen = true ∨ x.before.leftovers = []

/-- Nothing has been started for an environment. -/
structure Unstarted (e₀ : Estate) (tr : List Moment) (e : Estate) : Prop where
  started : e.started = e₀.started
  closed : e.closed = e₀.closed
  left : e.leftovers = []
  books : Books e₀ tr e 0

/-- Whatever has been opened or started is in custody. -/
structure Guarded (e₀ : Estate) (tr : List Moment) (l : Lifecycle) : Prop where
  granted : l.refusals = 0
  asked : ∀ {i : Nat} {p : Plan}, l.callers[i]? = some (.asking (.setup p)) → p.Handles
  early : l.phase = .uninitialized → Unstarted e₀ tr l.estate
  ready : l.phase = .ready → l.held = true ∧ Resting e₀ tr l.estate
  driver : ∀ {i : Nat} {s : Stage} {q : Phase}, l.callers[i]? = some s → s.drives? = some q →
    Custody e₀ tr l.estate s
  left : l.leftovers = [] ∨ ∃ (i : Nat) (f : Fault), l.callers[i]? = some (.failing f)

theorem Fresh.guarded (fresh : l.Fresh) (granted : l.refusals = 0) : Guarded l.estate [] l where
  granted := granted
  asked := by simp [fresh.callers]
  early := fun _ => ⟨rfl, rfl, fresh.leftovers, by simp [Books]⟩
  ready := by simp [fresh.phase_eq]
  driver := by simp [fresh.callers]
  left := .inl fresh.leftovers

/-- The turn of a caller, with the step that it takes. -/
theorem Moment.turned (act : x.before.act? x.action = some x.after)
    (ha : x.action = .caller i m) : ∃ s s' n, x.before.callers[i]? = some s ∧
      x.Turned s m s' n ∧ x.after = { n with callers := x.before.callers.set i s' } := by
  rcases x with ⟨l, a, after⟩
  cases ha
  have act : l.step? i m = some after := act
  unfold step? at act
  rcases Option.bind_eq_some_iff.1 act with ⟨s, hs, act⟩
  rcases Option.bind_eq_some_iff.1 act with ⟨⟨s', n⟩, step, act⟩
  cases act
  have callers := (turn_of_stepStage? step).callers_eq
  refine ⟨s, s', n, hs, ⟨⟨i, rfl⟩, hs, step, rfl, rfl⟩, ?_⟩
  rw [callers]

/-- A caller that does not drive leaves the estate as it is. -/
theorem Turn.estate_of_none (turn : Turn l s m s' n) (idle : s.drives? = none) :
    n.estate = l.estate := by
  cases turn <;> first | rfl | cases idle

/-- A caller that does not drive makes no call. -/
theorem Stage.call?_of_none (idle : s.drives? = none) (m : Move) : s.call? m = none := by
  cases s <;> first | rfl | cases idle

theorem Turn.refusals (turn : Turn l s m s' n) (granted : l.refusals = 0) : n.refusals = 0 := by
  cases turn
  case launchRefused refused => simp [granted] at refused
  case confirmRefused refused => simp [granted] at refused
  all_goals exact granted

theorem eq_uninitialized_of_rank {q : Phase} (h : q.rank = 0) : q = .uninitialized := by
  cases q <;> first | rfl | cases h

/-- At a moment at which nothing happens to the estate and the driver stays where it is. -/
theorem Guarded.still (h : Guarded e₀ tr x.before) (idle : x.current? = none)
    (same : x.after.estate = x.before.estate) (phase : x.after.phase = x.before.phase)
    (granted : x.after.refusals = 0)
    (asked : ∀ {i : Nat} {p : Plan}, x.after.callers[i]? = some (.asking (.setup p)) → p.Handles)
    (drivers : ∀ {j : Nat} {t : Stage} {q : Phase}, t.drives? = some q →
      (x.after.callers[j]? = some t ↔ x.before.callers[j]? = some t)) :
    Guarded e₀ (tr ++ [x]) x.after where
  granted := granted
  asked := asked
  early := by
    intro hp
    rcases h.early (phase ▸ hp) with ⟨started, closed, left, books⟩
    exact ⟨same ▸ started, same ▸ closed, same ▸ left,
      books.still idle (congrArg Estate.clientOpen same)⟩
  ready := by
    intro hp
    rcases h.ready (phase ▸ hp) with ⟨held, rests⟩
    exact ⟨(congrArg Estate.held same).trans held, rests.still idle same⟩
  driver := fun ht hq => (h.driver ((drivers hq).1 ht) hq).still idle same
  left := by
    have left : x.after.leftovers = x.before.leftovers := congrArg Estate.leftovers same
    rcases h.left with none | ⟨j, f, hj⟩
    · exact .inl (left.trans none)
    · exact .inr ⟨j, f, (drivers rfl).2 hj⟩

theorem Moment.Turned.idle (h : x.Turned s m s' n) (idle : s.drives? = none) :
    x.current? = none := by
  cases m with
  | go k => exact h.current.trans (Stage.call?_of_none idle _)
  | expire => exact h.expired
  | cancel k landed =>
    have turn := h.turn
    cases turn
    cases idle

/-- Nothing is left behind unless a setup has just failed. -/
theorem Custody.left (h : Custody e₀ tr e s) : e.leftovers = [] ∨ ∃ f, s = .failing f := by
  cases h
  case failing f _ _ _ _ _ => exact .inr ⟨f, rfl⟩
  all_goals
    first
      | exact .inl ‹_›
      | exact .inl (Resting.left ‹_›)

theorem Custody.drives (h : Custody e₀ tr e s) : ∃ q, s.drives? = some q := by
  cases h <;> exact ⟨_, rfl⟩

/-- When a caller has moved and nobody else drives. -/
theorem Guarded.driven (hs : x.before.callers[i]? = some s)
    (after : x.after = { n with callers := x.before.callers.set i s' })
    (alone : ∀ {j : Nat} {t : Stage} {q : Phase}, x.before.callers[j]? = some t →
      t.drives? = some q → j = i)
    (custody : Retires e₀ (tr ++ [x]) x s' ∨ Custody e₀ (tr ++ [x]) x.after.estate s')
    (granted : x.after.refusals = 0)
    (asked : ∀ {i : Nat} {p : Plan}, x.after.callers[i]? = some (.asking (.setup p)) → p.Handles)
    (early : x.after.phase ≠ .uninitialized)
    (ready : x.after.phase = .ready → s'.drives? = none ∧ x.before.held = true) :
    Guarded e₀ (tr ++ [x]) x.after where
  granted := granted
  asked := asked
  early := fun hp => absurd hp early
  ready := by
    intro hp
    rcases ready hp with ⟨idle, held⟩
    rcases custody with retires | custody
    · exact ⟨retires.held.trans held, retires.rests⟩
    · rcases custody.drives with ⟨q, hq⟩
      cases idle.symm.trans hq
  -- Whoever drives afterwards is the caller that has moved.
  driver := by
    intro j t q ht hq
    have ht : (x.before.callers.set i s')[j]? = some t := by
      rw [after] at ht
      exact ht
    rcases getElem?_set_cases ht with ⟨rfl, rfl⟩ | ⟨hne, ht⟩
    · rcases custody with retires | custody
      · cases retires.idle.symm.trans hq
      · exact custody
    · exact absurd (alone ht hq) hne
  left := by
    rcases custody with retires | custody
    · exact .inl retires.rests.left
    · rcases custody.left with none | ⟨f, rfl⟩
      · exact .inl none
      · have hi := (List.getElem?_eq_some_iff.1 hs).1
        exact .inr ⟨i, f, by simp [after, hi]⟩

/-- A caller that begins to drive takes everything into its custody. -/
theorem Guarded.begins {q : Phase} (guarded : Guarded e₀ tr x.before)
    (hs : x.before.callers[i]? = some s) (turned : x.Turned s m s' n) (idle : s.drives? = none)
    (drives : s'.drives? = some q) : Custody e₀ (tr ++ [x]) x.after.estate s' := by
  have he := turned.estate
  have turn := turned.turn
  cases turn with
  | begin p k log hp =>
    rcases guarded.early hp with ⟨started, closed, left, books⟩
    exact .starting p (guarded.asked hs) (he ▸ started) (he ▸ closed) (he ▸ left)
      (books.still (turned.idle idle) (congrArg Estate.clientOpen he))
  | tearDown strict k log hp =>
    rcases guarded.ready hp with ⟨held, rests⟩
    exact .quieting strict (he ▸ held) (rests.still (turned.idle idle) he)
  | _ =>
    first
      | (cases idle; done)
      | cases drives

theorem Guarded.asked_turn (guarded : Guarded e₀ tr x.before) (turn : Turn x.before s m s' n)
    (after : x.after = { n with callers := x.before.callers.set i s' }) {j : Nat} {p : Plan}
    (hj : x.after.callers[j]? = some (.asking (.setup p))) : p.Handles := by
  have hj : (x.before.callers.set i s')[j]? = some (.asking (.setup p)) := by
    rw [after] at hj
    exact hj
  rcases getElem?_set_cases hj with ⟨-, rfl⟩ | ⟨-, hj⟩
  · cases turn
  · exact guarded.asked hj

/-- A caller that does not drive moves on to a stage at which it does not drive either. -/
theorem drivers_of_idle (hs : l.callers[i]? = some s) (idle : s.drives? = none)
    (still : s'.drives? = none) {j : Nat} {t : Stage} {q : Phase} (hq : t.drives? = some q) :
    (l.callers.set i s')[j]? = some t ↔ l.callers[j]? = some t := by
  constructor
  · intro ht
    rcases getElem?_set_cases ht with ⟨rfl, rfl⟩ | ⟨-, ht⟩
    · cases still.symm.trans hq
    · exact ht
  · intro ht
    have other : i ≠ j := by
      rintro rfl
      cases hs.symm.trans ht
      cases idle.symm.trans hq
    rw [List.getElem?_set_ne other]
    exact ht

/-- A driver does not lead back to the first phase. -/
theorem Turn.phase_ne_uninitialized {q : Phase} (turn : Turn l s m s' n)
    (hd : s.drives? = some q) (hq : l.phase = q) : n.phase ≠ .uninitialized := by
  intro hp
  have rank := turn.rank_le
  rw [hp, hq] at rank
  exact (drives?_ne hd).1 (eq_uninitialized_of_rank (Nat.le_zero.1 rank))

/-- A driver comes to the ready phase only by ceasing to drive, and keeps its runtime. -/
theorem Custody.ready_turn {q : Phase} (custody : Custody e₀ tr l.estate s)
    (turn : Turn l s m s' n) (hd : s.drives? = some q) (hq : l.phase = q)
    (hp : n.phase = .ready) : s'.drives? = none ∧ l.held = true := by
  rcases turn.history with history | ⟨q', -, history, enters⟩
  · rw [phase_of_history_eq history, hq] at hp
    exact absurd hp (drives?_ne hd).2
  · rw [phase_of_history history] at hp
    cases enters with
    | setup p => cases hp
    | ready =>
      cases custody with
      | entering held rests => exact ⟨rfl, held⟩
    | teardown strict => cases hp
    | close p r => cases p <;> cases hp

/-- The turn of a caller takes nothing out of custody. -/
theorem Guarded.turn (guarded : Guarded e₀ tr x.before) (sound : x.before.Sound)
    (act : x.before.act? x.action = some x.after) (ha : x.action = .caller i m)
    (regular : x.Regular)
    (handed : ∀ {p : Purpose} {cs : List Capability},
      x.before.callers[i]? = some (.confirming p cs) → HandedOver tr cs)
    (alive : x.before.held = true → x.before.world.workersOpen = true ∨
      ∃ z ∈ tr, z.call? = some .shutdownRuntime) : Guarded e₀ (tr ++ [x]) x.after := by
  rcases Moment.turned act ha with ⟨s, s', n, hs, turned, after⟩
  have turn := turned.turn
  have granted : x.after.refusals = 0 := by
    rw [after]
    exact turn.refusals guarded.granted
  have asked {j : Nat} {p : Plan} : x.after.callers[j]? = some (.asking (.setup p)) → p.Handles :=
    guarded.asked_turn turn after
  have phase : x.after.phase = n.phase := by
    rw [after]
    rfl
  cases hd : s.drives? with
  | none =>
    rcases turn.drives_of_none hd with ⟨hn, history⟩ | ⟨unset, hn⟩
    · refine guarded.still (turned.idle hd) (turned.estate.trans (turn.estate_of_none hd))
        (phase.trans (phase_of_history_eq history)) granted asked ?_
      intro j t q hq
      rw [after]
      exact drivers_of_idle hs hd hn hq
    · -- Nobody drives in the phase that the caller leaves.
      have alone {j : Nat} {t : Stage} {q : Phase} (ht : x.before.callers[j]? = some t)
          (hq : t.drives? = some q) : j = i := by
        rw [sound.phase_eq ht hq] at unset
        exact absurd unset (by simp [drives?_ne hq])
      have custody := guarded.begins hs turned hd hn
      rw [← phase] at hn
      exact Guarded.driven hs after alone (.inr custody) granted asked (drives?_ne hn).1
        fun hp => absurd hp (drives?_ne hn).2
  | some q =>
    have custody := guarded.driver hs hd
    have hq : x.before.phase = q := sound.phase_eq hs hd
    have next := custody.turn turned guarded.granted
      (fun bounded expires => regular.patient s turned.stage bounded i (expires ▸ ha))
      (fun f failing => regular.ended f (failing ▸ turned.stage))
      (fun p cs confirming => handed (confirming ▸ hs)) alive
    refine Guarded.driven hs after (fun ht hq => sound.unique ht hs hq hd) next granted asked ?_ ?_
    · rw [phase]
      exact turn.phase_ne_uninitialized hd hq
    · rw [phase]
      exact custody.ready_turn turn hd hq

/-- At most one program has been left behind, by a setup that has just failed. -/
theorem Guarded.left_behind {o : Leftover} (guarded : Guarded e₀ tr l)
    (hi : l.leftovers[i]? = some o) : ∃ (j : Nat) (f : Fault) (t : Task (Except Fault Unit)),
      l.callers[j]? = some (.failing f) ∧ i = 0 ∧ o = .work t ∧ l.leftovers = [.work t] ∧
        l.held = true ∧ Launched e₀ l.estate ∧
          Flight e₀ tr l.estate (fun s _ => s ≠ .closing) t := by
  rcases guarded.left with none | ⟨j, f, hj⟩
  · simp [none] at hi
  · cases guarded.driver hj rfl with
    | failing f held launched ts left running =>
      have left : l.leftovers = ts.map .work := left
      cases running with
      | none books => simp [left] at hi
      | @one t flight =>
        rw [left] at hi
        match i, hi with
        | 0, rfl => exact ⟨j, f, t, hj, rfl, rfl, left, held, launched, flight⟩

/-- What a setup has left behind goes on. -/
theorem Guarded.leftover {k : Nat} (guarded : Guarded e₀ tr l) (sound : l.Sound)
    (change : Change l (.leftover i k) n) :
    Guarded e₀ (tr ++ [⟨l, .leftover i k, n⟩]) n := by
  -- What is left behind is the only program of a setup, never a pass.
  cases change with
  | @work i k t t' w hi hn =>
    rcases guarded.left_behind hi with ⟨j, f, t, hj, rfl, he, left, held, launched, flight⟩
    cases he
    have phase : l.phase = .initializing := sound.phase_eq hj rfl
    have phase' : { l with world := w : Lifecycle }.phase = .initializing :=
      (phase_of_history_eq (World.next?_history hn)).trans phase
    let x : Moment :=
      ⟨l, .leftover 0 k, { l with world := w, leftovers := l.leftovers.set 0 (.work t') }⟩
    have current : x.current? = t.call? := by
      simp [x, Moment.current?, Moment.call?, Lifecycle.call?, hi, Leftover.call?]
    rcases World.answers_of_next? hn with ⟨c, next, r, rfl, rfl, answered⟩
    rcases flight.replied (x := x) launched rfl current answered rfl with ⟨launched, flight⟩
    refine ⟨guarded.granted, guarded.asked, ?_, ?_, ?_, .inr ⟨j, f, hj⟩⟩
    · intro hp
      cases phase'.symm.trans hp
    · intro hp
      cases phase'.symm.trans hp
    · intro j' t q ht hq
      rcases sound.unique ht hj hq rfl with rfl
      cases ht.symm.trans hj
      refine .failing f held launched [next r] ?_ (.one flight)
      simp [estate, left]
  | passGoes i k hi ht =>
    rcases guarded.left_behind hi with ⟨_, _, _, _, _, he, _⟩
    cases he
  | passEnds i k hi ht =>
    rcases guarded.left_behind hi with ⟨_, _, _, _, _, he, _⟩
    cases he
  | passSteps i k hi ht hn =>
    rcases guarded.left_behind hi with ⟨_, _, _, _, _, he, _⟩
    cases he

/-- No action takes anything out of custody. -/
theorem Guarded.change {a : Action} (guarded : Guarded e₀ tr l) (sound : l.Sound)
    (act : l.act? a = some n) (regular : Moment.Regular ⟨l, a, n⟩)
    (handed : ∀ {i : Nat} {p : Purpose} {cs : List Capability},
      l.callers[i]? = some (.confirming p cs) → HandedOver tr cs)
    (alive : l.held = true → l.world.workersOpen = true ∨
      ∃ z ∈ tr, z.call? = some .shutdownRuntime) : Guarded e₀ (tr ++ [⟨l, a, n⟩]) n := by
  -- A caller that enters has nothing in custody yet.
  cases a with
  | enter d =>
    cases act
    refine guarded.still rfl rfl rfl guarded.granted ?_ ?_
    · intro i p hi
      rcases getElem?_append_singleton_cases hi with hi | he
      · exact guarded.asked hi
      · cases he
        exact regular.handles p rfl
    · intro j t q hq
      constructor
      · intro ht
        rcases getElem?_append_singleton_cases ht with ht | rfl
        · exact ht
        · cases hq
      · intro ht
        exact (List.getElem?_append_left (List.getElem?_eq_some_iff.1 ht).1).trans ht
  | caller i m => exact guarded.turn (x := ⟨l, _, n⟩) sound act rfl regular handed alive
  | leftover i k => exact guarded.leftover sound (change_of_act? act)
  | refuse k =>
    cases act
    cases k with
    | zero => exact guarded.still rfl rfl rfl rfl guarded.asked fun _ => Iff.rfl
    | succ k => exact absurd rfl (regular.grants k)
  | gate isOpen =>
    cases act
    exact guarded.still rfl rfl rfl guarded.granted guarded.asked fun _ => Iff.rfl

/-! ## Every run -/

theorem Run.guarded (fresh : l.Fresh) (granted : l.refusals = 0) (run : Run l tr l')
    (regular : ∀ z ∈ tr, z.Regular) : Guarded l.estate tr l' := by
  -- What a pass is about to stop and whether a runtime was shut down is known of the run so far.
  induction run with
  | refl => exact fresh.guarded granted
  | @tail tr m n a run h ih =>
    have before := ih fun z hz => regular z (List.mem_append_left _ hz)
    refine before.change (run.sound fresh) h (regular _ (by simp)) ?_ ?_
    · intro i p cs hi
      exact run.passKnown fresh hi
    · intro held
      by_cases shut : ∃ z ∈ tr, z.call? = some .shutdownRuntime
      · exact .inr shut
      · simp only [not_exists, not_and] at shut
        exact .inl ((run.staffed fresh shut).opened held)

/-- Work that shuts down its runtime. -/
def shutDown : Work Unit := Work.ask .shutdownRuntime

end Lifecycle
end Testbed

import Testbed.Lifecycle.Step

/-!
# Turns

`Turn l s m s' l'` lists every way in which a caller at stage `s` can move on to stage `s'`, with
the guard of each way and the state after it.  The listing is what proofs about all runs split
into cases; the functions behind a step are opened here only.

Log records are left open: a turn may leave any log behind.
-/

namespace Testbed

/-- The terminal phase that stopping for a purpose ends in. -/
def Purpose.target : Purpose → Phase
  | .failure _ => .failed
  | .teardown _ => .stopped

namespace Lifecycle

/-! ## Transitions -/

/-- A transition succeeds exactly if the table has it. -/
theorem transition_eq (l : Lifecycle) (target : Phase) :
    l.transition target =
      if target ∈ l.phase.next then
        .ok { l with world := { l.world with
          history := ⟨target, l.world.history.visited ++ [target]⟩
          log := l.world.log ++ [⟨Level.debug, l.world.history.notice target⟩] } }
      else .error (Phase.refused l.phase target) := by
  by_cases h : target ∈ l.phase.next
  · have h' : l.world.history.phase.next.contains target = true := by
      simpa [phase] using h
    simp only [transition, PhaseHistory.advance, h', h, if_true]
    rfl
  · have h' : l.world.history.phase.next.contains target = false := by
      simpa [phase] using h
    simp only [transition, PhaseHistory.advance, h', h, if_false]
    rfl

/-! ## The ways to move on -/

/-- The ways in which a caller can move on. -/
inductive Turn (l : Lifecycle) : Stage → Move → Stage → Lifecycle → Prop where
  -- Setting up.
  | begin (p : Plan) (k : Nat) (log : List LogRecord) (h : l.phase = .uninitialized) :
      Turn l (.asking (.setup p)) (.go k) (.starting p)
        { l with world := { l.world with
          history := ⟨.initializing, l.world.history.visited ++ [.initializing]⟩, log := log } }
  | tooLate (p : Plan) (k : Nat) (h : l.phase ≠ .uninitialized) :
      Turn l (.asking (.setup p)) (.go k) (.finished (.error (alreadyInitialized l.phase))) l
  | launch (p : Plan) (k : Nat) (host : Option String) (log : List LogRecord)
      (h : l.refusals = 0) :
      Turn l (.starting p) (.go k) (.initializing p (p.init ⟨l.session, l.settings⟩))
        { l with
          held := true, hasClient := true
          world := { l.world with
            workersOpen := true, runtimesStarted := l.world.runtimesStarted + 1
            host := host, log := log } }
  | launchRefused (p : Plan) (k n : Nat) (h : l.refusals = n + 1) :
      Turn l (.starting p) (.go k) (.failing noThread) { l with refusals := n }
  | init (p : Plan) (k : Nat) {t t' : Task (Except Fault Delivery)} {w : World}
      (h : l.world.next? t = some (t', w)) :
      Turn l (.initializing p t) (.go k) (.initializing p t') { l with world := w }
  | initDone (p : Plan) (k : Nat) (d : Delivery) :
      Turn l (.initializing p (.done (.ok d))) (.go k) (.publishing p d) l
  | initFailed (p : Plan) (k : Nat) (f : Fault) :
      Turn l (.initializing p (.done (.error f))) (.go k) (.failing (crossing f)) l
  | initExpired (p : Plan) {t : Task (Except Fault Delivery)} {t' : Task (Except Fault Unit)}
      (h : StopPass.unfinished? t = some t') :
      Turn l (.initializing p t) .expire (.failing Fault.expired)
        { l with leftovers := l.leftovers ++ [.work t'] }
  | publishFailed (p : Plan) (d : Delivery) (k : Nat) {f : Fault} {w : World}
      (h : publish l.world d = (.error f, w)) :
      Turn l (.publishing p d) (.go k) (.failing f) { l with world := w }
  | publishLast (p : Plan) (d : Delivery) (k : Nat) {frozen : EnvironmentSettings} {w : World}
      (h : publish l.world d = (.ok frozen, w)) (after : p.after = none) :
      Turn l (.publishing p d) (.go k) .sealing { l with world := w }
  | publishThen (p : Plan) (d : Delivery) (k : Nat) {frozen : EnvironmentSettings} {w : World}
      {after : EnvironmentSettings → Work Unit} (log : List LogRecord)
      (h : publish l.world d = (.ok frozen, w)) (ha : p.after = some after)
      (running : l.held = true ∧ w.workersOpen = true) :
      Turn l (.publishing p d) (.go k) (.finishing (after frozen))
        { l with world := { w with log := log } }
  | publishClosed (p : Plan) (d : Delivery) (k : Nat) {frozen : EnvironmentSettings} {w : World}
      (log : List LogRecord) (h : publish l.world d = (.ok frozen, w))
      (closed : ¬ (l.held = true ∧ w.workersOpen = true)) :
      Turn l (.publishing p d) (.go k) (.failing Background.closedFault)
        { l with world := { w with log := log } }
  | finish (k : Nat) {t t' : Task (Except Fault Unit)} {w : World}
      (h : l.world.next? t = some (t', w)) :
      Turn l (.finishing t) (.go k) (.finishing t') { l with world := w }
  | finishDone (k : Nat) : Turn l (.finishing (.done (.ok ()))) (.go k) .sealing l
  | finishFailed (k : Nat) (f : Fault) :
      Turn l (.finishing (.done (.error f))) (.go k) (.failing (crossing f)) l
  | finishExpired {t t' : Task (Except Fault Unit)} (h : StopPass.unfinished? t = some t') :
      Turn l (.finishing t) .expire (.failing Fault.expired)
        { l with leftovers := l.leftovers ++ [.work t'] }
  | sealFailed (k : Nat) {f : Fault} (h : l.world.registry.sealEntries = .error f) :
      Turn l .sealing (.go k) (.failing f) l
  | seal (k : Nat) {r : Registry} (log : List LogRecord)
      (h : l.world.registry.sealEntries = .ok r) :
      Turn l .sealing (.go k) .entering
        { l with world := { l.world with registry := r, log := log } }
  | enterReady (k : Nat) (log : List LogRecord) (h : .ready ∈ l.phase.next) :
      Turn l .entering (.go k) .announcingReady
        { l with world := { l.world with
          history := ⟨.ready, l.world.history.visited ++ [.ready]⟩, log := log } }
  | enterReadyRefused (k : Nat) (h : .ready ∉ l.phase.next) :
      Turn l .entering (.go k) (.finished (.error (Phase.refused l.phase .ready))) l
  | announceReady (k : Nat) : Turn l .announcingReady (.go k) .settling { l with ready := true }
  | settle (k : Nat) (log : List LogRecord) :
      Turn l .settling (.go k) (.finished (.ok .nothing))
        { l with settled := true, world := { l.world with log := log } }
  | failHalting (f : Fault) (k : Nat) (log : List LogRecord)
      (running : l.held = true ∧ l.world.workersOpen = true) :
      Turn l (.failing f) (.go k) (.halting l.victims (.drain f))
        { l with
          failure := some f, held := false, leftovers := []
          world := { l.world with log := log } }
  | failDraining (f : Fault) (k : Nat) (log : List LogRecord)
      (closed : ¬ (l.held = true ∧ l.world.workersOpen = true)) :
      Turn l (.failing f) (.go k) (.draining (.failure f))
        { l with failure := some f, held := false, world := { l.world with log := log } }
  -- Stopping containers.
  | tearDown (strict : Bool) (k : Nat) (log : List LogRecord) (h : l.phase = .ready) :
      Turn l (.asking (.teardown strict)) (.go k) (.quieting strict)
        { l with world := { l.world with
          history := ⟨.tearingDown, l.world.history.visited ++ [.tearingDown]⟩, log := log } }
  | tearDownSoon (strict : Bool) (k : Nat) (log : List LogRecord) (h : l.phase = .initializing) :
      Turn l (.asking (.teardown strict)) (.go k) (.awaitingSettled strict)
        { l with world := { l.world with log := log } }
  | tearDownAlong (strict : Bool) (k : Nat) (h : l.phase = .tearingDown) :
      Turn l (.asking (.teardown strict)) (.go k) .awaitingStopped l
  | tearDownNothing (strict : Bool) (k : Nat) (log : List LogRecord)
      (h : l.phase = .uninitialized ∨ l.phase = .stopped ∨ l.phase = .failed) :
      Turn l (.asking (.teardown strict)) (.go k) .reading
        { l with world := { l.world with log := log } }
  | quiet (strict : Bool) (k : Nat) (log : List LogRecord) :
      Turn l (.quieting strict) (.go k) (.draining (.teardown strict))
        { l with world := { l.world with
          registry := l.world.registry.beginDrain, log := log } }
  | drain (p : Purpose) (k : Nat) (log : List LogRecord) :
      Turn l (.draining p) (.go k) (.confirming p l.world.ledger.entries.reverse)
        { l with world := { l.world with ledger := ⟨[]⟩, log := log } }
  | confirmNothing (p : Purpose) (k : Nat) (h : l.sweepOf p = none) :
      Turn l (.confirming p []) (.go k) (.clearing p (.ok {})) l
  | confirm (p : Purpose) (cs : List Capability) (k : Nat)
      (running : l.held = true ∧ l.world.workersOpen = true) :
      Turn l (.confirming p cs) (.go k) (.stopping p (.start cs (l.sweepOf p))) l
  | confirmAnew (p : Purpose) (cs : List Capability) (k : Nat) (log : List LogRecord)
      (h : l.refusals = 0) :
      Turn l (.confirming p cs) (.go k) (.stopping p (.start cs (l.sweepOf p)))
        { l with
          held := true
          world := { l.world with
            workersOpen := true, runtimesStarted := l.world.runtimesStarted + 1, log := log } }
  | confirmRefused (p : Purpose) (cs : List Capability) (k n : Nat) (h : l.refusals = n + 1) :
      Turn l (.confirming p cs) (.go k) (.clearing p (.error noThread)) { l with refusals := n }
  | passGoes (p : Purpose) {pass pass' : StopPass} (k : Nat) {w : World}
      (h : pass.turn? l.world = some (.going pass', w)) :
      Turn l (.stopping p pass) (.go k) (.stopping p pass') { l with world := w }
  | passEnds (p : Purpose) {pass : StopPass} (k : Nat) {r : Except Fault TeardownReport}
      {w : World} (h : pass.turn? l.world = some (.ended r, w)) :
      Turn l (.stopping p pass) (.go k)
        (.clearing p ({ l with world := w }.confirmed pass r)) { l with world := w }
  | passSteps (p : Purpose) {pass pass' : StopPass} (k : Nat) {w : World}
      (idle : pass.turn? l.world = none) (h : pass.step? l.world k = some (pass', w)) :
      Turn l (.stopping p pass) (.go k) (.stopping p pass') { l with world := w }
  | passExpired (p : Purpose) (pass : StopPass) :
      Turn l (.stopping p pass) .expire (.clearing p (.ok (l.expiredReport pass)))
        { l with leftovers := l.leftovers ++ [.pass pass] }
  -- Entering a terminal phase.
  | clearFailure (f : Fault) (r : TeardownReport) (k : Nat) (log : List LogRecord) :
      Turn l (.clearing (.failure f) (.ok r)) (.go k) (.closing (.failure f) (.ok r))
        { l with
          report := r
          world := { l.world with registry := l.world.registry.clear, log := log } }
  | clear (p : Purpose) (r : Except Fault TeardownReport) (k : Nat) (log : List LogRecord)
      (h : ∀ f r', p = .failure f → r ≠ .ok r') :
      Turn l (.clearing p r) (.go k) (.closing p r)
        { l with world := { l.world with registry := l.world.registry.clear, log := log } }
  | closeFailed (f : Fault) (r : Except Fault TeardownReport) (k : Nat) (log : List LogRecord)
      (h : .failed ∈ l.phase.next) :
      Turn l (.closing (.failure f) r) (.go k) (.releasing (.failure f) r)
        { l with world := { l.world with
          history := ⟨.failed, l.world.history.visited ++ [.failed]⟩, log := log } }
  | closeStopped (strict : Bool) (r : Except Fault TeardownReport) (k : Nat)
      (log : List LogRecord) (h : .stopped ∈ l.phase.next) :
      Turn l (.closing (.teardown strict) r) (.go k) (.releasing (.teardown strict) r)
        { l with
          report := r.toOption.getD {}
          world := { l.world with
            history := ⟨.stopped, l.world.history.visited ++ [.stopped]⟩, log := log } }
  | closeRefused (p : Purpose) (r : Except Fault TeardownReport) (k : Nat)
      (report : TeardownReport) (h : p.target ∉ l.phase.next) :
      Turn l (.closing p r) (.go k) (.finished (.error (Phase.refused l.phase p.target)))
        { l with report := report }
  -- Releasing.
  | disconnect (p : Purpose) (r : Except Fault TeardownReport) (k : Nat) :
      Turn l (.releasing p r) (.go k) (.disconnecting p r Client.close) { l with held := false }
  | releaseHalting (p : Purpose) (r : Except Fault TeardownReport) (k : Nat) :
      Turn l (.releasing p r) (.go k) (.halting l.victims (.announce p r))
        { l with held := false, leftovers := [] }
  | releaseNothing (p : Purpose) (r : Except Fault TeardownReport) (k : Nat)
      (closed : ¬ (l.held = true ∧ l.world.workersOpen = true)) :
      Turn l (.releasing p r) (.go k) (.announcing p r) { l with held := false }
  | disconnected (p : Purpose) (r : Except Fault TeardownReport) (k : Nat)
      (o : Except Fault Unit) (log : List LogRecord) :
      Turn l (.disconnecting p r (.done o)) (.go k) (.halting l.victims (.announce p r))
        { l with leftovers := [], world := { l.world with log := log } }
  | disconnectSteps (p : Purpose) (r : Except Fault TeardownReport) (k : Nat)
      {t t' : Task (Except Fault Unit)} {w : World} (h : l.world.next? t = some (t', w)) :
      Turn l (.disconnecting p r t) (.go k) (.disconnecting p r t') { l with world := w }
  | disconnectExpired (p : Purpose) (r : Except Fault TeardownReport)
      (t : Task (Except Fault Unit)) (log : List LogRecord) :
      Turn l (.disconnecting p r t) .expire
        (.halting (l.victims ++ [.waiting t]) (.announce p r))
        { l with leftovers := [], world := { l.world with log := log } }
  | haltedFailing (f : Fault) (k : Nat) :
      Turn l (.halting [] (.drain f)) (.go k) (.draining (.failure f))
        { l with world := l.world.closeRuntime }
  | halted (p : Purpose) (r : Except Fault TeardownReport) (k : Nat) :
      Turn l (.halting [] (.announce p r)) (.go k) (.announcing p r)
        { l with world := l.world.closeRuntime }
  | victimDone (vs : List Victim) (next : Afterwards) (k : Nat) {o : Except Fault Unit}
      (hk : vs[k]? = some (.waiting (.done o)) ∨ vs[k]? = some (.dying (.done o))) :
      Turn l (.halting vs next) (.go k) (.halting (vs.eraseIdx k) next) l
  | victimDies (vs : List Victim) (next : Afterwards) (k : Nat)
      {t t' : Task (Except Fault Unit)} {w : World} (hk : vs[k]? = some (.dying t))
      (h : l.world.next? t = some (t', w)) :
      Turn l (.halting vs next) (.go k) (.halting (vs.set k (.dying t')) next)
        { l with world := w }
  | victimGoes (vs : List Victim) (next : Afterwards) (k : Nat)
      {t t' : Task (Except Fault Unit)} {w : World} (hk : vs[k]? = some (.waiting t))
      (h : l.world.next? t = some (t', w)) :
      Turn l (.halting vs next) (.go k) (.halting (vs.set k (.waiting t')) next)
        { l with world := w }
  | victimCancelled (vs : List Victim) (next : Afterwards) (k : Nat) (landed : Bool)
      {t t' : Task (Except Fault Unit)} {w : World} (hk : vs[k]? = some (.waiting t))
      (h : l.world.cancel? landed t = some (t', w)) :
      Turn l (.halting vs next) (.cancel k landed) (.halting (vs.set k (.dying t')) next)
        { l with world := w }
  | announceFailure (f : Fault) (r : Except Fault TeardownReport) (k : Nat) :
      Turn l (.announcing (.failure f) r) (.go k) (.answering (.failure f) r)
        { l with settled := true }
  | announceTeardown (strict : Bool) (r : Except Fault TeardownReport) (k : Nat) :
      Turn l (.announcing (.teardown strict) r) (.go k) (.answering (.teardown strict) r)
        { l with stopped := true }
  | answerError (p : Purpose) (g : Fault) (k : Nat) :
      Turn l (.answering p (.error g)) (.go k) (.finished (.error g)) l
  | answerFailure (f : Fault) (r : TeardownReport) (k : Nat) :
      Turn l (.answering (.failure f) (.ok r)) (.go k) (.finished (.error f)) l
  | answerIncomplete (r : TeardownReport) (k : Nat) (log : List LogRecord) (h : r.ok = false) :
      Turn l (.answering (.teardown true) (.ok r)) (.go k)
        (.finished (.error (incomplete r.failures))) { l with world := { l.world with log := log } }
  | answerReport (strict : Bool) (r : TeardownReport) (k : Nat) (log : List LogRecord)
      (h : strict = true → r.ok = true) :
      Turn l (.answering (.teardown strict) (.ok r)) (.go k) (.finished (.ok (.report r)))
        { l with world := { l.world with log := log } }
  -- Waiting for other callers.
  | askAgain (strict : Bool) (k : Nat) (h : l.settled = true) :
      Turn l (.awaitingSettled strict) (.go k) (.asking (.teardown strict)) l
  | released (k : Nat) (h : l.stopped = true) : Turn l .awaitingStopped (.go k) .reading l
  | read (k : Nat) : Turn l .reading (.go k) (.finished (.ok (.report l.report))) l
  | await (bounded : Bool) (k : Nat) :
      Turn l (.asking (.await bounded)) (.go k) (.awaitingReady bounded) l
  | awaited (bounded : Bool) (k : Nat) (h : l.settled = true) :
      Turn l (.awaitingReady bounded) (.go k) .checking l
  | awaitExpired : Turn l (.awaitingReady true) .expire (.finished (.ok (.flag false))) l
  | check (k : Nat) :
      Turn l .checking (.go k) (.finished (.ok (.flag (l.ready && l.phase == .ready)))) l

/-! ## Every step of a caller is one of them -/

section

variable {l l' : Lifecycle} {s' : Stage} {k : Nat}

theorem turn_of_begin {p : Plan} (h : l.begin p = (s', l')) :
    Turn l (.asking (.setup p)) (.go k) s' l' := by
  unfold begin at h
  by_cases hp : l.phase = .uninitialized
  · rw [if_pos hp, transition_eq, if_pos (by simp [hp, Phase.next])] at h
    cases h
    exact .begin p k _ hp
  · rw [if_neg hp] at h
    cases h
    exact .tooLate p k hp

theorem turn_of_startPlan {p : Plan} (h : l.startPlan p = (s', l')) :
    Turn l (.starting p) (.go k) s' l' := by
  rcases l with ⟨w, settings, session, hasClient, refusals⟩
  cases refusals with
  | succ n =>
    cases h
    exact .launchRefused p k n rfl
  | zero =>
    cases hasClient with
    | true =>
      cases h
      exact .launch p k w.host _ rfl
    | false =>
      cases h
      exact .launch p k settings.engineHost _ rfl

theorem turn_of_publishPlan {p : Plan} {d : Delivery} (h : l.publishPlan p d = (s', l')) :
    Turn l (.publishing p d) (.go k) s' l' := by
  unfold publishPlan at h
  cases hd : publish l.world d with
  | mk r w =>
    cases r with
    | error f =>
      rw [hd] at h
      cases h
      exact .publishFailed p d k hd
    | ok frozen =>
      rw [hd] at h
      cases ha : p.after with
      | none =>
        simp only [ha] at h
        cases h
        exact .publishLast p d k hd ha
      | some after =>
        simp only [ha] at h
        split at h
        · rename_i running
          cases h
          exact .publishThen p d k _ hd ha (by simpa [isRunning, say, World.say] using running)
        · rename_i closed
          cases h
          exact .publishClosed p d k _ hd (by simpa [isRunning, say, World.say] using closed)

theorem turn_of_sealPlan (h : l.sealPlan = (s', l')) : Turn l .sealing (.go k) s' l' := by
  unfold sealPlan at h
  cases hr : l.world.registry.sealEntries with
  | error f =>
    rw [hr] at h
    cases h
    exact .sealFailed k hr
  | ok r =>
    rw [hr] at h
    cases h
    exact .seal k _ hr

theorem turn_of_enterReady (h : l.enterReady = (s', l')) : Turn l .entering (.go k) s' l' := by
  unfold enterReady at h
  rw [transition_eq] at h
  by_cases hp : Phase.ready ∈ l.phase.next
  · rw [if_pos hp] at h
    cases h
    exact .enterReady k _ hp
  · rw [if_neg hp] at h
    cases h
    exact .enterReadyRefused k hp

theorem turn_of_beginFailing {f : Fault} (h : l.beginFailing f = (s', l')) :
    Turn l (.failing f) (.go k) s' l' := by
  unfold beginFailing at h
  by_cases hr : l.held = true ∧ l.world.workersOpen = true
  · rw [if_pos (by simpa [isRunning, say, World.say] using hr)] at h
    cases h
    exact .failHalting f k _ hr
  · rw [if_neg (by simpa [isRunning, say, World.say] using hr)] at h
    cases h
    exact .failDraining f k _ hr

theorem turn_of_beginTeardown {strict : Bool} (h : l.beginTeardown strict = (s', l')) :
    Turn l (.asking (.teardown strict)) (.go k) s' l' := by
  unfold beginTeardown at h
  cases hp : l.phase with
  | ready =>
    simp only [hp] at h
    rw [transition_eq, if_pos (by simp [hp, Phase.next])] at h
    cases h
    exact .tearDown strict k _ hp
  | initializing =>
    simp only [hp] at h
    cases h
    exact .tearDownSoon strict k _ hp
  | tearingDown =>
    simp only [hp] at h
    cases h
    exact .tearDownAlong strict k hp
  | uninitialized =>
    simp only [hp] at h
    cases h
    exact .tearDownNothing strict k _ (by simp [hp])
  | stopped =>
    simp only [hp] at h
    cases h
    exact .tearDownNothing strict k _ (by simp [hp])
  | failed =>
    simp only [hp] at h
    cases h
    exact .tearDownNothing strict k _ (by simp [hp])

theorem turn_of_drain {p : Purpose} (h : l.drain p = (s', l')) :
    Turn l (.draining p) (.go k) s' l' := by
  cases p with
  | teardown strict =>
    cases h
    exact .drain _ k l.world.log
  | failure f =>
    unfold drain at h
    simp only at h
    split at h
    · cases h
      exact .drain _ k l.world.log
    · cases h
      exact .drain _ k _

theorem acquire_of_zero (h : l.refusals = 0) :
    l.acquire = (.ok (), { l with
      held := true, world := l.world.startRuntime l.settings.runtimeWorkers }) := by
  unfold acquire
  split
  · simp_all
  · rfl

theorem acquire_of_succ {n : Nat} (h : l.refusals = n + 1) :
    l.acquire = (.error noThread, { l with refusals := n }) := by
  unfold acquire
  split
  · simp_all
  · simp_all

theorem turn_of_confirm {p : Purpose} {cs : List Capability} (h : l.confirm p cs = (s', l')) :
    Turn l (.confirming p cs) (.go k) s' l' := by
  unfold confirm at h
  by_cases hn : cs.isEmpty && (l.sweepOf p).isNone
  · simp only [hn, if_true] at h
    simp only [Bool.and_eq_true, List.isEmpty_iff, Option.isNone_iff_eq_none] at hn
    rcases hn with ⟨rfl, hs⟩
    cases h
    exact .confirmNothing p k hs
  · simp only [hn] at h
    by_cases hr : l.held = true ∧ l.world.workersOpen = true
    · have hi : l.isRunning = true := by
        simpa [isRunning] using hr
      simp only [hi] at h
      cases h
      exact .confirm p cs k hr
    · have hi : l.isRunning = false := by
        simpa [isRunning] using hr
      simp only [hi] at h
      cases hf : l.refusals with
      | zero =>
        rw [acquire_of_zero hf] at h
        cases h
        exact .confirmAnew p cs k _ hf
      | succ n =>
        rw [acquire_of_succ hf] at h
        cases h
        exact .confirmRefused p cs k n hf

theorem turn_of_stepPass? {p : Purpose} {pass : StopPass}
    (h : l.stepPass? p pass k = some (s', l')) : Turn l (.stopping p pass) (.go k) s' l' := by
  unfold stepPass? at h
  cases ht : pass.turn? l.world with
  | none =>
    rw [ht] at h
    cases hs : pass.step? l.world k with
    | none => simp [hs] at h
    | some r =>
      simp only [hs] at h
      cases h
      exact .passSteps p k ht hs
  | some r =>
    rcases r with ⟨progress, w⟩
    rw [ht] at h
    cases progress with
    | going pass' =>
      cases h
      exact .passGoes p k ht
    | ended r =>
      cases h
      exact .passEnds p k ht

theorem turn_of_clearRegistry {p : Purpose} {r : Except Fault TeardownReport}
    (h : l.clearRegistry p r = (s', l')) : Turn l (.clearing p r) (.go k) s' l' := by
  unfold clearRegistry at h
  cases p with
  | teardown strict =>
    cases h
    exact .clear _ r k _ (by simp)
  | failure f =>
    cases r with
    | error g =>
      cases h
      exact .clear _ _ k _ (by simp)
    | ok report =>
      simp only [keepReport] at h
      split at h
      · cases h
        exact .clearFailure f report k _
      · cases h
        exact .clearFailure f report k _

theorem turn_of_close {p : Purpose} {r : Except Fault TeardownReport}
    (h : l.close p r = (s', l')) : Turn l (.closing p r) (.go k) s' l' := by
  unfold close at h
  cases p with
  | failure f =>
    simp only [transition_eq] at h
    by_cases hp : Phase.failed ∈ l.phase.next
    · rw [if_pos hp] at h
      cases h
      exact .closeFailed f r k _ hp
    · rw [if_neg hp] at h
      cases h
      exact .closeRefused (.failure f) r k l.report hp
  | teardown strict =>
    simp only [transition_eq] at h
    by_cases hp : Phase.stopped ∈ l.phase.next
    · rw [if_pos (by simpa [phase] using hp)] at h
      cases h
      exact .closeStopped strict r k _ hp
    · rw [if_neg (by simpa [phase] using hp)] at h
      cases h
      exact .closeRefused (.teardown strict) r k _ hp

theorem turn_of_release {p : Purpose} {r : Except Fault TeardownReport}
    (h : l.release p r = (s', l')) : Turn l (.releasing p r) (.go k) s' l' := by
  unfold release at h
  split at h
  · simp only at h
    split at h
    · cases h
      exact .disconnect p r k
    · cases h
      exact .releaseHalting p r k
  · rename_i closed
    cases h
    exact .releaseNothing p r k (by simpa [isRunning] using closed)

theorem turn_of_disconnected {p : Purpose} {r : Except Fault TeardownReport}
    {o : Except Fault Unit} (h : l.disconnected p r o = (s', l')) :
    Turn l (.disconnecting p r (.done o)) (.go k) s' l' := by
  cases o with
  | ok a =>
    cases h
    exact .disconnected p r k _ l.world.log
  | error f =>
    cases h
    exact .disconnected p r k _ _

theorem turn_of_abandonClose {p : Purpose} {r : Except Fault TeardownReport}
    {t : Task (Except Fault Unit)} (h : l.abandonClose p r t = (s', l')) :
    Turn l (.disconnecting p r t) .expire s' l' := by
  have hv : ({ l with leftovers := l.leftovers ++ [.work t] } : Lifecycle).victims =
      l.victims ++ [.waiting t] := by
    simp [victims]
  unfold abandonClose disconnected at h
  simp only [say, victims] at h
  cases h
  have turn := Turn.disconnectExpired (l := l) p r t
    (l.world.say Level.debug (closeNotice (crossing Fault.expired))).log
  rw [← hv] at turn
  exact turn

theorem turn_of_halted {next : Afterwards} (h : l.halted next = (s', l')) :
    Turn l (.halting [] next) (.go k) s' l' := by
  cases next with
  | drain f =>
    cases h
    exact .haltedFailing f k
  | announce p r =>
    cases h
    exact .halted p r k

theorem turn_of_stepHalting? {victims : List Victim} {next : Afterwards} {m : Move}
    (h : l.stepHalting? victims next m = some (s', l')) :
    Turn l (.halting victims next) m s' l' := by
  unfold stepHalting? at h
  cases m with
  | expire => simp at h
  | cancel k landed =>
    simp only at h
    split at h
    · rename_i t hk
      rcases Option.map_eq_some_iff.1 h with ⟨r, hr, he⟩
      cases he
      exact .victimCancelled victims next k landed hk hr
    · simp at h
  | go k =>
    simp only at h
    split at h
    · exact turn_of_halted (Option.some.inj h)
    · rename_i hk
      cases h
      exact .victimDone _ next k (.inr hk)
    · rename_i hk
      cases h
      exact .victimDone _ next k (.inl hk)
    · rename_i t _ hk
      rcases Option.map_eq_some_iff.1 h with ⟨r, hr, he⟩
      cases he
      exact .victimDies _ next k hk hr
    · rename_i hk
      split at h
      · simp at h
      · rcases Option.map_eq_some_iff.1 h with ⟨r, hr, he⟩
        cases he
        exact .victimGoes _ next k hk hr
    · simp at h

theorem turn_of_answer {p : Purpose} {r : Except Fault TeardownReport}
    (h : l.answer p r = (s', l')) : Turn l (.answering p r) (.go k) s' l' := by
  cases r with
  | error g =>
    cases p <;> cases h <;> exact .answerError _ g k
  | ok report =>
    cases p with
    | failure f =>
      cases h
      exact .answerFailure f report k
    | teardown strict =>
      unfold answer at h
      simp only at h
      split at h
      · rename_i hs
        simp only [Bool.and_eq_true, Bool.not_eq_true'] at hs
        rcases hs with ⟨rfl, ho⟩
        cases h
        exact .answerIncomplete report k _ ho
      · rename_i hs
        cases h
        exact .answerReport strict report k _ (by simpa using hs)

end

/-- A turn leaves the list of callers alone. -/
theorem Turn.callers_eq {l l' : Lifecycle} {s s' : Stage} {m : Move} (h : Turn l s m s' l') :
    l'.callers = l.callers := by
  cases h <;> rfl

/-- What a program that is waited for does, as a turn. -/
theorem turn_of_stepTask? {α : Type} {l l' : Lifecycle} {s' : Stage} {m : Move}
    {t : Task (Except Fault α)} {got : α → Stage} (wait : Task (Except Fault α) → Stage)
    (h : l.stepTask? t wait got = some (s', l'))
    (goes : ∀ t' w, l.world.next? t = some (t', w) →
      Turn l (wait t) m (wait t') { l with world := w })
    (done : ∀ a, Turn l (wait (.done (.ok a))) m (got a) l)
    (failed : ∀ f, Turn l (wait (.done (.error f))) m (.failing (crossing f)) l) :
    Turn l (wait t) m s' l' := by
  unfold stepTask? at h
  split at h
  · cases h
    exact done _
  · cases h
    exact failed _
  · rcases Option.map_eq_some_iff.1 h with ⟨r, hr, he⟩
    cases he
    exact goes _ _ hr

/-- What an expired bound of a setup does, as a turn. -/
theorem turn_of_expireTask? {α : Type} {l l' : Lifecycle} {s s' : Stage} {m : Move}
    {t : Task (Except Fault α)} (h : l.expireTask? t = some (s', l'))
    (expired : ∀ t', StopPass.unfinished? t = some t' →
      Turn l s m (.failing Fault.expired) { l with leftovers := l.leftovers ++ [.work t'] }) :
    Turn l s m s' l' := by
  unfold expireTask? at h
  split at h
  · rename_i ht
    cases h
    exact expired _ ht
  · simp at h

/-- Every step of a caller is a turn. -/
theorem turn_of_stepStage? {l l' : Lifecycle} {s s' : Stage} {m : Move}
    (h : l.stepStage? s m = some (s', l')) : Turn l s m s' l' := by
  unfold stepStage? at h
  split at h
  · exact turn_of_begin (Option.some.inj h)
  · exact turn_of_startPlan (Option.some.inj h)
  · rename_i p t k
    exact turn_of_stepTask? (.initializing p) h (fun _ _ ht => .init p k ht)
      (.initDone p k) (.initFailed p k)
  · rename_i p t
    exact turn_of_expireTask? h fun _ ht => .initExpired p ht
  · exact turn_of_publishPlan (Option.some.inj h)
  · rename_i t k
    exact turn_of_stepTask? .finishing h (fun _ _ ht => .finish k ht)
      (fun _ => .finishDone k) (.finishFailed k)
  · exact turn_of_expireTask? h fun _ ht => .finishExpired ht
  · exact turn_of_sealPlan (Option.some.inj h)
  · exact turn_of_enterReady (Option.some.inj h)
  · cases h
    exact .announceReady _
  · cases h
    exact .settle _ _
  · exact turn_of_beginFailing (Option.some.inj h)
  · exact turn_of_beginTeardown (Option.some.inj h)
  · cases h
    exact .quiet _ _ _
  · exact turn_of_drain (Option.some.inj h)
  · exact turn_of_confirm (Option.some.inj h)
  · exact turn_of_stepPass? h
  · unfold expirePass? at h
    split at h
    · cases h
      exact .passExpired _ _
    · simp at h
  · exact turn_of_clearRegistry (Option.some.inj h)
  · exact turn_of_close (Option.some.inj h)
  · exact turn_of_release (Option.some.inj h)
  · exact turn_of_disconnected (Option.some.inj h)
  · rcases Option.map_eq_some_iff.1 h with ⟨r, hr, he⟩
    cases he
    exact .disconnectSteps _ _ _ hr
  · exact turn_of_abandonClose (Option.some.inj h)
  · exact turn_of_stepHalting? h
  · rename_i p r _
    cases p <;> cases h
    · exact .announceFailure _ _ _
    · exact .announceTeardown _ _ _
  · exact turn_of_answer (Option.some.inj h)
  · split at h
    · rename_i hs
      cases h
      exact .askAgain _ _ hs
    · simp at h
  · split at h
    · rename_i hs
      cases h
      exact .released _ hs
    · simp at h
  · cases h
    exact .read _
  · cases h
    exact .await _ _
  · split at h
    · rename_i hs
      cases h
      exact .awaited _ _ hs
    · simp at h
  · cases h
    exact .awaitExpired
  · cases h
    exact .check _
  · simp at h

end Lifecycle
end Testbed

import Testbed.Lifecycle.State

/-!
# Stopping and releasing

The steps that a failed setup and a teardown share: the ledger is drained, the containers are
stopped and the result awaited, the registry is cleared, the terminal phase is entered, and the
engine client and the runtime are released.
-/

namespace Testbed
namespace Lifecycle

/-! ## Teardown -/

/-- The first step of a teardown, which depends on the phase. -/
def beginTeardown (l : Lifecycle) (strict : Bool) : Stage × Lifecycle :=
  match l.phase with
  | .ready =>
    match l.transition .tearingDown with
    | .ok l => (.quieting strict, l)
    | .error f => (.finished (.error f), l)
  | .initializing =>
    (.awaitingSettled strict,
      l.say Level.info "Teardown requested during setup, waiting for setup to finish")
  | .tearingDown => (.awaitingStopped, l)
  | .uninitialized =>
    (.reading, l.say Level.debug "Teardown before setup, nothing to tear down")
  | p =>
    (.reading, l.say Level.debug s!"Test environment already {p.word}, nothing to tear down")

/-- The registry refuses access from now on. -/
def quiet (l : Lifecycle) (strict : Bool) : Stage × Lifecycle :=
  let l := l.say Level.info "Shutting Down Test Environment. Stopping Containers..."
  let notice := if l.world.registry.state == .cleared then [] else
    [⟨Level.debug, Registry.drainingNotice⟩]
  (.draining (.teardown strict), { l with world := { l.world with
    registry := l.world.registry.beginDrain, log := l.world.log ++ notice } })

/-! ## Stopping containers -/

/-- The ledger hands over all capabilities. -/
def drain (l : Lifecycle) (p : Purpose) : Stage × Lifecycle :=
  let (cs, ledger) := l.world.ledger.drain
  let l := { l with world := { l.world with ledger := ledger } }
  match p with
  | .teardown _ => (.confirming p cs, l)
  | .failure _ =>
    if cs.isEmpty then (.confirming p cs, l)
    else (.confirming p cs, l.say Level.warning
      s!"Removing {cs.length} container(s) started before the failure")

/-- The session whose containers the stop pass sweeps: after a failed setup, if there is an engine
client. -/
def sweepOf (l : Lifecycle) : Purpose → Option String
  | .failure _ => if l.hasClient then some l.session else none
  | .teardown _ => none

/-- The start of the stop pass, on a new runtime unless the one that is held takes work. -/
def confirm (l : Lifecycle) (p : Purpose) (cs : List Capability) : Stage × Lifecycle :=
  let sweep := l.sweepOf p
  if cs.isEmpty && sweep.isNone then (.clearing p (.ok {}), l)
  else if l.isRunning then (.stopping p (.start cs sweep), l)
  else
    match l.acquire with
    | (.error f, l) => (.clearing p (.error f), l)
    | (.ok (), l) => (.stopping p (.start cs sweep), l)

/-- The report on a pass whose bound has expired. -/
def expiredReport (l : Lifecycle) (pass : StopPass) : TeardownReport :=
  StopPass.expiredReport pass.capabilities l.world.used l.settings.teardownTimeout

/-- What the caller of a stop pass gets: an expired bound counts as a report, whoever raised it. -/
def confirmed (l : Lifecycle) (pass : StopPass) :
    Except Fault TeardownReport → Except Fault TeardownReport
  | .ok r => .ok r
  | .error f =>
    if f.isA (· == .timeout) then .ok (l.expiredReport pass) else .error (crossing f)

/-- A step of the stop pass, in which its k-th program takes its turn. -/
def stepPass? (l : Lifecycle) (p : Purpose) (pass : StopPass) (k : Nat) :
    Option (Stage × Lifecycle) :=
  match pass.turn? l.world with
  | some (.going pass, w) => some (.stopping p pass, { l with world := w })
  | some (.ended r, w) =>
    let l := { l with world := w }
    some (.clearing p (l.confirmed pass r), l)
  | none => do
    let (pass, w) ← pass.step? l.world k
    pure (.stopping p pass, { l with world := w })

/-- The bound of the stop pass expires. -/
def expirePass? (l : Lifecycle) (p : Purpose) (pass : StopPass) : Option (Stage × Lifecycle) :=
  if l.settings.teardownTimeout.isSome then
    some (.clearing p (.ok (l.expiredReport pass)),
      { l with leftovers := l.leftovers ++ [.pass pass] })
  else none

/-! ## Entering a terminal phase -/

/-- The log records on a report. -/
def reportNotices (r : TeardownReport) : List LogRecord :=
  if r.failures.isEmpty then
    [⟨Level.info, "The test environment has been shut down successfully."⟩]
  else
    r.failures.map (fun f =>
        ⟨Level.error, s!"Failed to remove container {f.name}: {f.error}"⟩) ++
      [⟨Level.error, s!"Test environment shut down with {r.failures.length} container(s) " ++
        "left running"⟩]

/-- The state with a report logged. -/
def logReport (l : Lifecycle) (r : TeardownReport) : Lifecycle :=
  { l with world := { l.world with log := l.world.log ++ reportNotices r } }

/-- The state with the report of a failed setup kept, and logged unless it is empty. -/
def keepReport (l : Lifecycle) (p : Purpose) (r : Except Fault TeardownReport) : Lifecycle :=
  match p, r with
  | .failure _, .ok report =>
    let l := if report.stopped.isEmpty && report.failures.isEmpty then l else l.logReport report
    { l with report := report }
  | _, _ => l

/-- The registry is cleared. -/
def clearRegistry (l : Lifecycle) (p : Purpose) (r : Except Fault TeardownReport) :
    Stage × Lifecycle :=
  let l := l.keepReport p r
  (.closing p r, { l with world := { l.world with registry := l.world.registry.clear } }.say
    Level.debug Registry.clearedNotice)

/-- The terminal phase is entered. -/
def close (l : Lifecycle) (p : Purpose) (r : Except Fault TeardownReport) : Stage × Lifecycle :=
  let (target, l) : Phase × Lifecycle := match p with
    | .failure _ => (.failed, l)
    | .teardown _ => (.stopped, { l with report := r.toOption.getD {} })
  match l.transition target with
  | .ok l => (.releasing p r, l)
  | .error f => (.finished (.error f), l)

/-! ## Releasing -/

/-- The runtime is given up; if it takes work, the engine client is closed on it first. -/
def release (l : Lifecycle) (p : Purpose) (r : Except Fault TeardownReport) : Stage × Lifecycle :=
  if l.isRunning then
    let l := { l with held := false }
    if l.hasClient then (.disconnecting p r Client.close, l)
    else (.halting l.victims (.announce p r), { l with leftovers := [] })
  else (.announcing p r, { l with held := false })

/-- The log text of an engine client that could not be closed. -/
def closeNotice (f : Fault) : String := s!"Error closing Docker client: {f.text}"

/-- The engine client has been closed, or failed to be. -/
def disconnected (l : Lifecycle) (p : Purpose) (r : Except Fault TeardownReport)
    (outcome : Except Fault Unit) : Stage × Lifecycle :=
  let l := match outcome with
    | .ok () => l
    | .error f => l.say Level.debug (closeNotice (crossing f))
  (.halting l.victims (.announce p r), { l with leftovers := [] })

/-- The bound of closing the engine client expires. -/
def abandonClose (l : Lifecycle) (p : Purpose) (r : Except Fault TeardownReport)
    (t : Task (Except Fault Unit)) : Stage × Lifecycle :=
  let l : Lifecycle := { l with leftovers := l.leftovers ++ [.work t] }
  l.disconnected p r (.error Fault.expired)

/-- The runtime has no programs left and is shut down. -/
def halted (l : Lifecycle) (next : Afterwards) : Stage × Lifecycle :=
  let l := { l with world := l.world.closeRuntime }
  match next with
  | .drain f => (.draining (.failure f), l)
  | .announce p r => (.announcing p r, l)

/-- The end is announced to those who wait for it. -/
def announce (l : Lifecycle) (p : Purpose) (r : Except Fault TeardownReport) : Stage × Lifecycle :=
  match p with
  | .failure _ => (.answering p r, { l with settled := true })
  | .teardown _ => (.answering p r, { l with stopped := true })

/-- The error of a strict teardown. -/
def incomplete (failures : List StopFailure) : Fault :=
  .environment { cause := .teardown failures }

/-- The answer: a failed setup raises its error unless stopping raised another one. -/
def answer (l : Lifecycle) (p : Purpose) (r : Except Fault TeardownReport) : Stage × Lifecycle :=
  match p, r with
  | _, .error g => (.finished (.error g), l)
  | .failure f, .ok _ => (.finished (.error f), l)
  | .teardown strict, .ok report =>
    let l := l.logReport report
    if strict && !report.ok then (.finished (.error (incomplete report.failures)), l)
    else (.finished (.ok (.report report)), l)

end Lifecycle
end Testbed

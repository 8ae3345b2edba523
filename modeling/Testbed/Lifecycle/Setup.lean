import Testbed.Lifecycle.State

/-!
# Setting up

The steps of a setup.  The first caller wins; it starts the runtime, runs the first part of its
plan, publishes what that hands over, runs the second part and seals the registry.  An error at any
of these steps leads to `failing`.
-/

namespace Testbed
namespace Lifecycle

/-- The error of a second setup. -/
def alreadyInitialized (p : Phase) : Fault :=
  .environment {
    cause := .alreadyInitialized (some p.word)
    message? := some s!"Test environment is already {p.word}" }

/-- The error of two containers for one service. -/
def twice (s : Service) : Fault :=
  .of .value s!"More than one container returned for '{s.word}'"

/-- The error of a plan that hands over something else than settings. -/
def noSettings (typeWord : String) : Fault :=
  .of .wrongType s!"init must return EnvironmentSettings, got {typeWord}"

/-! ## Publishing -/

/-- The world with a value stored in the registry. -/
def store (w : World) (key : String) (value : Entry) : Except Fault Unit × World :=
  match w.registry.set key value with
  | .ok r => (.ok (), { w with registry := r }.say Level.debug Registry.stored)
  | .error f => (.error f, w)

/-- The world with the capability of a handle recorded. -/
def takeOver (w : World) (h : Handle) : World :=
  match h.stop with
  | some c => { w with ledger := w.ledger.record c }
  | none => w

/-- Takes the handles over, one after another, and stores what is published of each. -/
def publishHandles (w : World) (seen : List Service) : List Handle → Except Fault Unit × World
  | [] => (.ok (), w)
  | h :: rest =>
    let w := takeOver w h
    if seen.contains h.service then (.error (twice h.service), w)
    else
      match store w h.service.key (.handle h.detached) with
      | (.error f, w) => (.error f, w)
      | (.ok (), w) =>
        let w := w.say Level.info s!"Using {h.service.word} test container {h.name}"
        publishHandles w (h.service :: seen) rest

/-- Publishes what the first part of a plan handed over. -/
def publish (w : World) (d : Delivery) : Except Fault EnvironmentSettings × World :=
  match d.settings with
  | .other typeWord => (.error (noSettings typeWord), w)
  | .settings s =>
    match publishHandles w [] d.handles with
    | (.error f, w) => (.error f, w)
    | (.ok (), w) =>
      match store w Registry.settingsKey (.settings s.freeze) with
      | (.error f, w) => (.error f, w)
      | (.ok (), w) =>
        match store w Registry.tokenKey (.json (.str "")) with
        | (.error f, w) => (.error f, w)
        | (.ok (), w) => (.ok s.freeze, w)

/-! ## Steps -/

/-- The first step: only an environment that was never set up can be. -/
def begin (l : Lifecycle) (p : Plan) : Stage × Lifecycle :=
  if l.phase = .uninitialized then
    match l.transition .initializing with
    | .ok l => (.starting p, l.say Level.info "Initializing Test Environment ...")
    | .error f => (.finished (.error f), l)
  else (.finished (.error (alreadyInitialized l.phase)), l)

/-- The start of the runtime and of the first part of the plan. -/
def startPlan (l : Lifecycle) (p : Plan) : Stage × Lifecycle :=
  match l.acquire with
  | (.error f, l) => (.failing f, l)
  | (.ok (), l) =>
    let l := l.ensureClient
    (.initializing p (p.init ⟨l.session, l.settings⟩), l)

/-- Publishing, and the start of the second part of the plan. -/
def publishPlan (l : Lifecycle) (p : Plan) (d : Delivery) : Stage × Lifecycle :=
  match publish l.world d with
  | (.error f, w) => (.failing f, { l with world := w })
  | (.ok frozen, w) =>
    let l := { l with world := w }
    match p.after with
    | none => (.sealing, l)
    | some after =>
      let l := l.say Level.info "Processing Post Initialization Tasks..."
      if l.isRunning then (.finishing (after frozen), l)
      else (.failing Background.closedFault, l)

/-- Sealing of the registry. -/
def sealPlan (l : Lifecycle) : Stage × Lifecycle :=
  match l.world.registry.sealEntries with
  | .error f => (.failing f, l)
  | .ok r =>
    (.entering, { l with world := { l.world with registry := r } }.say Level.debug
      Registry.sealedNotice)

/-- The transition to the ready phase. -/
def enterReady (l : Lifecycle) : Stage × Lifecycle :=
  match l.transition .ready with
  | .ok l => (.announcingReady, l)
  | .error f => (.finished (.error f), l)

/-- The end of a setup. -/
def settle (l : Lifecycle) : Stage × Lifecycle :=
  (.finished (.ok .nothing), { l with settled := true }.say Level.info
    "The test environment has been initialized successfully. Starting Tests...")

/-- The start of the cleanup of a failed setup: the runtime is given up. -/
def beginFailing (l : Lifecycle) (f : Fault) : Stage × Lifecycle :=
  let l := { l with failure := some f }.say Level.error
    s!"Test environment setup failed: {f.sanitize}"
  if l.isRunning then
    (.halting l.victims (.drain f), { l with held := false, leftovers := [] })
  else (.draining (.failure f), { l with held := false })

end Lifecycle
end Testbed

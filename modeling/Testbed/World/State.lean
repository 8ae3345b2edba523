import Testbed.Background.Runtime
import Testbed.World.Call

/-!
# The world

The state that calls act on: the engine and its client, the outside, the files, the clock, and the
shared state of one environment.  `perform` gives the reply to a call and the world after it; a
call that cannot go on has none.
-/

namespace Testbed

/-- What belongs to one environment: its engine client, what is known about the engine, its
runtime, its ledger and its phases. -/
structure Holdings where
  /-- The host of the engine client. -/
  host : Option String := none
  clientOpen : Bool := false
  engineChecked : Bool := false
  networks : List String := []
  /-- The worker threads of the runtime take calls. -/
  workersOpen : Bool := true
  runtimesStarted : Nat := 0
  runtimesClosed : Nat := 0
  ledger : Ledger := {}
  history : PhaseHistory := {}

/-- The world in which programs run. -/
structure World extends Holdings where
  engine : Engine := {}
  outside : Outside := {}
  files : Files := {}
  clock : Float := 0.0
  jitter : Float := 0.0
  /-- Identifiers drawn so far. -/
  drawn : Nat := 0
  log : List LogRecord := []
  process : Except Fault Settings := .ok {}
  registry : Registry := {}
  /-- Identities of the capabilities that have been used. -/
  used : List Nat := []
  /-- Capabilities made so far. -/
  made : Nat := 0
  gateOpen : Bool := false
  trace : List (Except Fault Sight) := []
  /-- Arguments of all pauses, in order. -/
  pauses : List Float := []

namespace World

/-- The world with a log record written. -/
def say (w : World) (level : Level) (text : String) : World :=
  { w with log := w.log ++ [⟨level, text⟩] }

/-- The n-th identifier: eight hexadecimal digits, four times. -/
def identifier (n : Nat) : String :=
  let part := Text.hexDigits 8 n
  String.ofList (part ++ part ++ part ++ part)

/-- The error of a call to worker threads that take none. -/
def noWorkers : Fault := .of .runtime "cannot schedule new futures after shutdown"

/-- The address of the engine that the client talks to. -/
def engineAddress (w : World) : String :=
  match w.engine.baseUrl, w.host with
  | some url, _ => url
  | none, some host => if host.isEmpty then "http+docker://localhost" else host
  | none, none => "http+docker://localhost"

/-- The reply of a call to the engine through the worker threads. -/
def viaWorkers {α : Type} (w : World) (act : World → Except Fault α × World) :
    Except Fault α × World :=
  if w.workersOpen then act w else (.error noWorkers, w)

/-- The opening of the client, unless it is open. -/
def openClient (w : World) : Except Fault Unit × World :=
  if w.clientOpen then (.ok (), w)
  else
    let host := w.host.filter fun h => !h.isEmpty
    match w.engine.connect host with
    | (.ok (), e) => (.ok (), { w with engine := e, clientOpen := true })
    | (.error f, e) => (.error f, { w with engine := e })

/-- The world with a new runtime, which has a number of worker threads. -/
def startRuntime (w : World) (workers : Int) : World :=
  { w with workersOpen := true, runtimesStarted := w.runtimesStarted + 1 }.say Level.debug
    (Background.startedNotice workers)

/-- The world with the runtime shut down, unless it is. -/
def closeRuntime (w : World) : World :=
  if w.workersOpen then
    { w with
      workersOpen := false, runtimesClosed := w.runtimesClosed + 1
      log := w.log ++ Background.closedNotices }
  else w

/-- The reply to a call and the world after it; none if the call has to wait.  A runtime that has
been shut down cancels what waits on it. -/
def perform (w : World) : (c : Call) → Option (c.Reply × World)
  | .log level text => some ((), w.say level text)
  | .openClient inWorker =>
    some (if inWorker then w.viaWorkers openClient else w.openClient)
  | .engine r => some (w.viaWorkers fun w =>
    let (answer, e) := w.engine.perform r
    (answer, { w with engine := e }))
  | .forgetClient => some ((), { w with clientOpen := false })
  | .viewClient => some (⟨w.host, w.clientOpen, w.engineAddress⟩, w)
  | .fetch url =>
    let (r, o) := w.outside.fetch url
    some (r, { w with outside := o })
  | .post url body =>
    let (r, o) := w.outside.post url body
    some (r, { w with outside := o })
  | .connect dsn =>
    let (r, o) := w.outside.connect dsn
    some (r, { w with outside := o })
  | .query c =>
    let (r, o) := w.outside.query c
    some (r, { w with outside := o })
  | .disconnect c =>
    let (r, o) := w.outside.disconnect c
    some (r, { w with outside := o })
  | .dial host port =>
    let (r, o) := w.outside.dial host port
    some (r, { w with outside := o })
  | .hangUp s =>
    let (r, o) := w.outside.hangUp s
    some (r, { w with outside := o })
  | .attempt =>
    let (a, o) := w.outside.attempt
    some (a, { w with outside := o })
  | .now => some (w.clock, w)
  | .pause t =>
    if w.workersOpen then
      some (.ok (), { w with
        clock := if 0.0 < t then w.clock + t else w.clock
        pauses := w.pauses ++ [t] })
    else some (.error Fault.cancelled, w)
  | .waitUntil t =>
    some (if w.workersOpen then (.ok (), { w with clock := t }) else (.error Fault.cancelled, w))
  | .draw => some (w.jitter, w)
  | .freshId => some (identifier (w.drawn + 1), { w with drawn := w.drawn + 1 })
  | .resolve path => some (w.files.resolve path, w)
  | .inspect p => some ((w.files.isDirectory p, w.files.absolute p), w)
  | .readFile p => some (w.viaWorkers fun w => (w.files.read p, w))
  | .engineChecked => some (w.engineChecked, w)
  | .noteEngine => some ((), { w with engineChecked := true })
  | .networkKnown name => some (w.networks.contains name, w)
  | .noteNetwork name => some ((), { w with networks := name :: w.networks })
  | .newIdentity => some (w.made, { w with made := w.made + 1 })
  | .record c => some ((), { w with ledger := w.ledger.record c })
  | .claim c =>
    if w.used.contains c.identity then some (false, w)
    else some (true, { w with used := c.identity :: w.used })
  | .noteStop => some ((), { w with outside := w.outside.note [.str "stop"] })
  | .store key value =>
    match w.registry.set key value with
    | .ok r => some (.ok (), { w with registry := r }.say Level.debug Registry.stored)
    | .error f => some (.error f, w)
  | .load key => some (w.registry.get key, w)
  | .processSettings => some (w.process, w)
  | .observe => some ((w.history.phase, w.registry.state, w.ledger.names), w)
  | .hang => if w.workersOpen then none else some (.error Fault.cancelled, w)
  | .waitForGate =>
    if w.gateOpen then some (.ok (), w)
    else if w.workersOpen then none
    else some (.error Fault.cancelled, w)
  | .shutdownRuntime => some ((), w.closeRuntime)
  | .trace entry => some ((), { w with trace := w.trace ++ [entry] })

/-- A program after its next call; none if it is done or has to wait. -/
def next? {α : Type} (w : World) : Task α → Option (Task α × World)
  | .done _ => none
  | .call c next => (w.perform c).map fun r => (next r.1, r.2)

/-- A program that learns at its current call that it is cancelled.  What a worker thread does for
it may have `landed` all the same. -/
def cancel? {α : Type} (w : World) (landed : Bool) : Task α → Option (Task α × World)
  | .done _ => none
  | .call c next => c.cancelled?.map fun r =>
    (next r, if landed && c.inWorker then ((w.perform c).map Prod.snd).getD w else w)

/-- Runs a program until it is done or has to wait. -/
def advance {α : Type} : Task α → World → Task α × World
  | .done a, w => (.done a, w)
  | .call c next, w =>
    match w.perform c with
    | some (r, w) => advance (next r) w
    | none => (.call c next, w)

/-- The outcome of work that does not have to wait. -/
def run {α : Type} (work : Work α) (w : World) : Except Fault α × World :=
  match advance work w with
  | (.done r, w) => (r, w)
  | (.call .., w) => (.error Fault.expired, w)

end World
end Testbed

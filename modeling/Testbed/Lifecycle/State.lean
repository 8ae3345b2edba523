import Testbed.Lifecycle.StopPass

/-!
# The lifecycle of an environment

The state of an environment that any number of callers set up, tear down and wait for.  Each
caller is at a stage; between two of its steps the other callers, and work that an expired bound
has left behind, can move.
-/

namespace Testbed

/-- The settings that the first part of a setup hands over; a value of another type is refused. -/
inductive Delivered where
  | settings (s : EnvironmentSettings)
  | other (typeWord : String)
  deriving Repr

/-- What the first part of a setup hands over. -/
structure Delivery where
  handles : List Handle
  settings : Delivered
  deriving Repr

/-- The two parts of a setup: starting containers, and what is done once they are published. -/
structure Plan where
  init : Provisioner → Work Delivery
  after : Option (EnvironmentSettings → Work Unit) := none

/-- What a caller asks of an environment. -/
inductive Demand where
  | setup (p : Plan)
  | teardown (strict : Bool)
  | await (bounded : Bool)

/-- What a caller is answered. -/
inductive Result where
  | nothing
  | report (r : TeardownReport)
  | flag (b : Bool)
  deriving Repr

/-- Why containers are stopped. -/
inductive Purpose where
  | failure (f : Fault)
  | teardown (strict : Bool)
  deriving Repr

/-- A program on a runtime that is shutting down: not yet cancelled, or cancelled and ending. -/
inductive Victim where
  | waiting (t : Task (Except Fault Unit))
  | dying (t : Task (Except Fault Unit))

/-- Work whose bound has expired and that still runs. -/
inductive Leftover where
  | work (t : Task (Except Fault Unit))
  | pass (p : StopPass)

/-- What follows once a runtime has been shut down. -/
inductive Afterwards where
  | drain (f : Fault)
  | announce (p : Purpose) (r : Except Fault TeardownReport)

/-- How far a caller has come. -/
inductive Stage where
  | asking (d : Demand)
  -- Setting up.
  | starting (p : Plan)
  | initializing (p : Plan) (t : Task (Except Fault Delivery))
  | publishing (p : Plan) (d : Delivery)
  | finishing (t : Task (Except Fault Unit))
  | sealing
  | entering
  | announcingReady
  | settling
  | failing (f : Fault)
  -- Stopping containers, after a failed setup and for a teardown.
  | quieting (strict : Bool)
  | draining (p : Purpose)
  | confirming (p : Purpose) (cs : List Capability)
  | stopping (p : Purpose) (pass : StopPass)
  | clearing (p : Purpose) (r : Except Fault TeardownReport)
  | closing (p : Purpose) (r : Except Fault TeardownReport)
  | releasing (p : Purpose) (r : Except Fault TeardownReport)
  | disconnecting (p : Purpose) (r : Except Fault TeardownReport) (t : Task (Except Fault Unit))
  | halting (victims : List Victim) (next : Afterwards)
  | announcing (p : Purpose) (r : Except Fault TeardownReport)
  | answering (p : Purpose) (r : Except Fault TeardownReport)
  -- Waiting for other callers.
  | awaitingSettled (strict : Bool)
  | awaitingStopped
  | reading
  | awaitingReady (bounded : Bool)
  | checking
  | finished (r : Except Fault Result)

/-- The state of an environment: the world, its settings and session, the engine client, the
runtime it holds, what has been announced, and its callers. -/
structure Lifecycle where
  world : World
  settings : Settings
  session : String
  /-- There is an engine client. -/
  hasClient : Bool
  /-- How many starts of a runtime will be refused. -/
  refusals : Nat := 0
  /-- A runtime is held; whether it takes work stands in the world. -/
  held : Bool := false
  ready : Bool := false
  settled : Bool := false
  stopped : Bool := false
  report : TeardownReport := {}
  failure : Option Fault := none
  leftovers : List Leftover := []
  callers : List Stage := []

namespace Lifecycle

/-- The current phase. -/
def phase (l : Lifecycle) : Phase := l.world.history.phase

/-- The state with a log record written. -/
def say (l : Lifecycle) (level : Level) (text : String) : Lifecycle :=
  { l with world := l.world.say level text }

/-- The state after a transition, if the table allows it. -/
def transition (l : Lifecycle) (target : Phase) : Except Fault Lifecycle := do
  let h ← l.world.history.advance target
  .ok ({ l with world := { l.world with history := h } }.say Level.debug
    (l.world.history.notice target))

/-- The error of a runtime that cannot be started. -/
def noThread : Fault := .of .os "can't start new thread"

/-- The state with a runtime started and held, unless the start is refused. -/
def acquire (l : Lifecycle) : Except Fault Unit × Lifecycle :=
  match l.refusals with
  | n + 1 => (.error noThread, { l with refusals := n })
  | 0 =>
    (.ok (), { l with
      held := true, world := l.world.startRuntime l.settings.runtimeWorkers })

/-- The runtime that is held takes work. -/
def isRunning (l : Lifecycle) : Bool := l.held && l.world.workersOpen

/-- The state with an engine client, made for the host of the settings if there is none. -/
def ensureClient (l : Lifecycle) : Lifecycle :=
  if l.hasClient then l
  else { l with hasClient := true, world := { l.world with host := l.settings.engineHost } }

/-- The programs that are cancelled when the runtime shuts down. -/
def victims (l : Lifecycle) : List Victim :=
  l.leftovers.flatMap fun
    | .work t => [.waiting t]
    | .pass p => p.running.map .waiting

/-- The error under which the error of work on the runtime reaches its caller. -/
def crossing (f : Fault) : Fault := if f.isCancelled then Fault.cancelled else f

/-- A caller with a demand. -/
def enter (l : Lifecycle) (d : Demand) : Nat × Lifecycle :=
  (l.callers.length, { l with callers := l.callers ++ [.asking d] })

/-- What a caller was answered, once it is. -/
def answer? (l : Lifecycle) (i : Nat) : Option (Except Fault Result) :=
  match l.callers[i]? with
  | some (.finished r) => some r
  | _ => none

/-- The state in a world that another environment has changed. -/
def adopt (l : Lifecycle) (w : World) : Lifecycle :=
  { l with world := { w with toHoldings := l.world.toHoldings } }

end Lifecycle
end Testbed

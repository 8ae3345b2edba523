import Testbed.Provisioner.Start
import Testbed.Redaction.Sanitize

/-!
# The stop pass

The stop pass calls all capabilities side by side and, if it sweeps, then removes side by side the
containers of the session that no capability stands for.  `step?` moves one of its programs on by
one call, so every order in which they can take turns is a run of the pass.  The report lists
capabilities in the order in which they were handed over, whatever that order was.
-/

namespace Testbed

/-- What the programs of a stop pass are doing. -/
inductive PassStage where
  | stopping (children : List (Task (Except Fault Unit)))
  | listing (results : List (Except Fault Unit)) (task : Task (Except Fault (List String)))
  | removing (results : List (Except Fault Unit)) (ids : List String)
    (children : List (Task (Except Fault Bool)))

/-- A stop pass: the capabilities it calls, the session whose other containers it removes, if it
sweeps, and how far it has come. -/
structure StopPass where
  capabilities : List Capability
  sweep : Option String
  stage : PassStage

namespace StopPass

/-! ## The programs -/

/-- The call of one capability. -/
def stopOne (c : Capability) : Work Unit := do
  Work.log Level.info s!"Stopping container {c.name} ({c.shortId})"
  c.use

/-- The containers of a session; an engine that cannot tell has none. -/
def labelled (session : String) : Work (List String) :=
  Work.handle Client.isEngineFault
    (Client.containersWithLabel Provisioner.sessionLabel session)
    fun f => do
      Work.log Level.warning s!"Cannot list containers of session {session}: {f.sanitize}"
      pure []

/-- The pass at its start. -/
def start (capabilities : List Capability) (sweep : Option String) : StopPass :=
  ⟨capabilities, sweep, .stopping (capabilities.map stopOne)⟩

/-! ## Programs side by side -/

/-- The outcome of a program that is done; of a cancelled one only that it was cancelled. -/
def outcome? {α : Type} : Task (Except Fault α) → Option (Except Fault α)
  | .done (.error f) => some (.error (if f.isCancelled then Fault.cancelled else f))
  | .done (.ok a) => some (.ok a)
  | .call .. => none

/-- The outcomes of all programs, once all are done. -/
def outcomes? {α : Type} (children : List (Task (Except Fault α))) :
    Option (List (Except Fault α)) :=
  children.mapM outcome?

/-- One of several programs moves on by one call. -/
def advanceChild {α : Type} (w : World) (k : Nat) (children : List (Task α)) :
    Option (List (Task α) × World) := do
  let child ← children[k]?
  let (child, w) ← w.next? child
  pure (children.set k child, w)

/-! ## The report -/

/-- The outcome of one capability in a report. -/
def reportOne (name id : String) : Except Fault Unit → TeardownReport
  | .ok () => ⟨[name], []⟩
  | .error f => ⟨[], [⟨name, id, f.sanitize⟩]⟩

/-- The report on all capabilities. -/
def report (capabilities : List Capability) (results : List (Except Fault Unit)) :
    TeardownReport :=
  (capabilities.zip results).foldl (fun r p => r.append (reportOne p.1.name p.1.containerId p.2)) {}

/-- The report on containers that no capability stands for. -/
def sweptReport (ids : List String) (results : List (Except Fault Bool)) : TeardownReport :=
  (ids.zip results).foldl (fun r p =>
    r.append (reportOne (Text.takeFirst 12 p.1) p.1 (p.2.map fun _ => ()))) {}

/-- The log texts of the containers that the sweep has removed. -/
def sweptNotices (report : TeardownReport) : List LogRecord :=
  report.stopped.map fun name => ⟨Level.warning, s!"Removed unrecorded container {name}"⟩

/-- The containers of the session that no capability stands for. -/
def leftovers (p : StopPass) (ids : List String) : List String :=
  let known := p.capabilities.map Capability.containerId
  ids.filter fun id => !known.contains id

/-! ## Steps -/

/-- What a stop pass has come to. -/
inductive Progress where
  | going (p : StopPass)
  | ended (r : Except Fault TeardownReport)

/-- The pass after one of its programs has moved on by one call; none if that program is done or
has to wait. -/
def step? (p : StopPass) (w : World) (k : Nat) : Option (StopPass × World) :=
  match p.stage with
  | .stopping children => do
    let (children, w) ← advanceChild w k children
    pure ({ p with stage := .stopping children }, w)
  | .listing results task => do
    let (task, w) ← w.next? task
    pure ({ p with stage := .listing results task }, w)
  | .removing results ids children => do
    let (children, w) ← advanceChild w k children
    pure ({ p with stage := .removing results ids children }, w)

/-- What follows once the programs of the stage are done; none before. -/
def turn? (p : StopPass) (w : World) : Option (Progress × World) :=
  match p.stage with
  | .stopping children => (outcomes? children).map fun results =>
    match p.sweep with
    | some session => (.going { p with stage := .listing results (labelled session) }, w)
    | none => (.ended (.ok (report p.capabilities results)), w)
  | .listing results task => (outcome? task).map fun found =>
    match found with
    | .ok ids =>
      let ids := p.leftovers ids
      let children := ids.map fun id => (Client.removeContainer id).run
      (.going { p with stage := .removing results ids children }, w)
    | .error f => (.ended (.error f), w)
  | .removing results ids children => (outcomes? children).map fun removed =>
    let swept := sweptReport ids removed
    (.ended (.ok ((report p.capabilities results).append swept)),
      { w with log := w.log ++ sweptNotices swept })

/-- A program that is not done, without its value. -/
def unfinished? {α : Type} : Task (Except Fault α) → Option (Task (Except Fault Unit))
  | .done _ => none
  | t => some ((fun r => r.map fun _ => ()) <$> t)

/-- The programs of the pass that are not done, without their values. -/
def running (p : StopPass) : List (Task (Except Fault Unit)) :=
  match p.stage with
  | .stopping children => children.filterMap unfinished?
  | .listing _ task => (unfinished? task).toList
  | .removing _ _ children => children.filterMap unfinished?

/-- The report on a pass whose bound has expired: what has not been started, or all if everything
has been. -/
def expiredReport (capabilities : List Capability) (used : List Nat) (bound : Option Float) :
    TeardownReport :=
  let unused := capabilities.filter fun c => !used.contains c.identity
  let pending := if unused.isEmpty then capabilities else unused
  let text := (bound.map Decimal.write).getD "None"
  ⟨[], pending.map fun c => ⟨c.name, c.containerId, s!"no confirmation within {text}s"⟩⟩

end StopPass
end Testbed

import Testbed.Lifecycle.Step

/-!
# A schedule

One way to run an environment: a caller moves on for as long as it can, the programs of a stop
pass take turns from the first on, and a bound expires when nothing but it can end a wait.  A
request that takes longer than the bound is cut off after it has reached the engine.
-/

namespace Testbed

/-- What a program can do next. -/
inductive Pace where
  | done
  | moves
  | waitsForGate
  | stuck
  deriving Repr, DecidableEq

namespace Lifecycle

/-- The call takes longer than the bound of the wait for it. -/
def isSlow (w : World) (bound : Option Float) (c : Call) : Bool :=
  match bound, w.perform c with
  | some b, some (_, after) => b * 1000.0 < (after.engine.elapsed - w.engine.elapsed).toFloat
  | _, _ => false

/-- What a program can do next within a bound. -/
def pace {α : Type} (w : World) (bound : Option Float) : Task α → Pace
  | .done _ => .done
  | .call c _ =>
    if isSlow w bound c then .stuck
    else if (w.perform c).isSome then .moves
    else
      match c with
      | .waitForGate => .waitsForGate
      | _ => .stuck

/-- The move of a caller that waits for programs: the first of them that can move on does; if all
are stuck the bound expires. -/
def chooseAmong (bound : Option Float) (paces : List Pace) : Option Move :=
  match paces.findIdx? (· == .moves) with
  | some k => some (.go k)
  | none =>
    if paces.contains .waitsForGate then none
    else if paces.contains .stuck then bound.map fun _ => .expire
    else some (.go 0)

/-- What the programs of a stop pass can do next. -/
def passPaces (w : World) (bound : Option Float) (p : StopPass) : List Pace :=
  match p.stage with
  | .stopping children => children.map (pace w bound)
  | .listing _ task => [pace w bound task]
  | .removing _ _ children => children.map (pace w bound)

/-- The move of a program of a runtime that is shutting down. -/
def victimMove (w : World) (k : Nat) : Victim → Option Move
  | .waiting (.call c _) =>
    if c.cancelled?.isSome then some (.cancel k true) else (w.perform c).map fun _ => .go k
  | .dying (.call c _) => (w.perform c).map fun _ => .go k
  | .waiting (.done _) | .dying (.done _) => some (.go k)

/-- The bound of closing the engine client, in seconds. -/
def closeBound : Float := 10.0

/-- The move of a caller, if it can move. -/
def choose (l : Lifecycle) : Stage → Option Move
  | .initializing _ t =>
    chooseAmong l.settings.setupTimeout [pace l.world l.settings.setupTimeout t]
  | .finishing t => chooseAmong l.settings.setupTimeout [pace l.world l.settings.setupTimeout t]
  | .stopping _ pass =>
    chooseAmong l.settings.teardownTimeout (passPaces l.world l.settings.teardownTimeout pass)
  | .disconnecting _ _ t => chooseAmong (some closeBound) [pace l.world (some closeBound) t]
  | .halting victims _ =>
    if victims.isEmpty then some (.go 0)
    else ((List.range victims.length).zip victims).findSome? fun v => victimMove l.world v.1 v.2
  | .awaitingReady bounded =>
    if l.settled then some (.go 0) else if bounded then some .expire else none
  | .finished _ => none
  | _ => some (.go 0)

/-- The state after a caller has moved on for as long as it can, for at most `fuel` steps. -/
def drive (i : Nat) : Nat → Lifecycle → Lifecycle
  | 0, l => l
  | fuel + 1, l =>
    match l.callers[i]? with
    | none => l
    | some s =>
      match (l.choose s).bind (l.step? i) with
      | none => l
      | some l => drive i fuel l

/-- More steps than a caller takes. -/
def enough : Nat := 10000000

/-- The answer to a demand, and the state after it. -/
def run (l : Lifecycle) (d : Demand) : Except Fault Result × Lifecycle :=
  let (i, l) := l.enter d
  let l := l.drive i enough
  ((l.answer? i).getD (.error Fault.expired), l)

/-- The state after each of several callers has moved on for as long as it can, for some rounds. -/
def driveAll (callers : List Nat) : Nat → Lifecycle → Lifecycle
  | 0, l => l
  | rounds + 1, l => driveAll callers rounds (callers.foldl (fun l i => l.drive i enough) l)

/-- Several callers, and the state after they have entered. -/
def enterAll (l : Lifecycle) (ds : List Demand) : List Nat × Lifecycle :=
  ds.foldl (fun (acc : List Nat × Lifecycle) d =>
    let (i, l) := acc.2.enter d
    (acc.1 ++ [i], l)) ([], l)

/-- The answers of callers; one that still waits has none. -/
def answers (l : Lifecycle) (callers : List Nat) : List (Option (Except Fault Result)) :=
  callers.map l.answer?

/-- The answers to demands that are made at the same time, and the state after them. -/
def runAll (l : Lifecycle) (ds : List Demand) : List (Option (Except Fault Result)) × Lifecycle :=
  let (callers, l) := l.enterAll ds
  let l := driveAll callers (ds.length + 1) l
  (l.answers callers, l)

/-- The state with the gate open or closed. -/
def setGate (l : Lifecycle) (isOpen : Bool) : Lifecycle :=
  { l with world := { l.world with gateOpen := isOpen } }

/-- A new environment in a world. -/
def create (w : World) (settings : Settings) (hasClient : Bool) (refusals : Nat := 0) :
    Lifecycle where
  world := { w with drawn := w.drawn + 1 }
  settings := settings
  session := World.identifier (w.drawn + 1)
  hasClient := hasClient
  refusals := refusals

end Lifecycle
end Testbed

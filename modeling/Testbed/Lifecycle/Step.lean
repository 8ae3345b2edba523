import Testbed.Lifecycle.Setup
import Testbed.Lifecycle.Shutdown

/-!
# Steps

One step of one caller, or of work that an expired bound has left behind.  A run is any sequence
of actions: the choice of who moves, of when a bound expires and of whether a cancelled request had
already reached the engine is free.
-/

namespace Testbed

/-- What happens next at a caller: its next step, in which the k-th of its programs takes its turn;
the expiry of the bound of its wait; or the cancellation of the k-th program of a runtime that is
shutting down, whose request to a worker thread may have landed. -/
inductive Move where
  | go (k : Nat)
  | expire
  | cancel (k : Nat) (landed : Bool)
  deriving Repr, DecidableEq

namespace Lifecycle

/-! ## Programs on the runtime -/

/-- A step of a program that a caller waits for: the program moves on, or the caller gets its
outcome. -/
def stepTask? {α : Type} (l : Lifecycle) (t : Task (Except Fault α))
    (wait : Task (Except Fault α) → Stage) (got : α → Stage) : Option (Stage × Lifecycle) :=
  match t with
  | .done (.ok a) => some (got a, l)
  | .done (.error f) => some (.failing (crossing f), l)
  | t => (l.world.next? t).map fun r => (wait r.1, { l with world := r.2 })

/-- The bound of a setup expires while a program runs. -/
def expireTask? {α : Type} (l : Lifecycle) (t : Task (Except Fault α)) :
    Option (Stage × Lifecycle) :=
  match l.settings.setupTimeout, StopPass.unfinished? t with
  | some _, some t =>
    some (.failing Fault.expired, { l with leftovers := l.leftovers ++ [.work t] })
  | _, _ => none

/-- A step of a runtime that is shutting down. -/
def stepHalting? (l : Lifecycle) (victims : List Victim) (next : Afterwards) (m : Move) :
    Option (Stage × Lifecycle) :=
  let replace (k : Nat) (v : Victim) (w : World) : Stage × Lifecycle :=
    (.halting (victims.set k v) next, { l with world := w })
  match m with
  | .expire => none
  | .cancel k landed =>
    match victims[k]? with
    | some (.waiting t) => (l.world.cancel? landed t).map fun r => replace k (.dying r.1) r.2
    | _ => none
  | .go k =>
    match victims, victims[k]? with
    | [], _ => some (l.halted next)
    | _, some (.dying (.done _)) | _, some (.waiting (.done _)) =>
      some (.halting (victims.eraseIdx k) next, l)
    | _, some (.dying t) => (l.world.next? t).map fun r => replace k (.dying r.1) r.2
    | _, some (.waiting (.call c n)) =>
      if c.cancelled?.isSome then none
      else (l.world.next? (.call c n)).map fun r => replace k (.waiting r.1) r.2
    | _, none => none

/-! ## Callers -/

/-- A step of a caller. -/
def stepStage? (l : Lifecycle) (s : Stage) (m : Move) : Option (Stage × Lifecycle) :=
  match s, m with
  | .asking (.setup p), .go _ => some (l.begin p)
  | .starting p, .go _ => some (l.startPlan p)
  | .initializing p t, .go _ => l.stepTask? t (.initializing p) (.publishing p)
  | .initializing _ t, .expire => l.expireTask? t
  | .publishing p d, .go _ => some (l.publishPlan p d)
  | .finishing t, .go _ => l.stepTask? t .finishing fun () => .sealing
  | .finishing t, .expire => l.expireTask? t
  | .sealing, .go _ => some l.sealPlan
  | .entering, .go _ => some l.enterReady
  | .announcingReady, .go _ => some (.settling, { l with ready := true })
  | .settling, .go _ => some l.settle
  | .failing f, .go _ => some (l.beginFailing f)
  | .asking (.teardown strict), .go _ => some (l.beginTeardown strict)
  | .quieting strict, .go _ => some (l.quiet strict)
  | .draining p, .go _ => some (l.drain p)
  | .confirming p cs, .go _ => some (l.confirm p cs)
  | .stopping p pass, .go k => l.stepPass? p pass k
  | .stopping p pass, .expire => l.expirePass? p pass
  | .clearing p r, .go _ => some (l.clearRegistry p r)
  | .closing p r, .go _ => some (l.close p r)
  | .releasing p r, .go _ => some (l.release p r)
  | .disconnecting p r (.done o), .go _ => some (l.disconnected p r o)
  | .disconnecting p r t, .go _ =>
    (l.world.next? t).map fun n => (.disconnecting p r n.1, { l with world := n.2 })
  | .disconnecting p r (.call c n), .expire => some (l.abandonClose p r (.call c n))
  | .halting victims next, m => l.stepHalting? victims next m
  | .announcing p r, .go _ => some (l.announce p r)
  | .answering p r, .go _ => some (l.answer p r)
  | .awaitingSettled strict, .go _ =>
    if l.settled then some (.asking (.teardown strict), l) else none
  | .awaitingStopped, .go _ => if l.stopped then some (.reading, l) else none
  | .reading, .go _ => some (.finished (.ok (.report l.report)), l)
  | .asking (.await bounded), .go _ => some (.awaitingReady bounded, l)
  | .awaitingReady _, .go _ => if l.settled then some (.checking, l) else none
  | .awaitingReady true, .expire => some (.finished (.ok (.flag false)), l)
  | .checking, .go _ =>
    some (.finished (.ok (.flag (l.ready && l.phase == .ready))), l)
  | _, _ => none

/-- The state after a step of a caller. -/
def step? (l : Lifecycle) (i : Nat) (m : Move) : Option Lifecycle := do
  let s ← l.callers[i]?
  let (s, l) ← l.stepStage? s m
  pure { l with callers := l.callers.set i s }

/-- The state after a step of work that was left behind. -/
def stepLeftover? (l : Lifecycle) (i k : Nat) : Option Lifecycle :=
  let replace (o : Leftover) (w : World) : Lifecycle :=
    { l with world := w, leftovers := l.leftovers.set i o }
  match l.leftovers[i]? with
  | some (.work t) => (l.world.next? t).map fun r => replace (.work r.1) r.2
  | some (.pass p) =>
    match p.turn? l.world with
    | some (.going p, w) => some (replace (.pass p) w)
    | some (.ended _, w) => some { l with world := w, leftovers := l.leftovers.eraseIdx i }
    | none => (p.step? l.world k).map fun r => replace (.pass r.1) r.2
  | none => none

/-- What can happen in an environment: a caller arrives, a caller or work that was left behind
moves on, the next starts of a runtime are going to be refused, or the gate is opened or closed. -/
inductive Action where
  | enter (d : Demand)
  | caller (i : Nat) (m : Move)
  | leftover (i k : Nat)
  | refuse (n : Nat)
  | gate (isOpen : Bool)

/-- The state after an action; none if the action cannot happen. -/
def act? (l : Lifecycle) : Action → Option Lifecycle
  | .enter d => some (l.enter d).2
  | .caller i m => l.step? i m
  | .leftover i k => l.stepLeftover? i k
  | .refuse n => some { l with refusals := n }
  | .gate isOpen => some { l with world := { l.world with gateOpen := isOpen } }

end Lifecycle
end Testbed

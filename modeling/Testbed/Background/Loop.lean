import Testbed.Background.Course

/-!
# Background loops

A loop that runs jobs for callers on other threads.  Its callbacks run first in, first out, in
batches: what a batch adds runs in the next one.  Work is accepted and the loop is closed under one
lock, and the callback that stops the loop is added once it is closed, so all work that was accepted
comes before it.  A stopped loop cancels the jobs that have not ended and runs on until they have.
-/

namespace Testbed
namespace Background

/-- What the loop has to do. -/
inductive Callback where
  /-- Makes a job of accepted work. -/
  | make (i : Nat)
  /-- Gives a job a turn. -/
  | step (i : Nat)
  /-- Tells who waits for a job how it has ended. -/
  | settle (i : Nat)
  /-- Stops the loop after the batch. -/
  | stop
  deriving Repr, DecidableEq

/-- When the wait of a job is over. -/
inductive Due where
  | now
  | later (time : Float)
  | never
  deriving Repr

/-- How far a job has come. -/
inductive JobStage (α : Type) where
  /-- Accepted and not yet made. -/
  | accepted (c : Course α)
  /-- Its turn is coming: how it goes on then, and how it does if it is cancelled by then. -/
  | queued (go cancelled : Course α)
  | waiting (due : Due) (resume : Except Fault Unit → Course α)
  /-- Waits for other jobs, of which some number has not told how it ended. -/
  | joining (parts : List Nat) (left : Nat) (resume : Except Fault (List α) → Course α)
  | ended (r : Except Fault α)

/-- A job: its stage, whether it is to be told that it is cancelled, the job that waits for it, and
what the caller who handed it in has been told. -/
structure Job (α : Type) where
  stage : JobStage α
  cancelled : Bool := false
  owner : Option Nat := none
  future : Option (Except Fault α) := none

/-- How far a loop has come. -/
inductive LoopStage where
  | turning
  /-- The batch in which it was stopped is not done. -/
  | stopping
  /-- It runs on for jobs that it has cancelled. -/
  | draining (cancelled : List Nat)
  | over
  deriving Repr, DecidableEq

/-- A loop: whether it takes work, the rest of the batch and the callbacks after it, its jobs, and
the time. -/
structure Loop (α : Type) where
  accepting : Bool := true
  stage : LoopStage := .turning
  batch : List Callback := []
  queue : List Callback := []
  jobs : List (Job α) := []
  clock : Float := 0.0

/-- An error of the runtime. -/
def failure (message : String) : Fault :=
  .environment { cause := .runtime, message? := some message }

/-- The error of work for a runtime that takes none. -/
def closedFault : Fault := failure "Cannot dispatch work: background runtime is shut down"

/-- The job has ended. -/
def Job.hasEnded {α : Type} (j : Job α) : Bool :=
  match j.stage with
  | .ended _ => true
  | _ => false

/-- The job has been made and has not ended. -/
def Job.isPending {α : Type} (j : Job α) : Bool :=
  match j.stage with
  | .ended _ | .accepted _ => false
  | _ => true

namespace Loop

variable {α : Type}

/-- The loop with a callback added. -/
def push (l : Loop α) (c : Callback) : Loop α := { l with queue := l.queue ++ [c] }

/-- The loop with a job changed. -/
def alter (l : Loop α) (i : Nat) (f : Job α → Job α) : Loop α :=
  { l with jobs := l.jobs.modify i f }

/-- The loop with a job at another stage. -/
def place (l : Loop α) (i : Nat) (s : JobStage α) : Loop α :=
  l.alter i fun j => { j with stage := s }

/-- The loop with a turn of a job coming. -/
def enqueue (l : Loop α) (i : Nat) (go cancelled : Course α) : Loop α :=
  (l.place i (.queued go cancelled)).push (.step i)

/-! ## From other threads -/

/-- The loop takes work, whose number is answered, unless it has been shut down. -/
def submit (l : Loop α) (c : Course α) : Except Fault (Nat × Loop α) :=
  if l.accepting then
    let l' : Loop α := { l with jobs := l.jobs ++ [{ stage := .accepted c }] }
    .ok (l.jobs.length, l'.push (.make l.jobs.length))
  else .error closedFault

/-- The loop takes no more work and is to stop; a second time changes nothing. -/
def shut (l : Loop α) : Loop α :=
  if l.accepting then push { l with accepting := false } .stop else l

/-- What the job waits for has come. -/
def wake? (l : Loop α) (i : Nat) : Option (Loop α) :=
  match l.stage, (l.jobs[i]?).map Job.stage with
  | .over, _ => none
  | _, some (.waiting .now resume) =>
    some (l.enqueue i (resume (.ok ())) (resume (.error Fault.cancelled)))
  | _, some (.waiting (.later t) resume) =>
    let l := l.enqueue i (resume (.ok ())) (resume (.error Fault.cancelled))
    some { l with clock := if l.clock < t then t else l.clock }
  | _, _ => none

/-! ## Turns -/

/-- When a wait that begins now is over. -/
def due (l : Loop α) : Wait → Due
  | .turn | .worker => .now
  | .pause s => .later (l.clock + s)
  | .never => .never

/-- The loop with jobs started for a job that waits for all of them. -/
def spawn (l : Loop α) (i : Nat) (parts : List (Course α))
    (resume : Except Fault (List α) → Course α) : Loop α :=
  let ids := List.range' l.jobs.length parts.length
  let made (c : Course α) : Job α := { stage := .queued c .abandoned, owner := some i }
  let l := { l with
    jobs := l.jobs ++ parts.map made
    queue := l.queue ++ ids.map Callback.step }
  l.place i (.joining ids parts.length resume)

/-- A job goes on along its course until it waits or ends. -/
def proceed (l : Loop α) (i : Nat) : Course α → Loop α
  | .ended r => (l.place i (.ended r)).push (.settle i)
  | .wait .turn resume => l.enqueue i (resume (.ok ())) (resume (.error Fault.cancelled))
  | .wait w resume => l.place i (.waiting (l.due w) resume)
  | .gather [] resume => l.proceed i (resume (.ok []))
  | .gather parts resume => l.spawn i parts resume
  | .close next => l.shut.proceed i next

/-- A job has its turn. -/
def step (l : Loop α) (i : Nat) : Loop α :=
  match l.jobs[i]? with
  | some ⟨.queued go cancelled, mark, _, _⟩ =>
    (l.alter i fun j => { j with cancelled := false }).proceed i (if mark then cancelled else go)
  | _ => l

/-- The values of jobs that have all ended with one. -/
def values? (l : Loop α) (parts : List Nat) : Option (List α) :=
  parts.mapM fun i =>
    match (l.jobs[i]?).map Job.stage with
    | some (.ended (.ok a)) => some a
    | _ => none

/-- A job learns how another one has ended, if it is one of the jobs that it waits for. -/
def tell (l : Loop α) (i part : Nat) (r : Except Fault α) : Loop α :=
  match (l.jobs[i]?).map Job.stage with
  | some (.joining parts left resume) =>
    if parts.contains part then
      match r with
      | .error f => l.enqueue i (resume (.error f)) (resume (.error Fault.cancelled))
      | .ok _ =>
        if left ≤ 1 then
          let all := (l.values? parts).getD []
          l.enqueue i (resume (.ok all)) (resume (.error Fault.cancelled))
        else l.place i (.joining parts (left - 1) resume)
    else l
  | _ => l

/-- The error under which the error of a job reaches the caller. -/
def crossing (r : Except Fault α) : Except Fault α :=
  match r with
  | .error f => .error (if f.isCancelled then Fault.cancelled else f)
  | r => r

/-- Who waits for a job is told how it has ended. -/
def settle (l : Loop α) (i : Nat) : Loop α :=
  match l.jobs[i]? with
  | some ⟨.ended r, _, none, none⟩ =>
    l.alter i fun j => { j with future := some (crossing r) }
  | some ⟨.ended r, _, some owner, _⟩ => l.tell owner i r
  | _ => l

/-- A callback runs. -/
def call (l : Loop α) : Callback → Loop α
  | .make i =>
    match (l.jobs[i]?).map Job.stage with
    | some (.accepted c) => l.enqueue i c .abandoned
    | _ => l
  | .step i => l.step i
  | .settle i => l.settle i
  | .stop => { l with stage := .stopping }

/-- The jobs have ended. -/
def haveEnded (l : Loop α) (ids : List Nat) : Bool :=
  ids.all fun i => (l.jobs[i]?).any Job.hasEnded

/-- How a job goes on that is cancelled while the jobs that it waits for are running: their values
do not count any more. -/
def interrupted (resume : Except Fault (List α) → Course α) : Except Fault (List α) → Course α
  | .ok _ => resume (.error Fault.cancelled)
  | .error f => resume (.error f)

/-- A job is cancelled, which ends its wait; a job that waits for others still waits for them. -/
def cancel (l : Loop α) (i : Nat) : Loop α :=
  match (l.jobs[i]?).map Job.stage with
  | some (.waiting _ resume) =>
    (l.alter i fun j => { j with cancelled := true }).enqueue i
      (resume (.ok ())) (resume (.error Fault.cancelled))
  | some (.queued ..) => l.alter i fun j => { j with cancelled := true }
  | some (.joining parts left resume) =>
    if l.haveEnded parts then l.alter i fun j => { j with cancelled := true }
    else l.place i (.joining parts left (interrupted resume))
  | _ => l

/-- The jobs that have been made and have not ended. -/
def pending (l : Loop α) : List Nat :=
  (List.range l.jobs.length).filter fun i => (l.jobs[i]?).any Job.isPending

/-- The loop has been stopped and cancels the jobs that have not ended. -/
def drain (l : Loop α) : Loop α :=
  let ids := l.pending
  ids.foldl cancel { l with stage := .draining ids }

/-- The loop after its next callback, or after its next batch has begun; none if it has nothing to
do. -/
def turn? (l : Loop α) : Option (Loop α) :=
  match l.stage, l.batch, l.queue with
  | .over, _, _ => none
  | _, c :: rest, _ => some ({ l with batch := rest }.call c)
  | .stopping, [], _ => some l.drain
  | .draining ids, [], [] => if l.haveEnded ids then some { l with stage := .over } else none
  | .turning, [], [] => none
  | _, [], queue => some { l with batch := queue, queue := [] }

end Loop

end Background
end Testbed

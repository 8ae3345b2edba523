import Testbed.Engine.State
import Testbed.Files.Tree
import Testbed.Log.Level
import Testbed.Outside.State
import Testbed.Phase
import Testbed.Program
import Testbed.Registry
import Testbed.Settings.Reading
import Testbed.Stop.Ledger
import Testbed.Stop.Report

/-!
# Calls

Everything a program can ask of the world and the type of each reply.  A call that awaits
something replies with an error when what it awaits fails or the task is cancelled.
-/

namespace Testbed

/-- What an action of a scenario has seen. -/
inductive Sight where
  | json (j : Json)
  | handle (h : Handle)
  | settings (s : EnvironmentSettings)
  deriving Repr

/-- The engine client: the host it is for and whether it is open, and the address of the engine
it talks to. -/
structure ClientView where
  host : Option String
  isOpen : Bool
  address : String
  deriving Repr

/-- A call to the world. -/
inductive Call where
  /-- Writes a log record. -/
  | log (level : Level) (text : String)
  /-- Opens the engine client unless it is open; `inWorker` says that a worker thread does it. -/
  | openClient (inWorker : Bool)
  /-- Sends a request to the engine from a worker thread. -/
  | engine (r : Engine.Request)
  /-- Drops the engine client. -/
  | forgetClient
  /-- Looks at the engine client. -/
  | viewClient
  | fetch (url : String)
  | post (url body : String)
  | connect (dsn : String)
  | query (c : Connection)
  | disconnect (c : Connection)
  | dial (host : String) (port : Int)
  | hangUp (s : Socket)
  /-- Draws the next attempt of the scripted probe. -/
  | attempt
  /-- Reads the clock. -/
  | now
  /-- Pauses for a time in seconds. -/
  | pause (seconds : Float)
  /-- Waits until a time on the clock. -/
  | waitUntil (time : Float)
  /-- Draws a number between zero and one. -/
  | draw
  /-- Draws a fresh identifier. -/
  | freshId
  /-- Finds the place that a path leads to. -/
  | resolve (path : String)
  /-- Tells whether a directory stands at a place, and gives the full path. -/
  | inspect (p : Files.Place)
  /-- Reads a file from a worker thread. -/
  | readFile (p : Files.Place)
  /-- Tells whether the engine has answered a ping. -/
  | engineChecked
  /-- Notes that the engine has answered a ping. -/
  | noteEngine
  /-- Tells whether a network is known to exist. -/
  | networkKnown (name : String)
  /-- Notes that a network exists. -/
  | noteNetwork (name : String)
  /-- Draws the identity of a new capability. -/
  | newIdentity
  /-- Records a capability in the ledger. -/
  | record (c : Capability)
  /-- Marks a capability as used; the reply tells whether it was unused. -/
  | claim (c : Capability)
  /-- Notes that a scripted stop action has started. -/
  | noteStop
  /-- Stores a value in the registry. -/
  | store (key : String) (value : Entry)
  /-- Reads a value of the registry. -/
  | load (key : String)
  /-- Reads the settings of the process. -/
  | processSettings
  /-- Looks at phase, registry state and ledger. -/
  | observe
  /-- Waits for ever. -/
  | hang
  /-- Waits until the gate is opened. -/
  | waitForGate
  /-- Shuts down the runtime that the program runs on. -/
  | shutdownRuntime
  /-- Adds to the trace of a scenario. -/
  | trace (entry : Except Fault Sight)

namespace Call

/-- The type of the reply to a call. -/
def Reply : Call → Type
  | engine r => Except Fault r.Reply
  | viewClient => ClientView
  | fetch _ | post .. => Except Fault Response
  | connect _ => Except Fault Connection
  | query _ => Except Fault Json
  | dial .. => Except Fault Socket
  | openClient _ | disconnect _ | hangUp _ | pause _ | waitUntil _ | hang | waitForGate
  | store .. => Except Fault Unit
  | now | draw => Float
  | attempt => Attempt
  | freshId => String
  | resolve _ => Except Fault Files.Place
  | inspect _ => Bool × String
  | readFile _ => Except Fault (List UInt8)
  | engineChecked | networkKnown _ | claim _ => Bool
  | newIdentity => Nat
  | load _ => Except Fault (Option Entry)
  | processSettings => Except Fault Settings
  | observe => Phase × RegistryState × List String
  | _ => Unit

/-- The reply that tells a program that it is cancelled, if the call awaits something. -/
def cancelled? : (c : Call) → Option c.Reply
  | engine _ | readFile _ | fetch _ | post .. | connect _ | query _ | disconnect _ | dial ..
  | hangUp _ | pause _ | waitUntil _ | hang | waitForGate => some (.error Fault.cancelled)
  | openClient true => some (.error Fault.cancelled)
  | _ => none

/-- A worker thread answers the call. -/
def inWorker : Call → Bool
  | engine _ | readFile _ | openClient true => true
  | _ => false

end Call

/-- A program over the calls of the world. -/
abbrev Task (α : Type) := Program Call Call.Reply α

/-- Work that may raise an error. -/
abbrev Work (α : Type) := ExceptT Fault (Program Call Call.Reply) α

namespace Work

/-- A call whose reply is a plain value. -/
def ask (c : Call) : Work c.Reply := ExceptT.lift (Program.perform c)

/-- The work that ends with a given outcome. -/
def ofExcept {α : Type} (r : Except Fault α) : Work α := ExceptT.mk (.done r)

/-- Writes a log record. -/
def log (level : Level) (text : String) : Work Unit := ask (.log level text)

/-- Sends a request to the engine. -/
def engine (r : Engine.Request) : Work r.Reply := ExceptT.mk (Program.perform (Call.engine r))

/-- The work, with errors of a family handled. -/
def handle {α : Type} (caught : Fault → Bool) (body : Work α) (handler : Fault → Work α) :
    Work α :=
  tryCatch body fun f => if caught f then handler f else throw f

/-- The work, followed by other work whether it fails or not; an error of the latter wins. -/
def andFinally {α : Type} (body : Work α) (after : Work Unit) : Work α := do
  let r ← tryCatch (Except.ok <$> body) fun f => pure (Except.error f)
  after
  ofExcept r

end Work
end Testbed

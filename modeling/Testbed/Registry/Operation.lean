import Testbed.Log.Level
import Testbed.Registry

/-!
# Operations on a registry

Every operation as a value, with what it answers, the registry after it and what it logs; and the
registries of a process, one of which may be shared.
-/

namespace Testbed
namespace Registry

/-- An operation on a registry. -/
inductive Operation where
  | set (key : String) (value : Entry)
  | get (key : String)
  | container (kind : Json)
  | containerUri (kind : Json)
  | serviceUri (kind : Json)
  | sealEntries
  | beginDrain
  | clear
  | keys
  | token
  | settings
  | state
  deriving Repr

/-- What an operation answers. -/
inductive Answer where
  | nothing
  | entry (e : Option Entry)
  | text (s : String)
  | texts (xs : List String)
  deriving Repr

/-- An error about the use of a registry. -/
def isUsageFault : Fault → Bool
  | .environment e =>
    match e.cause with
    | .registryUsage .. => true
    | _ => false
  | _ => false

/-- The URI for a test that needs a service; without one the test is skipped. -/
def serviceUri (r : Registry) (kind : Json) : Except Fault String :=
  match r.containerUri kind with
  | .ok uri => .ok uri
  | .error f =>
    if isUsageFault f then
      .error (.of .skipped s!"No {kind.display} container in the test environment")
    else .error f

/-- What a read answers. -/
def reading (r : Registry) : Operation → Except Fault Answer
  | .get key => (r.get key).map .entry
  | .container kind => (r.container kind).map fun e => .entry (some e)
  | .containerUri kind => (r.containerUri kind).map .text
  | .serviceUri kind => (r.serviceUri kind).map .text
  | .keys => r.keys.map .texts
  | .token => r.token.map .text
  | .settings => r.settings.map fun e => .entry (some e)
  | .state => .ok (.text r.state.word)
  | _ => .ok .nothing

/-- What an operation answers, the registry after it, and its log text. -/
def apply (r : Registry) : Operation → Except Fault Answer × Registry × List LogRecord
  | .set key value =>
    match r.set key value with
    | .ok r => (.ok .nothing, r, [⟨Level.debug, stored⟩])
    | .error f => (.error f, r, [])
  | .sealEntries =>
    match r.sealEntries with
    | .ok r => (.ok .nothing, r, [⟨Level.debug, sealedNotice⟩])
    | .error f => (.error f, r, [])
  | .beginDrain =>
    (.ok .nothing, r.beginDrain,
      if r.state == .cleared then [] else [⟨Level.debug, drainingNotice⟩])
  | .clear => (.ok .nothing, r.clear, [⟨Level.debug, clearedNotice⟩])
  | op => (r.reading op, r, [])

end Registry

/-- The registries of a process: all that were made, which of them is in use, and which is the
shared one, if it has been made. -/
structure Registries where
  all : List Registry := [{}]
  current : Nat := 0
  shared : Option Nat := none
  deriving Repr

namespace Registries

/-- The log text of making the shared registry. -/
def madeShared : LogRecord := ⟨Level.debug, "Created global registry"⟩

/-- The shared registry, made if it is not there. -/
def getShared (r : Registries) : Nat × Registries × List LogRecord :=
  match r.shared with
  | some n => (n, r, [])
  | none =>
    let n := r.all.length
    (n, { r with all := r.all ++ [{}], shared := some n }, [madeShared])

/-- Uses the shared registry from now on. -/
def useShared (r : Registries) : Registries × List LogRecord :=
  let (n, r, log) := r.getShared
  ({ r with current := n }, log)

/-- Tells whether the registry in use is the shared one. -/
def isShared (r : Registries) : Bool × Registries × List LogRecord :=
  let (n, r, log) := r.getShared
  (r.current == n, r, log)

/-- Drops the shared registry. -/
def dropShared (r : Registries) : Registries := { r with shared := none }

/-- Uses a new registry from now on. -/
def useNew (r : Registries) : Registries :=
  { r with all := r.all ++ [{}], current := r.all.length }

/-- An operation on the registry in use. -/
def apply (r : Registries) (op : Registry.Operation) :
    Except Fault Registry.Answer × Registries × List LogRecord :=
  let (answer, registry, log) := ((r.all[r.current]?).getD {}).apply op
  (answer, { r with all := r.all.set r.current registry }, log)

end Registries
end Testbed

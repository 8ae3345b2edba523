import Testbed.Fault.Basic
import Testbed.Service

/-!
# Stop capabilities

A stop capability is the right to stop one container once.  Two capabilities are the same only if
they have the same identity, whatever their names.
-/

namespace Testbed

/-- What a stop action does: remove the container from the engine, or follow a script. -/
inductive StopAction where
  | remove
  | succeed
  | hang
  | waitForGate
  | fail (f : Fault)
  deriving Repr

/-- The right to stop one container. -/
structure Capability where
  identity : Nat
  name : String
  containerId : String
  service : Option Service
  action : StopAction
  deriving Repr

namespace Capability

/-- The error of a second use. -/
def usedTwice (c : Capability) : Fault :=
  .of .runtime s!"Container {c.name} has already been stopped"

/-- The first twelve characters of the container's id. -/
def shortId (c : Capability) : String := Text.takeFirst 12 c.containerId

/-- The capability in a message, given whether it has been used. -/
def describe (c : Capability) (used : Bool) : String :=
  let word := if used then "True" else "False"
  s!"StopCapability(name={Text.quoted c.name}, container_id={Text.quoted c.shortId}, " ++
    s!"invoked={word})"

end Capability

/-- A running container that provides a service.  A published copy carries no capability. -/
structure Handle where
  service : Service
  name : String
  containerId : String
  uri : String
  stop : Option Capability := none
  deriving Repr

namespace Handle

/-- The handle without its capability. -/
def detached (h : Handle) : Handle := { h with stop := none }

/-- Equality of handles, which leaves the capability out. -/
def same (a b : Handle) : Bool :=
  a.service == b.service && a.name == b.name && a.containerId == b.containerId && a.uri == b.uri

end Handle
end Testbed

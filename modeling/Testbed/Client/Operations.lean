import Testbed.Client.Archive
import Testbed.Client.Port
import Testbed.Uri.Split
import Testbed.World.State

/-!
# The engine client

The operations of the client through which containers are made, inspected and removed.  Look-ups
answer nothing when the engine fails; operations that change the engine raise its error.
-/

namespace Testbed
namespace Client

/-- The error of a URI that cannot be split. -/
def uriFault (p : Uri.Problem) : Fault := .of .value p.message

/-- Opens the client unless it is open. -/
def ensureOpen (inWorker : Bool := false) : Work Unit :=
  ExceptT.mk (Program.perform (Call.openClient inWorker))

/-- An error of the engine. -/
def isEngineFault (f : Fault) : Bool := f.isA Fault.Kind.isEngine

/-- Something that the engine does not have. -/
def isNotFound (f : Fault) : Bool := f.isA Fault.Kind.isNotFound

/-- Tells whether the engine answers a ping. -/
def connect : Work Bool :=
  Work.handle isEngineFault
    (do
      ensureOpen true
      let _ ← Work.engine .ping
      Work.log Level.info "Successfully connected to Docker daemon"
      pure true)
    fun f => do
      Work.log Level.warning s!"Failed to connect to Docker daemon: {f.text}"
      pure false

/-- The schemes whose host publishes ports. -/
def hostSchemes : List String := ["tcp", "http", "https"]

/-- The host under which the ports of an engine at an address are reachable. -/
def hostOf (address : String) : Except Fault String :=
  if address.isEmpty then .ok "localhost"
  else
    match Uri.split address.toList with
    | .error p => .error (uriFault p)
    | .ok u =>
      match u.host? with
      | some h =>
        if hostSchemes.contains (String.ofList u.scheme) then .ok (String.ofList h)
        else .ok "localhost"
      | none => .ok "localhost"

/-- The address that tells the host: the engine's if the client is open, else the one the client
is for. -/
def ClientView.published (v : ClientView) : String :=
  if v.isOpen then v.address else v.host.getD ""

/-- The host under which published ports are reachable. -/
def hostAddress : Work String := do
  let v ← Work.ask .viewClient
  Work.ofExcept (hostOf (ClientView.published v))

/-- Creates a network unless one with exactly this name exists; tells whether it did. -/
def ensureNetwork (name : String) : Work Bool := do
  ensureOpen
  let existing : List String ← Work.engine (.listNetworks name)
  if existing.contains name then
    Work.log Level.debug s!"Reusing network {name}"
    pure false
  else
    let _ ← Work.engine (.createNetwork name)
    Work.log Level.info s!"Created network {name}"
    pure true

/-- Creates a container, pulling its image if it is missing. -/
def createContainer (spec : Engine.ContainerSpec) : Work String := do
  ensureOpen
  Work.handle (fun f => f.isA (· == .imageNotFound))
    (do
      let _ ← Work.engine (.findImage spec.image))
    fun _ => do
      Work.log Level.info s!"Pulling image {spec.image}"
      let _ ← Work.engine (.pullImage spec.image)
  let id ← Work.engine (.create spec)
  Work.log Level.debug s!"Created container {spec.name}"
  pure id

/-- Copies a file into a container, together with the directories above it. -/
def putFile (id path : String) (data : List UInt8) (uid gid : Int) : Work Unit := do
  ensureOpen
  let names ← Work.ofExcept (Archive.relative path)
  let _ ← Work.engine (.find id)
  let accepted : Bool ← Work.engine (.putArchive id (Archive.members names data uid gid))
  if accepted then
    Work.log Level.debug s!"Copied {data.length} bytes to {path}"
  else
    throw (.of .engineApi
      s!"Failed to copy {(Archive.Path.parse path).name} into container {id}")

/-- Starts a container. -/
def startContainer (id : String) : Work Unit := do
  ensureOpen
  let found ← Work.engine (.find id)
  let _ ← Work.engine (.start id)
  Work.log Level.info s!"Started container {found.name}"

/-- The host port that is bound to a port of a container. -/
def publishedPort (id : String) (port : Int) : Work Int := do
  ensureOpen
  let found ← Work.engine (.find id)
  Work.ofExcept (Port.published id port found.attributes)

/-- A look-up that answers nothing when the engine fails. -/
def lookUp (id what : String) (body : Work (Option String)) : Work (Option String) :=
  Work.handle isEngineFault body fun f => do
    if isNotFound f then Work.log Level.debug s!"Container not found: {id}"
    else Work.log Level.warning s!"Error {what} container {id}: {f.text}"
    pure none

/-- What a container has logged. -/
def containerLogs (id : String) : Work (Option String) :=
  lookUp id "reading logs of" do
    ensureOpen
    let _ ← Work.engine (.find id)
    let bytes ← Work.engine (.readLogs id)
    pure (some (String.ofList (Text.decodeReplacing bytes)))

/-- The status of a container. -/
def containerStatus (id : String) : Work (Option String) :=
  lookUp id "getting status for" do
    ensureOpen
    let found ← Work.engine (.find id)
    pure (some found.status)

/-- The containers that carry a label. -/
def containersWithLabel (label value : String) : Work (List String) := do
  ensureOpen
  Work.engine (.listLabelled s!"{label}={value}")

/-- Removes a container; tells whether it existed. -/
def removeContainer (id : String) (force volumes : Bool := true) : Work Bool := do
  ensureOpen
  let removed ← Work.handle isNotFound
    (do
      let _ ← Work.engine (.find id)
      let _ ← Work.engine (.remove id force volumes)
      pure true)
    fun _ => do
      Work.log Level.warning s!"Cannot remove container - not found: {id}"
      pure false
  if removed then Work.log Level.info s!"Removed container {Text.takeFirst 12 id}"
  pure removed

/-- Closes the client if it is open. -/
def close : Work Unit := do
  let v ← Work.ask .viewClient
  if v.isOpen then
    Work.andFinally
      (Work.handle (fun f => !f.isCancelled)
        (do
          let _ ← Work.engine .close
          Work.log Level.debug "Docker client connection closed")
        fun f => Work.log Level.debug s!"Error closing Docker client: {f.text}")
      (Work.ask .forgetClient)

end Client
end Testbed

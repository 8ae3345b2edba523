import Testbed.Engine.Request
import Testbed.Fault.Basic
import Testbed.Text.Occurrence

/-!
# The container engine

An engine with its networks, images and containers, whose answers can be replaced by scripted
faults.  A fault strikes before or after the effect of a call; the call is recorded either way.
-/

namespace Testbed
namespace Engine

/-- A container. -/
structure Container where
  id : String
  name : String
  status : String
  labels : List (String × String) := []
  logs : Option (List UInt8) := none
  bindings : List (Nat × Nat) := []
  deriving Repr

/-- A scripted fault: which call it strikes, what it raises and whether the effect comes first.
`delay` is the time in milliseconds that the call takes. -/
structure FaultRule where
  call : String
  nth : Option Nat := none
  id : Option String := none
  fault : Option Fault := none
  after : Bool := false
  delay : Nat := 0
  deriving Repr

end Engine

/-- The state of an engine. -/
structure Engine where
  networks : List String := []
  images : Option (List String) := none
  unpullable : List String := []
  ids : List String := []
  containers : List Engine.Container := []
  portMap : Option Json := none
  attributes : Option Json := none
  status : Option String := none
  logs : List UInt8 := []
  acceptsArchives : Bool := true
  baseUrl : Option String := none
  faults : List Engine.FaultRule := []
  created : Nat := 0
  nextPort : Nat := 49153
  calls : List (String × String × List Json) := []
  counts : List (String × Nat) := []
  /-- Time in milliseconds that slow calls have taken. -/
  elapsed : Nat := 0
  deriving Repr

namespace Engine

/-- How often a call has been made. -/
def count (e : Engine) (name : String) : Nat := (Json.lookup name e.counts).getD 0

/-- The engine with a call recorded. -/
def note (e : Engine) (name subject : String) (arguments : List Json) : Engine :=
  { e with
    calls := e.calls ++ [(subject, name, arguments)]
    counts := Json.setField name (e.count name + 1) e.counts }

/-- The fault that strikes the call recorded last. -/
def strike (e : Engine) (name subject : String) : Option FaultRule :=
  e.faults.find? fun f =>
    f.call == name && f.nth.all (· == e.count name) && f.id.all (· == subject)

/-- The container with an id. -/
def container? (e : Engine) (id : String) : Option Container :=
  e.containers.find? fun c => c.id == id

/-- The engine with a container changed. -/
def update (e : Engine) (id : String) (f : Container → Container) : Engine :=
  { e with containers := e.containers.map fun c => if c.id == id then f c else c }

/-- The port map of a container: host ports are visible once it has been started. -/
def portsOf (e : Engine) (c : Container) : Json :=
  match e.portMap with
  | some j => j
  | none =>
    if c.status == "created" then .obj []
    else .obj (c.bindings.map fun b =>
      (portName b.1, .arr [.obj [("HostIp", .str "0.0.0.0"), ("HostPort", .str (toString b.2))]]))

/-- What a look-up of a container answers. -/
def snapshot (e : Engine) (c : Container) : Snapshot where
  name := c.name
  status := e.status.getD c.status
  attributes := e.attributes.getD (.obj [("NetworkSettings", .obj [("Ports", e.portsOf c)])])

/-- The container that a specification makes, with its host ports. -/
def build (e : Engine) (spec : ContainerSpec) : Container × Engine :=
  let n := e.created + 1
  let id := (e.ids[e.created]?).getD s!"cid{n}-0123456789abcdef"
  let ports := spec.ports.foldl (fun acc p => if acc.contains p then acc else acc ++ [p]) []
  let bindings := (List.range ports.length).zip ports |>.map fun p => (p.2, e.nextPort + p.1)
  let c : Container := {
    id := id, name := spec.name, status := "created", labels := spec.labels
    bindings := bindings }
  (c, { e with
    created := n, nextPort := e.nextPort + ports.length, containers := e.containers ++ [c] })

/-- The images that are present, if not all are. -/
def hasImage (e : Engine) (image : String) : Bool := e.images.all fun l => l.contains image

/-- A label filter `key=value` matches a container. -/
def matchesFilter (filter : String) (c : Container) : Bool :=
  c.labels.any fun l => s!"{l.1}={l.2}" == filter

/-- The effect and the answer of a request that no fault strikes. -/
def effect (e : Engine) : (r : Request) → Except Fault r.Reply × Engine
  | .ping => (.ok (), e)
  | .listNetworks name =>
    (.ok (e.networks.filter fun n => Text.contains name.toList n.toList), e)
  | .createNetwork name => (.ok (), { e with networks := e.networks ++ [name] })
  | .findImage image =>
    if e.hasImage image then (.ok (), e)
    else (.error (.of .imageNotFound s!"No such image: {image}"), e)
  | .pullImage image =>
    if e.unpullable.contains image then
      (.error (.of .imageNotFound s!"pull access denied for {image}"), e)
    else (.ok (), { e with images := e.images.map (· ++ [image]) })
  | .create spec =>
    let (c, e) := e.build spec
    (.ok c.id, e)
  | .find id =>
    match e.container? id with
    | some c => (.ok (e.snapshot c), e)
    | none => (.error (.of .notFound s!"No such container: {id}"), e)
  | .start id => (.ok (), e.update id fun c => { c with status := "running" })
  | .putArchive _ _ => (.ok e.acceptsArchives, e)
  | .readLogs id => (.ok (((e.container? id).bind Container.logs).getD e.logs), e)
  | .remove id _ _ =>
    (.ok (), { e with containers := e.containers.filter fun c => c.id != id })
  | .listLabelled filter => (.ok ((e.containers.filter (matchesFilter filter)).map (·.id)), e)
  | .close => (.ok (), e)

/-- A call with an effect, as the fault rules let it happen. -/
def struck {α : Type} (e : Engine) (name subject : String) (arguments : List Json)
    (act : Engine → Except Fault α × Engine) : Except Fault α × Engine :=
  let e := e.note name subject arguments
  match e.strike name subject with
  | none => act e
  | some rule =>
    let e := { e with elapsed := e.elapsed + rule.delay }
    match rule.fault, rule.after with
    | none, _ => act e
    | some f, false => (.error f, e)
    | some f, true =>
      match act e with
      | (.error g, e) => (.error g, e)
      | (.ok _, e) => (.error f, e)

/-- The answer to a request and the engine after it. -/
def perform (e : Engine) (r : Request) : Except Fault r.Reply × Engine :=
  e.struck r.name r.subject r.arguments fun e => e.effect r

/-- The opening of a client for an address. -/
def connect (e : Engine) (host : Option String) : Except Fault Unit × Engine :=
  e.struck "open" "" [.ofText? host] fun e => (.ok (), e)

end Engine
end Testbed

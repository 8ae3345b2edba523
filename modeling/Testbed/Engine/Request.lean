import Testbed.Json.Printer
import Testbed.Text.Utf8

/-!
# Requests to the container engine

What can be asked of a container engine and the type of each answer.
-/

namespace Testbed
namespace Engine

/-- A directory of the host that is mounted into a container. -/
structure Mount where
  source : String
  target : String
  mode : String
  deriving Repr

/-- What a container is created from. -/
structure ContainerSpec where
  image : String
  name : String
  command : Option (List String) := none
  environment : List (String × String) := []
  ports : List Nat := []
  mounts : List Mount := []
  network : Option String := none
  labels : List (String × String) := []
  deriving Repr

/-- A member of an archive: a directory, or a file with its content. -/
structure Member where
  name : String
  content : Option (List UInt8)
  mode : Nat
  uid : Int
  gid : Int
  deriving Repr, DecidableEq

/-- What a look-up of a container answers: its name, status and inspection data. -/
structure Snapshot where
  name : String
  status : String
  attributes : Json
  deriving Repr

/-- A request to the engine. -/
inductive Request where
  | ping
  | listNetworks (name : String)
  | createNetwork (name : String)
  | findImage (image : String)
  | pullImage (image : String)
  | create (spec : ContainerSpec)
  | find (id : String)
  | start (id : String)
  | putArchive (id : String) (members : List Member)
  | readLogs (id : String)
  | remove (id : String) (force volumes : Bool)
  | listLabelled (filter : String)
  | close
  deriving Repr

namespace Request

/-- The type of the answer to a request. -/
def Reply : Request → Type
  | listNetworks _ | listLabelled _ => List String
  | create _ => String
  | find _ => Snapshot
  | putArchive .. => Bool
  | readLogs _ => List UInt8
  | _ => Unit

/-- The name of a request. -/
def name : Request → String
  | ping => "ping"
  | listNetworks _ => "networks.list"
  | createNetwork _ => "networks.create"
  | findImage _ => "images.get"
  | pullImage _ => "images.pull"
  | create _ => "containers.create"
  | find _ => "containers.get"
  | start _ => "start"
  | putArchive .. => "put_archive"
  | readLogs _ => "logs"
  | remove .. => "remove"
  | listLabelled _ => "containers.list"
  | close => "close"

/-- The container that a request is about, or the empty text. -/
def subject : Request → String
  | find id | start id | putArchive id _ | readLogs id | remove id .. => id
  | _ => ""

end Request

/-- Texts by name as a JSON object. -/
def textObject (fields : List (String × String)) : Json :=
  .obj (fields.foldl (fun acc f => Json.setField f.1 (.str f.2) acc) [])

/-- The name of a TCP port. -/
def portName (port : Nat) : String := s!"{port}/tcp"

/-- The specification of a container as a JSON object. -/
def ContainerSpec.toJson (s : ContainerSpec) : Json := .obj [
  ("name", .str s.name), ("command", (s.command.map Json.texts).getD .null),
  ("environment", textObject s.environment),
  ("ports", .obj (s.ports.foldl (fun acc p => Json.setField (portName p) .null acc) [])),
  ("volumes", .obj (s.mounts.foldl (fun acc m => Json.setField m.source
    (.obj [("bind", .str m.target), ("mode", .str m.mode)]) acc) [])),
  ("network", .ofText? s.network), ("labels", textObject s.labels), ("detach", .bool true)]

/-- A member of an archive as a JSON object. -/
def Member.toJson (m : Member) : Json := .obj [
  ("name", .str m.name), ("dir", .bool m.content.isNone), ("mode", .int m.mode),
  ("uid", .int m.uid), ("gid", .int m.gid), ("hex", .ofText? (m.content.map Text.hexBytes))]

/-- The arguments of a request. -/
def Request.arguments : Request → List Json
  | listNetworks name => [.texts [name]]
  | createNetwork name => [.str name, .str "bridge"]
  | findImage image | pullImage image => [.str image]
  | create spec => [.str spec.image, spec.toJson]
  | putArchive _ members => [.str "/", .arr (members.map Member.toJson)]
  | remove _ force volumes => [.obj [("force", .bool force), ("v", .bool volumes)]]
  | listLabelled filter => [.bool true, .obj [("label", .str filter)]]
  | _ => []

end Engine
end Testbed

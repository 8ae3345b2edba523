import Testbed.Script.Values
import Testbed.World.State

/-!
# Scripted worlds

The engine, the outside and the files of a world as scripts describe them in JSON.
-/

namespace Testbed
namespace Script

/-- The bytes of a text of hexadecimal digits. -/
def bytesOfHex (s : String) : List UInt8 :=
  let rec pairs : List Nat → List UInt8
    | a :: b :: rest => UInt8.ofNat (a * 16 + b) :: pairs rest
    | _ => []
  pairs (s.toList.filterMap Json.hexValue?)

/-- The bytes that a script gives as a text or as hexadecimal digits. -/
def bytes? : Json → Option (List UInt8)
  | .str s => some (Text.utf8 s)
  | j => (j.textAt? "hex").map bytesOfHex

/-- The texts of a field, by name. -/
def textFields (key : String) (j : Json) : List (String × String) :=
  ((j.get? key).map Json.fields).getD [] |>.map fun f => (f.1, f.2.display)

/-- The texts of a list. -/
def texts (xs : List Json) : List String := xs.filterMap Json.str?

/-- A fault rule. -/
def faultRule (j : Json) : Engine.FaultRule where
  call := j.textAt "call"
  nth := ((j.given? "nth").bind Json.int?).map Int.toNat
  id := j.textAt? "id"
  fault := fault? j
  after := j.flagAt "after"
  delay := j.natAt "sleep_ms" 0

/-- A container that the engine has from the start. -/
def container (j : Json) : Engine.Container where
  id := j.textAt "id"
  name := j.textAt "name" (j.textAt "id")
  status := j.textAt "status" "running"
  labels := textFields "labels" j
  logs := (j.get? "logs").bind bytes?

/-- A mount, given its source. -/
def mount (source : String) (j : Json) : Engine.Mount :=
  ⟨source, j.textAt "bind", j.textAt "mode"⟩

/-- What a container is created from. -/
def containerSpec (image : String) (j : Json) : Engine.ContainerSpec where
  image := image
  name := j.textAt "name"
  command := (j.given? "command").map fun c => texts c.items
  environment := textFields "environment" j
  ports := (j.listAt "ports").filterMap fun p => p.int?.map Int.toNat
  mounts := ((j.get? "volumes").map Json.fields).getD [] |>.map fun f => mount f.1 f.2
  network := j.textAt? "network"
  labels := textFields "labels" j

/-- The engine that a script describes. -/
def engine (j : Json) : Engine where
  networks := texts (j.listAt "networks")
  images := (j.given? "images").map fun l => texts l.items
  unpullable := texts (j.listAt "unpullable")
  ids := texts (j.listAt "ids")
  containers := (j.listAt "containers").map container
  portMap := j.get? "ports"
  attributes := j.given? "attrs"
  status := j.textAt? "status"
  logs := ((j.get? "logs").bind bytes?).getD []
  acceptsArchives := j.flagAt "put_archive" true
  baseUrl := j.textAt? "api_base_url"
  faults := (j.listAt "faults").map faultRule

/-- A web response. -/
def response (j : Json) : Except Fault Response :=
  match fault? j with
  | some f => .error f
  | none => .ok {
      status := j.intAt "status" 200
      body := match j.given? "json", j.textAt? "text", j.textAt? "hex" with
        | some v, _, _ => Text.utf8 v.compress
        | none, some t, _ => Text.utf8 t
        | none, none, some h => bytesOfHex h
        | none, none, none => []
      headers := textFields "headers" j }

/-- A database connection. -/
def connection (j : Json) : Except Fault Connection :=
  match fault? j with
  | some f => .error f
  | none => .ok {
      value := (j.get? "value").getD (.int 1)
      fetchFault := (j.given? "fetch_error").map fault
      closeFault := (j.given? "close_error").map fault }

/-- A socket. -/
def socket (j : Json) : Except Fault Socket :=
  match fault? j with
  | some f => .error f
  | none => .ok { closeFault := (j.given? "close_error").map fault }

/-- An attempt of a scripted probe: a flag, or an object. -/
def attempt (j : Json) : Attempt :=
  match j with
  | .obj _ => {
      delay := (j.given? "delay").bind fun d => (Seconds.ofJson? d).map Seconds.toFloat
      hangs := j.flagAt "hang"
      answer := match fault? j with
        | some f => .error f
        | none => .ok ((j.get? "value").getD (.bool true)).truthy }
  | j => { answer := .ok j.truthy }

/-- The outside that a script describes. -/
def outside (j : Json) : Outside where
  http := (j.listAt "http").map response
  token := (j.listAt "token").map response
  database := (j.listAt "postgres").map connection
  sockets := (j.listAt "tcp").map socket

/-- The node that a script describes: a text, bytes, a directory or a link. -/
def node (j : Json) : Files.Node :=
  match j with
  | .str s => .file (Text.utf8 s)
  | .null => .directory
  | j =>
    match j.textAt? "link" with
    | some target => .link target
    | none => .file ((bytes? j).getD [])

/-- The name that stands for the scratch directory. -/
def home : String := "<TMP>"

/-- The files that a script describes. -/
def files (j : Json) : Files :=
  j.fields.foldl (fun fs f => fs.add f.1 (node f.2)) { home := home }

/-- The text of the environment file: given, or one of the files. -/
def environmentFile (j : Json) : String :=
  let name := (Json.lookup "TESTENV_ENV_FILE" (textFields "env" j)).getD ".env"
  (j.textAt? "env_file").getD (((j.get? "files").getD .null).textAt name)

/-- Where the settings of a process come from. -/
def processSources (j : Json) : Settings.Sources where
  environment := textFields "env" j
  file := Dotenv.read (textFields "env" j) (environmentFile j)

/-- The number of a field. -/
def number (key : String) (default : Float) (j : Json) : Float :=
  (((j.get? key).bind Seconds.ofJson?).map Seconds.toFloat).getD default

/-- The world that a script describes. -/
def world (j : Json) : World where
  engine := engine ((j.get? "engine").getD .null)
  outside := outside ((j.get? "outside").getD .null)
  files := files ((j.get? "files").getD .null)
  jitter := number "jitter" 0.0 j
  process := Settings.read (processSources j)
  host := j.textAt? "docker_host"

end Script
end Testbed

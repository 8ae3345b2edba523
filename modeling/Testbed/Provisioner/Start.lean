import Testbed.Provisioner.Problem
import Testbed.Readiness.Probe

/-!
# Starting containers

Starts a container for a service and waits until it is ready.  The stop capability of a container
is recorded as soon as the engine has made it, before it is started.
-/

namespace Testbed

/-- What all containers of a session share: the label of the session and the settings. -/
structure Provisioner where
  session : String
  settings : Settings
  deriving Repr

namespace Provisioner

/-- The port of the database. -/
def databasePort : Nat := 5432

/-- Where a database container looks for scripts. -/
def scriptsTarget : String := "/docker-entrypoint-initdb.d"

/-- The port of the identity provider. -/
def webPort : Nat := 8080

/-- The port under which the identity provider tells its health. -/
def healthPort : Nat := 9000

/-- The page that tells the health of the identity provider. -/
def healthPath : String := "/health/ready"

/-- Where the identity provider looks for a realm. -/
def realmTarget : String := "/opt/keycloak/data/import/realm-export.json"

/-- The command of the identity provider. -/
def providerCommand : List String := ["start-dev", "--import-realm"]

/-- The label that names the session of a container. -/
def sessionLabel : String := "testenv.session"

/-- The label that names the service of a container. -/
def serviceLabel : String := "testenv.kind"

/-- Raises a problem. -/
def fail {α : Type} (p : Problem) : Work α := throw p.fault

/-- Logs and raises the refusal of a step. -/
def refuse {α : Type} (step : Step) (cause : Fault) : Work α := do
  Work.log Level.error (Problem.refused step cause).message
  fail (.refused step cause)

/-- A step whose refusal by the engine is reported. -/
def reporting {α : Type} (step : Step) (body : Work α) : Work α :=
  Work.handle Client.isEngineFault body (refuse step)

/-- Makes sure, once, that the engine answers. -/
def ensureEngine : Work Unit := do
  let checked : Bool ← Work.ask .engineChecked
  if !checked then
    if ← Client.connect then Work.ask .noteEngine
    else fail .unreachable

/-- Makes sure, once for each name, that a network exists. -/
def ensureNetwork (name : String) : Work Unit := do
  let known : Bool ← Work.ask (.networkKnown name)
  if !known then
    let _ ← reporting (.network name) (Client.ensureNetwork name)
    Work.ask (.noteNetwork name)

/-- A text that is given and not empty. -/
def given (s : Option String) : Option String := s.filter fun t => !t.isEmpty

/-- The name of a container: the service and the head of a fresh identifier. -/
def containerName (service : Service) (id : String) : String :=
  s!"testenv-{service.word}-{Text.takeFirst 8 id}"

/-- Creates a container and records its stop capability. -/
def create (p : Provisioner) (service : Service) (network : Option String)
    (spec : Engine.ContainerSpec) : Work Capability := do
  ensureEngine
  let network := (given network).getD p.settings.networkName
  ensureNetwork network
  let id : String ← Work.ask .freshId
  let name := containerName service id
  let spec := { spec with
    name := name, network := some network
    labels := [(sessionLabel, p.session), (serviceLabel, service.word)] }
  let containerId ← Work.handle Client.isEngineFault (Client.createContainer spec) fun f =>
    if f.isA (· == .imageNotFound) then fail (.noImage service spec.image f)
    else refuse (.create service) f
  let identity : Nat ← Work.ask .newIdentity
  let capability : Capability := ⟨identity, name, containerId, some service, .remove⟩
  Work.ask (.record capability)
  Work.log Level.debug s!"Registered container {name} for teardown"
  pure capability

/-- Starts a container. -/
def start (service : Service) (c : Capability) : Work Unit :=
  reporting (.start service) (Client.startContainer c.containerId)

/-- The host port that is bound to a port of a container. -/
def publishedPort (service : Service) (c : Capability) (port : Nat) : Work Int :=
  reporting (.port service port) (Client.publishedPort c.containerId port)

/-- The error of a service that did not become ready in time, if it is one. -/
def timedOut? : Fault → Option EnvironmentError
  | .environment e =>
    match e.cause with
    | .provision .timeout _ => some e
    | _ => none
  | _ => none

/-- Waits for a probe; when the time is up the error carries the status of the container. -/
def waitReady (service : Service) (c : Capability) (probe : Work Bool) (timeout : Seconds)
    (description : String) : Work Unit := do
  let _ ← tryCatch (Readiness.await probe timeout description service.word) fun f =>
    match timedOut? f with
    | none => throw f
    | some e => do
      let status ← Client.containerStatus c.containerId
      Work.log Level.error
        s!"{description} not ready, container status: {(Json.ofText? status).display}"
      throw (.environment (e.withDetail "container_status" (.ofText? status)))

/-- The handle of a container that is ready. -/
def ready (service : Service) (c : Capability) (uri : String) : Work Handle := do
  Work.log Level.info s!"{service.word} container {c.name} is ready"
  pure ⟨service, c.name, c.containerId, uri, some c⟩

/-- The place of an existing path. -/
def existing (service : Service) (what path : String) : Work Files.Place :=
  Work.handle (fun f => f.isA Fault.Kind.isOs)
    (ExceptT.mk (Program.perform (Call.resolve path)))
    fun f => fail (.unresolved service what path f)

/-- The bound of waiting: the configuration's unless it is zero or missing. -/
def boundOf (override : Option Seconds) (default : Float) : Seconds :=
  (override.filter Seconds.nonzero).getD (.real default)

/-- The mounts of a database container. -/
def scriptMounts (path : Option String) : Work (List Engine.Mount) := do
  match path with
  | none => pure []
  | some path =>
    let place ← existing .postgres "init scripts directory" path
    let (isDirectory, full) : Bool × String ← Work.ask (.inspect place)
    if isDirectory then pure [⟨full, scriptsTarget, "ro"⟩]
    else fail (.noDirectory .postgres full)

/-- The connection URI of a database. -/
def databaseUri (c : PostgresConfig) (host : String) (port : Int) : String :=
  s!"postgres://{c.user}:{c.password}@{host}:{port}/{c.database}"

/-- Starts a database container and waits until it accepts connections. -/
def startPostgres (p : Provisioner) (c : PostgresConfig) : Work Handle := do
  Work.log Level.info "Creating Postgres container..."
  let mounts ← scriptMounts c.initScripts
  let capability ← p.create .postgres c.network {
    image := (given c.image).getD p.settings.postgresImage
    name := ""
    environment := [("POSTGRES_DB", c.database), ("POSTGRES_USER", c.user),
      ("POSTGRES_PASSWORD", c.password)]
    ports := [databasePort]
    mounts := mounts }
  start .postgres capability
  let host ← Client.hostAddress
  let port ← publishedPort .postgres capability databasePort
  let uri := databaseUri c host port
  waitReady .postgres capability (Readiness.databaseAccepts uri)
    (boundOf c.startupTimeout p.settings.postgresStartupTimeout)
    s!"Postgres container {capability.name}"
  let shown ← Work.ofExcept ((Uri.redact uri).mapError Client.uriFault)
  Work.log Level.debug s!"Postgres connection URL: {shown}"
  ready .postgres capability uri

/-- The environment of an identity provider container. -/
def providerEnvironment (c : KeycloakConfig) : List (String × String) :=
  c.env.foldl (fun acc e => Json.setField e.1 e.2 acc)
    [("KC_BOOTSTRAP_ADMIN_USERNAME", c.adminUser),
      ("KC_BOOTSTRAP_ADMIN_PASSWORD", c.adminPassword), ("KC_HTTP_ENABLED", "true"),
      ("KC_HTTP_HOST", "0.0.0.0"), ("KC_HEALTH_ENABLED", "true"), ("KC_CACHE", "local")]

/-- The content of the file with a realm. -/
def readRealm (path : String) : Work (List UInt8) := do
  let place ← existing .keycloak "realm file" path
  let (_, full) : Bool × String ← Work.ask (.inspect place)
  Work.handle (fun f => f.isA Fault.Kind.isOs)
    (ExceptT.mk (Program.perform (Call.readFile place)))
    fun f => fail (.unreadable .keycloak full f)

/-- Starts an identity provider container with a realm and waits until it is healthy. -/
def startKeycloak (p : Provisioner) (c : KeycloakConfig) : Work Handle := do
  Work.log Level.info "Creating Keycloak container..."
  let realm ← readRealm c.realmFile
  let capability ← p.create .keycloak c.network {
    image := (given c.image).getD p.settings.keycloakImage
    name := ""
    command := some providerCommand
    environment := providerEnvironment c
    ports := [webPort, healthPort] }
  reporting (.copy .keycloak) (Client.putFile capability.containerId realmTarget realm 1000 0)
  start .keycloak capability
  let host ← Client.hostAddress
  let port ← publishedPort .keycloak capability webPort
  let health ← publishedPort .keycloak capability healthPort
  waitReady .keycloak capability (Readiness.pageAnswers s!"http://{host}:{health}{healthPath}")
    (boundOf c.startupTimeout p.settings.keycloakStartupTimeout)
    s!"Keycloak container {capability.name}"
  let uri := s!"http://{host}:{port}"
  Work.log Level.debug s!"Keycloak connection URL: {uri}"
  ready .keycloak capability uri

/-- Starts the container that a configuration describes. -/
def startService (p : Provisioner) : ServiceConfig → Work Handle
  | .postgres c => p.startPostgres c
  | .keycloak c => p.startKeycloak c
  | .unsupported t => fail (.unsupported t)

end Provisioner

namespace Capability

/-- What the stop action does. -/
def act (c : Capability) : Work Unit := do
  match c.action with
  | .remove =>
    let _ ← Client.removeContainer c.containerId
  | .succeed => Work.ask .noteStop
  | .fail f =>
    Work.ask .noteStop
    throw f
  | .hang =>
    Work.ask .noteStop
    ExceptT.mk (Program.perform Call.hang)
  | .waitForGate =>
    Work.ask .noteStop
    ExceptT.mk (Program.perform Call.waitForGate)

/-- Stops the container; a second use is refused. -/
def use (c : Capability) : Work Unit := do
  let unused : Bool ← Work.ask (.claim c)
  if unused then c.act else throw c.usedTwice

end Capability
end Testbed

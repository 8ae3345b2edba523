import Testbed.Decimal.Number
import Testbed.Json.Printer

/-!
# Services and their startup configurations

The services that a container can provide, the configuration a container is started with, and
durations, which keep whether they were given as a whole number.
-/

namespace Testbed

/-- A service that a container provides. -/
inductive Service where
  | postgres
  | keycloak
  deriving Repr, DecidableEq

namespace Service

/-- All services. -/
def all : List Service := [postgres, keycloak]

/-- The word for a service. -/
def word : Service → String
  | postgres => "postgres"
  | keycloak => "keycloak"

/-- The service that a word stands for. -/
def ofWord? (w : String) : Option Service := all.find? fun s => s.word == w

/-- The registry key of the container that provides the service. -/
def key (s : Service) : String := s!"container:{s.word}"

end Service

/-- A duration in seconds. -/
inductive Seconds where
  | whole (n : Int)
  | real (x : Float)
  deriving Repr

namespace Seconds

/-- The duration as a float. -/
def toFloat : Seconds → Float
  | whole n => Decimal.ofInt n
  | real x => x

/-- The duration in a message. -/
def text : Seconds → String
  | whole n => toString n
  | real x => Decimal.write x

/-- The duration as a JSON number. -/
def toJson : Seconds → Json
  | whole n => .int n
  | real x => .float x

/-- The duration that a JSON number stands for. -/
def ofJson? : Json → Option Seconds
  | .int n => some (whole n)
  | .float x => some (real x)
  | .bool b => some (whole (if b then 1 else 0))
  | _ => none

/-- The duration is not zero. -/
def nonzero : Seconds → Bool
  | whole n => n != 0
  | real x => x != 0.0

end Seconds

/-- How a database container is started. -/
structure PostgresConfig where
  database : String := "postgres"
  user : String := "postgres"
  password : String := "postgres"
  initScripts : Option String := none
  network : Option String := none
  image : Option String := none
  startupTimeout : Option Seconds := none
  deriving Repr

/-- How an identity provider container is started. -/
structure KeycloakConfig where
  realmFile : String
  network : Option String := none
  adminUser : String := "admin"
  adminPassword : String := "123456"
  image : Option String := none
  startupTimeout : Option Seconds := none
  env : List (String × String) := []
  deriving Repr

/-- How a container is started.  A configuration of another type is known by its type's name. -/
inductive ServiceConfig where
  | postgres (c : PostgresConfig)
  | keycloak (c : KeycloakConfig)
  | unsupported (typeName : String)
  deriving Repr

namespace ServiceConfig

/-- The configuration that a JSON object describes. -/
def ofJson (j : Json) : ServiceConfig :=
  let timeout := (j.get? "startup_timeout").bind Seconds.ofJson?
  match j.textAt "type" "postgres" with
  | "postgres" => .postgres {
      database := j.textAt "database" "postgres"
      user := j.textAt "user" "postgres"
      password := j.textAt "password" "postgres"
      initScripts := j.textAt? "init_scripts"
      network := j.textAt? "network"
      image := j.textAt? "image"
      startupTimeout := timeout }
  | "keycloak" => .keycloak {
      realmFile := j.textAt "realm_file"
      network := j.textAt? "network"
      adminUser := j.textAt "admin_user" "admin"
      adminPassword := j.textAt "admin_password" "123456"
      image := j.textAt? "image"
      startupTimeout := timeout
      env := ((j.get? "env").map Json.fields).getD [] |>.map fun f => (f.1, f.2.display) }
  | other => .unsupported other

/-- The service of a configuration. -/
def service? : ServiceConfig → Option Service
  | postgres _ => some .postgres
  | keycloak _ => some .keycloak
  | unsupported _ => none

/-- The values of a configuration by name. -/
def values : ServiceConfig → List (String × Json)
  | postgres c => [
      ("database", .str c.database), ("user", .str c.user), ("password", .str c.password),
      ("init_scripts", .ofText? c.initScripts), ("network", .ofText? c.network),
      ("image", .ofText? c.image),
      ("startup_timeout", (c.startupTimeout.map (·.toJson)).getD .null)]
  | keycloak c => [
      ("realm_file", .str c.realmFile), ("network", .ofText? c.network),
      ("admin_user", .str c.adminUser), ("admin_password", .str c.adminPassword),
      ("image", .ofText? c.image),
      ("startup_timeout", (c.startupTimeout.map (·.toJson)).getD .null),
      ("env", .obj (c.env.map fun p => (p.1, Json.str p.2)))]
  | unsupported _ => []

end ServiceConfig
end Testbed

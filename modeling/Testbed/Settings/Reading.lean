import Testbed.Decimal.Literal
import Testbed.Fault.Basic
import Testbed.Settings.Dotenv
import Testbed.Text.Lower

/-!
# Settings

The configuration of the orchestrator.  Each setting is looked up in the given values, then in the
process environment, then in an environment file, and has a default; every value is checked, and
all issues are reported in the order of the settings.
-/

namespace Testbed

/-- The configuration of the orchestrator. -/
structure Settings where
  logLevel : String := "INFO"
  logFormat : String := "text"
  logFilePath : Option String := none
  logFileMaxBytes : Int := 10485760
  logFileBackupCount : Int := 3
  engineHost : Option String := none
  networkName : String := "test_network"
  runtimeWorkers : Int := 4
  setupTimeout : Option Float := none
  teardownTimeout : Option Float := none
  postgresImage : String := "postgres:16-alpine"
  postgresStartupTimeout : Float := 30.0
  keycloakImage : String := "quay.io/keycloak/keycloak:26.5.2"
  keycloakStartupTimeout : Float := 60.0
  readinessInitialDelay : Float := 0.1
  readinessMaxDelay : Float := 2.0
  deriving Repr

namespace Settings

/-! ## Values -/

/-- A check of a value. -/
abbrev Check (α : Type) := Json → Except Flaw α

/-- A text. -/
def text : Check String
  | .str s => .ok s
  | _ => .error .textExpected

/-- A value or null. -/
def nullable {α : Type} (check : Check α) : Check (Option α)
  | .null => .ok none
  | j => (check j).map some

/-- An integer; texts are read, flags count as one and zero. -/
def integer : Check Int
  | .int n => .ok n
  | .bool b => .ok (if b then 1 else 0)
  | .float x =>
    match Json.floatInt? x with
    | some n => .ok n
    | none => .error .fraction
  | .str s =>
    match Decimal.settingInt? s with
    | some n => .ok n
    | none => .error .unreadableInteger
  | _ => .error .integerExpected

/-- An integer within bounds. -/
def integerIn (low : Nat) (high : Option Nat) : Check Int := fun j => do
  let n ← integer j
  if n < low then .error (.atLeast low)
  else
    match high with
    | some h => if (h : Int) < n then .error (.atMost h) else .ok n
    | none => .ok n

/-- A float; texts are read, integers and flags are converted. -/
def number : Check Float
  | .float x => .ok x
  | .int n => .ok (Decimal.ofInt n)
  | .bool b => .ok (if b then 1.0 else 0.0)
  | .str s =>
    match Decimal.settingFloat? s with
    | some x => .ok x
    | none => .error .unreadableNumber
  | _ => .error .numberExpected

/-- A float above zero. -/
def positive : Check Float := fun j => do
  let x ← number j
  if 0.0 < x then .ok x else .error .positive

/-- The names of log levels. -/
def logLevels : List String := ["DEBUG", "INFO", "WARNING", "ERROR", "CRITICAL"]

/-- The text in capital letters, if all of them are ASCII. -/
def upper? (s : String) : Option String :=
  (s.toList.mapM Text.upperAscii?).map String.ofList

/-- A log level in any case. -/
def level : Check String := fun j => do
  let s ← text j
  match upper? s with
  | some l =>
    if logLevels.contains l then .ok l else .error (.rejected s!"Invalid log level: {s}")
  | none => .error (.rejected s!"Invalid log level: {s}")

/-- A format of the console log. -/
def format : Check String
  | .str s => if s == "text" || s == "json" then .ok s else .error .notAmong
  | _ => .error .notAmong

/-- The schemes of engine addresses. -/
def engineSchemes : List String := ["unix://", "tcp://", "npipe://", "ssh://"]

/-- The address of a container engine. -/
def engineAddress : Check String := fun j => do
  let s ← text j
  if engineSchemes.any fun scheme => s.startsWith scheme then .ok s
  else .error (.rejected (s!"Invalid docker host. Expected unix://, tcp://, npipe:// or ssh://, " ++
    s!"got: {s}"))

/-! ## Reading -/

/-- Where settings are looked up. -/
structure Sources where
  given : List (String × Json) := []
  environment : List (String × String) := []
  file : List (String × String) := []
  deriving Repr

/-- The texts of an environment under the names of settings. -/
def named (environment : List (String × String)) (name : String) : Option String :=
  let wanted := "testenv_".toList ++ name.toList
  ((environment.reverse.find? fun e => Text.lower e.1.toList == wanted)).map Prod.snd

/-- The value of a setting, if a source has one. -/
def Sources.find (s : Sources) (name : String) : Option Json :=
  Json.lookup name s.given <|> (named s.environment name <|> named s.file name).map Json.str

/-- Reading collects issues. -/
abbrev Reading := StateM (List Issue)

/-- The checked value of a setting, or its default. -/
def field {α : Type} (s : Sources) (name : String) (check : Check α) (default : α) : Reading α :=
  match s.find name with
  | none => pure default
  | some j =>
    match check j with
    | .ok v => pure v
    | .error flaw => do
      modify (· ++ [⟨name, flaw, j⟩])
      pure default

/-- All settings of a set of sources. -/
def readFields (s : Sources) : Reading Settings := do
  let d : Settings := {}
  let logLevel ← field s "log_level" level d.logLevel
  let logFormat ← field s "log_format" format d.logFormat
  let logFilePath ← field s "log_file_path" (nullable text) d.logFilePath
  let maxBytes ← field s "log_file_max_bytes" (integerIn 1024 none) d.logFileMaxBytes
  let backups ← field s "log_file_backup_count" (integerIn 0 none) d.logFileBackupCount
  let engineHost ← field s "docker_host" (nullable engineAddress) d.engineHost
  let networkName ← field s "network_name" text d.networkName
  let workers ← field s "runtime_workers" (integerIn 1 (some 64)) d.runtimeWorkers
  let setupTimeout ← field s "setup_timeout" (nullable positive) d.setupTimeout
  let teardownTimeout ← field s "teardown_timeout" (nullable positive) d.teardownTimeout
  let postgresImage ← field s "postgres_image" text d.postgresImage
  let postgresTimeout ← field s "postgres_startup_timeout" positive d.postgresStartupTimeout
  let keycloakImage ← field s "keycloak_image" text d.keycloakImage
  let keycloakTimeout ← field s "keycloak_startup_timeout" positive d.keycloakStartupTimeout
  let initialDelay ← field s "readiness_initial_delay" positive d.readinessInitialDelay
  let maxDelay ← field s "readiness_max_delay" positive d.readinessMaxDelay
  pure {
    logLevel := logLevel, logFormat := logFormat, logFilePath := logFilePath
    logFileMaxBytes := maxBytes, logFileBackupCount := backups, engineHost := engineHost
    networkName := networkName, runtimeWorkers := workers, setupTimeout := setupTimeout
    teardownTimeout := teardownTimeout, postgresImage := postgresImage
    postgresStartupTimeout := postgresTimeout, keycloakImage := keycloakImage
    keycloakStartupTimeout := keycloakTimeout, readinessInitialDelay := initialDelay
    readinessMaxDelay := maxDelay }

/-- The settings of a set of sources, or everything that is wrong with them. -/
def read (s : Sources) : Except Fault Settings :=
  match (readFields s).run [] with
  | (settings, []) => .ok settings
  | (_, issues) => .error (.invalid "Settings" issues)

/-- The settings by name. -/
def fields (s : Settings) : List (String × Json) := [
  ("log_level", .str s.logLevel), ("log_format", .str s.logFormat),
  ("log_file_path", .ofText? s.logFilePath), ("log_file_max_bytes", .int s.logFileMaxBytes),
  ("log_file_backup_count", .int s.logFileBackupCount), ("docker_host", .ofText? s.engineHost),
  ("network_name", .str s.networkName), ("runtime_workers", .int s.runtimeWorkers),
  ("setup_timeout", (s.setupTimeout.map Json.float).getD .null),
  ("teardown_timeout", (s.teardownTimeout.map Json.float).getD .null),
  ("postgres_image", .str s.postgresImage),
  ("postgres_startup_timeout", .float s.postgresStartupTimeout),
  ("keycloak_image", .str s.keycloakImage),
  ("keycloak_startup_timeout", .float s.keycloakStartupTimeout),
  ("readiness_initial_delay", .float s.readinessInitialDelay),
  ("readiness_max_delay", .float s.readinessMaxDelay)]

end Settings
end Testbed

import Testbed.Json.Basic

/-!
# Errors of the test environment

An error of the test environment is a cause with an optional message, code and details that
replace or extend what the cause says.  `message`, `code` and `details` give what is reported.
-/

namespace Testbed

/-- Why a container could not be provisioned. -/
inductive ProvisionKind where
  | timeout
  | engineUnavailable
  | configInvalid
  deriving Repr, DecidableEq

namespace ProvisionKind

/-- All reasons. -/
def all : List ProvisionKind := [timeout, engineUnavailable, configInvalid]

/-- The word for a reason. -/
def word : ProvisionKind → String
  | timeout => "timeout"
  | engineUnavailable => "engine_unavailable"
  | configInvalid => "config_invalid"

/-- The error code of a reason. -/
def code : ProvisionKind → String
  | timeout => "PROVISION_TIMEOUT"
  | engineUnavailable => "PROVISION_ENGINE_UNAVAILABLE"
  | configInvalid => "PROVISION_CONFIG_INVALID"

/-- The reason that a word stands for. -/
def ofWord? (w : String) : Option ProvisionKind := all.find? fun k => k.word == w

end ProvisionKind

/-- A container that could not be stopped. -/
structure StopFailure where
  name : String
  containerId : String
  error : String
  deriving Repr, DecidableEq

/-- A stop failure as a JSON object. -/
def StopFailure.toJson (f : StopFailure) : Json :=
  .obj [("name", .str f.name), ("container_id", .str f.containerId), ("error", .str f.error)]

/-- What went wrong in the test environment. -/
inductive Cause where
  | alreadyInitialized (phase : Option String)
  | invalidTransition (source target : Option String)
  | provision (kind : ProvisionKind) (service : Option String)
  | teardown (failures : List StopFailure)
  | registryUsage (key state : Option String)
  | runtime
  | token
  | general
  deriving Repr, DecidableEq

namespace Cause

/-- The name under which errors of this cause are reported. -/
def name : Cause → String
  | alreadyInitialized _ => "AlreadyInitializedError"
  | invalidTransition .. => "InvalidPhaseTransition"
  | provision .. => "ProvisionError"
  | teardown _ => "TeardownError"
  | registryUsage .. => "RegistryUsageError"
  | runtime => "RuntimeBridgeError"
  | token => "TokenAcquisitionError"
  | general => "TestEnvironmentError"

/-- The message of the cause on its own. -/
def standing : Cause → String
  | alreadyInitialized _ => "Test environment setup has already been called"
  | invalidTransition .. => "Invalid lifecycle phase transition"
  | provision .. => "Failed to provision container"
  | teardown _ => "Failed to stop one or more containers"
  | registryUsage .. => "Registry accessed outside the ready phase"
  | runtime => "Background runtime is not available"
  | token => "Failed to obtain authorization token"
  | general => "Test environment error"

/-- The code of the cause on its own. -/
def standingCode : Cause → String
  | alreadyInitialized _ => "ALREADY_INITIALIZED"
  | invalidTransition .. => "INVALID_PHASE_TRANSITION"
  | provision .. => "PROVISION_FAILED"
  | teardown _ => "PARTIAL_STOP_FAILURE"
  | registryUsage .. => "REGISTRY_USAGE_ERROR"
  | runtime => "RUNTIME_BRIDGE_ERROR"
  | token => "TOKEN_ACQUISITION_FAILED"
  | general => "TEST_ENVIRONMENT_ERROR"

/-- The message that the particulars of the cause call for. -/
def message : Cause → String
  | invalidTransition (some a) (some b) =>
    if a.isEmpty || b.isEmpty then standing (invalidTransition none none)
    else s!"Cannot transition from '{a}' to '{b}'"
  | teardown (f :: fs) =>
    let names := ", ".intercalate ((f :: fs).map StopFailure.name)
    s!"Failed to stop {(f :: fs).length} container(s): {names}"
  | c => c.standing

/-- The code that the particulars of the cause call for. -/
def code : Cause → String
  | provision kind _ => kind.code
  | c => c.standingCode

/-- The particulars of the cause. -/
def particulars : Cause → List (String × Json)
  | alreadyInitialized phase => optional "phase" phase
  | invalidTransition source target => optional "from_phase" source ++ optional "to_phase" target
  | provision kind service => ("kind", .str kind.word) :: optional "service_kind" service
  | teardown failures => [("failures", .arr (failures.map StopFailure.toJson))]
  | registryUsage key state => optional "key" key ++ optional "state" state
  | runtime | token | general => []
where
  optional (key : String) : Option String → List (String × Json)
    | some v => [(key, .str v)]
    | none => []

end Cause

/-- An error of the test environment.  An empty message or code counts as the standing one of the
cause; `extra` are details beside the particulars of the cause. -/
structure EnvironmentError where
  cause : Cause
  message? : Option String := none
  code? : Option String := none
  extra : List (String × Json) := []
  deriving Repr

namespace EnvironmentError

/-- The reported message. -/
def message (e : EnvironmentError) : String :=
  match e.message? with
  | none => e.cause.message
  | some m => if m.isEmpty then e.cause.standing else m

/-- The reported code. -/
def code (e : EnvironmentError) : String :=
  match e.code? with
  | none => e.cause.code
  | some c => if c.isEmpty then e.cause.standingCode else c

/-- The reported details; the particulars of the cause win over others of the same name. -/
def details (e : EnvironmentError) : List (String × Json) :=
  e.cause.particulars.foldl (fun fs p => Json.setField p.1 p.2 fs) e.extra

/-- The error with one more detail. -/
def withDetail (e : EnvironmentError) (key : String) (value : Json) : EnvironmentError :=
  { e with extra := Json.setField key value e.extra }

/-- The error as a JSON object, with its details if there are any. -/
def toJson (e : EnvironmentError) : Json :=
  .obj ([("code", .str e.code), ("message", .str e.message)] ++
    (if e.details.isEmpty then [] else [("details", .obj e.details)]))

end EnvironmentError
end Testbed

import Testbed.Redaction.Sanitize
import Testbed.Service

/-!
# Provisioning problems

Why a container could not be started, with the kind and the message of each problem.
-/

namespace Testbed
namespace Provisioner

/-- A step of starting a container that the engine may refuse. -/
inductive Step where
  | network (name : String)
  | create (service : Service)
  | copy (service : Service)
  | start (service : Service)
  | port (service : Service) (port : Nat)
  deriving Repr, DecidableEq

namespace Step

/-- The service that the step is for. -/
def service? : Step → Option Service
  | network _ => none
  | create s | copy s | start s | port s _ => some s

/-- What the step does to the container. -/
def action : Step → String
  | network name => s!"create network {name} for"
  | create _ => "create"
  | copy _ => "copy realm file into"
  | start _ => "start"
  | port _ n => s!"resolve port {n} of"

/-- The step in words. -/
def words (s : Step) : String :=
  match s.service? with
  | some service => s!"{s.action} {service.word} container"
  | none => s!"{s.action} container"

end Step

/-- Why a container could not be started. -/
inductive Problem where
  | unsupported (typeName : String)
  | unresolved (service : Service) (what path : String) (cause : Fault)
  | noDirectory (service : Service) (path : String)
  | unreadable (service : Service) (path : String) (cause : Fault)
  | unreachable
  | refused (step : Step) (cause : Fault)
  | noImage (service : Service) (image : String) (cause : Fault)
  deriving Repr

namespace Problem

/-- The kind of a problem. -/
def kind : Problem → ProvisionKind
  | unreachable | refused .. => .engineUnavailable
  | _ => .configInvalid

/-- The service that the problem is about. -/
def service? : Problem → Option Service
  | unsupported _ | unreachable => none
  | unresolved s .. | noDirectory s _ | unreadable s .. | noImage s .. => some s
  | refused step _ => step.service?

/-- The message of a problem. -/
def message : Problem → String
  | unsupported t => s!"Unsupported service configuration: {t}"
  | unresolved _ what path cause => s!"Failed to resolve {what} {path}: {cause.text}"
  | noDirectory _ path => s!"Init scripts path is not a directory: {path}"
  | unreadable _ path cause => s!"Cannot read realm file {path}: {cause.text}"
  | unreachable => "Container engine is not reachable"
  | refused step cause => s!"Failed to {step.words}: {cause.sanitize}"
  | noImage s image cause => s!"Image {image} for {s.word} not found: {cause.sanitize}"

/-- Details beside kind and service. -/
def details : Problem → List (String × Json)
  | noImage _ image _ => [("image", .str image)]
  | _ => []

/-- The error that reports a problem. -/
def fault (p : Problem) : Fault :=
  .environment {
    cause := .provision p.kind (p.service?.map Service.word)
    message? := some p.message
    extra := p.details }

end Problem
end Provisioner
end Testbed

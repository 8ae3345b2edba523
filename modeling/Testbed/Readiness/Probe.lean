import Testbed.Client.Operations
import Testbed.Readiness.Deadline
import Testbed.Readiness.Poll
import Testbed.Redaction.Sanitize
import Testbed.Uri.Redacted
import Testbed.Uri.Web

/-!
# Probes

Probes that tell whether a service accepts work, and waiting for one of them to answer yes.
-/

namespace Testbed
namespace Readiness

/-- A web page is requested; a refused address is an error of its own. -/
def requestable (url : String) : Work String :=
  Work.ofExcept ((Web.normal url).mapError fun p => .of .invalidUrl p.message)

/-- The probe that a web page answers with an expected status. -/
def pageAnswers (url : String) (expected : Int := 200) : Work Bool := do
  Work.handle (fun f => f.isA Fault.Kind.isHttp)
    (do
      let target ← requestable url
      let response ← ExceptT.mk (Program.perform (Call.fetch target))
      pure (response.status == expected))
    fun f => do
      Work.log Level.debug s!"Health check {url} failed: {f.text}"
      pure false

/-- An error that means that a database does not accept connections yet. -/
def notAccepting (f : Fault) : Bool :=
  f.isA fun k => k.isOs || k.isDatabase

/-- The probe that a database accepts a connection and answers a query. -/
def databaseAccepts (dsn : String) : Work Bool := do
  let connection : Option Connection ← Work.handle notAccepting
    (do pure (some (← ExceptT.mk (Program.perform (Call.connect dsn)))))
    fun f => do
      let shown ← Work.ofExcept ((Uri.redact dsn).mapError Client.uriFault)
      Work.log Level.debug s!"PostgreSQL at {shown} not ready: {f.sanitize}"
      pure none
  match connection with
  | none => pure false
  | some c =>
    Work.andFinally
      (do
        let value ← ExceptT.mk (Program.perform (Call.query c))
        pure (Json.same value (.int 1)))
      (ExceptT.mk (Program.perform (Call.disconnect c)))

/-- The probe that a port accepts a connection. -/
def portOpen (host : String) (port : Int) : Work Bool := do
  let socket : Option Socket ← Work.handle (fun f => f.isA Fault.Kind.isOs)
    (do pure (some (← ExceptT.mk (Program.perform (Call.dial host port)))))
    fun _ => pure none
  match socket with
  | none => pure false
  | some s => do
    ExceptT.mk (Program.perform (Call.hangUp s))
    pure true

/-- The probe that a container has logged a text often enough. -/
def logContains (id needle : String) (occurrences : Int := 1) : Work Bool := do
  match ← Client.containerLogs id with
  | none => pure false
  | some logs => pure (occurrences ≤ (Text.count needle.toList logs.toList : Int))

/-- The probe that follows a script. -/
def scripted : Work Bool := do
  let a : Attempt ← Work.ask .attempt
  if let some t := a.delay then
    let now : Float ← Work.ask .now
    ExceptT.mk (Program.perform (Call.waitUntil (if 0.0 < t then now + t else now)))
  if a.hangs then ExceptT.mk (Program.perform Call.hang)
  Work.ofExcept a.answer

/-- What polling asks of the world. -/
def surroundings (probe : Work Bool) :
    Surroundings (ExceptT Fault (Program Call Call.Reply)) Float where
  now := Work.ask .now
  pause t := ExceptT.mk (Program.perform (Call.pause t))
  draw := Work.ask .draw
  attempt bound := within bound probe
  log := Work.log

/-- Polls a probe until it answers yes; the delays are those given, or those of the process. -/
def await (probe : Work Bool) (timeout : Seconds) (description : String)
    (service : Option String := none) (initialDelay maxDelay : Option Float := none) :
    Work Nat := do
  let settings ← ExceptT.mk (Program.perform Call.processSettings)
  let plan : Plan Float := {
    timeout := timeout.toFloat
    initialDelay := initialDelay.getD settings.readinessInitialDelay
    maxDelay := maxDelay.getD settings.readinessMaxDelay
    description := description }
  match ← poll Timescale.float (surroundings probe) plan (attemptBound plan) with
  | .ready n => pure n
  | .timedOut n last => throw (.environment (notReady description timeout service n last))

end Readiness
end Testbed

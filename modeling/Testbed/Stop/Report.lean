import Testbed.Fault.Cause

/-!
# Teardown reports

Which containers were stopped and which could not be.
-/

namespace Testbed

/-- The outcome of stopping containers. -/
structure TeardownReport where
  stopped : List String := []
  failures : List StopFailure := []
  deriving Repr, DecidableEq

namespace TeardownReport

/-- All containers were stopped. -/
def ok (r : TeardownReport) : Bool := r.failures.isEmpty

/-- The report followed by another. -/
def append (a b : TeardownReport) : TeardownReport :=
  ⟨a.stopped ++ b.stopped, a.failures ++ b.failures⟩

/-- The report as a JSON object. -/
def toJson (r : TeardownReport) : Json :=
  .obj [("ok", .bool r.ok), ("stopped", .texts r.stopped),
    ("failures", .arr (r.failures.map StopFailure.toJson))]

end TeardownReport
end Testbed

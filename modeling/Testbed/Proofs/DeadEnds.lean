import Testbed.Proofs.Execution
import Testbed.Proofs.Paths
import Testbed.Proofs.Provisioner

/-!
# Paths that lead nowhere

A service whose path leads nowhere is not started: the engine is not asked for anything and nothing
is recorded.  What the start raises depends on why the path leads nowhere.  A path that the
operating system refuses is reported as a faulty configuration; a link that loops and a null
character are raised as they are.
-/

namespace Testbed

/-- The path that a configuration gives. -/
def ServiceConfig.path? : ServiceConfig → Option String
  | postgres c => c.initScripts
  | keycloak c => some c.realmFile
  | unsupported _ => none

namespace Files

/-- What a service needs stands where a path leads: a directory of scripts, or a file to read. -/
def Offers (fs : Files) (path : String) : Service → Prop
  | .postgres => ∃ q, fs.Leads path (.ok q) ∧ fs.isDirectory q = true
  | .keycloak => ∃ q content, fs.Leads path (.ok q) ∧ fs.read q = .ok content

end Files

namespace DeadEnd

variable {fs : Files} {service : Service} {path : String} {es : List Exchange} {f : Fault}
  {e : Files.Problem} {q : Files.Place}

end DeadEnd

namespace Provisioner

variable {w : World} {path : String} {e : Files.Problem} {q : Files.Place}

end Provisioner
end Testbed

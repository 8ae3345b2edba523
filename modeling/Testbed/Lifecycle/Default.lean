import Testbed.Lifecycle.Schedule
import Testbed.Registry.Operation

/-!
# The default environment

The environment of a test run, made when it is first needed and bound to the shared registry, and
what tests are given of it: a test that needs what the environment does not have is skipped.
-/

namespace Testbed

/-- The default environment, if it has been made, and the world it is or will be in. -/
structure DefaultEnvironment where
  world : World
  current : Option Lifecycle := none
  /-- The shared registry has been made. -/
  registryMade : Bool := false

namespace DefaultEnvironment

/-- The environment, made if it is not there; its settings are those of the process. -/
def obtain (e : DefaultEnvironment) : Except Fault Lifecycle × DefaultEnvironment :=
  match e.current with
  | some l => (.ok l, e)
  | none =>
    match e.world.process with
    | .error f => (.error f, e)
    | .ok settings =>
      let made := Registries.madeShared
      let w := if e.registryMade then e.world else e.world.say made.level made.text
      let l := Lifecycle.create w settings false
      (.ok l, { world := l.world, current := some l, registryMade := true })

/-- The default environment with a changed state. -/
def put (e : DefaultEnvironment) (l : Lifecycle) : DefaultEnvironment :=
  { e with current := some l, world := l.world }

/-- The environment and the shared registry are dropped. -/
def reset (e : DefaultEnvironment) : DefaultEnvironment :=
  { world := { e.world with toHoldings := {}, registry := {} } }

/-- The answer to a setup: logging is set up first, from the settings of the process. -/
def setup (e : DefaultEnvironment) (plan : Lifecycle → Plan) :
    Except Fault Result × DefaultEnvironment :=
  match e.obtain with
  | (.error f, e) => (.error f, e)
  | (.ok l, e) =>
    let (r, l) := l.run (.setup (plan l))
    (r, e.put l)

/-- The answer to a teardown; an environment that was never made has nothing to tear down. -/
def teardown (e : DefaultEnvironment) (strict : Bool) : Except Fault Result × DefaultEnvironment :=
  match e.current with
  | none => (.ok (.report {}), e)
  | some l =>
    let (r, l) := l.run (.teardown strict)
    (r, e.put l)

/-! ## What tests are given -/

/-- The error of a test that needs an environment where there is none. -/
def absent : Fault := .of .skipped "No test environment has been set up"

/-- The error of a test whose environment is not available. -/
def unavailable (p : Phase) : Fault :=
  .of .failed s!"Test environment is not available (phase: {p.word})"

/-- The environment, once it is ready. -/
def readyEnvironment (e : DefaultEnvironment) : Except Fault Lifecycle × DefaultEnvironment :=
  match e.current with
  | none => (.error absent, e)
  | some l =>
    if l.phase = .uninitialized then (.error absent, e)
    else
      let (r, l) := l.run (.await false)
      match r with
      | .ok (.flag true) => (.ok l, e.put l)
      | _ => (.error (unavailable l.phase), e.put l)

end DefaultEnvironment
end Testbed

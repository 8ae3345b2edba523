import Testbed.Lifecycle.State
import Testbed.Script.Values
import Testbed.Token

/-!
# Scenarios

The two parts of a setup as scripts of actions.  Every action is traced with its outcome; an error
ends the script unless the action says that it is caught.
-/

namespace Testbed
namespace Script

/-- What a script has made: the settings and the handles by name. -/
structure Scene where
  settings : EnvironmentSettings
  handles : List (String × Handle) := []

namespace Scene

/-- The handle that an action names. -/
def handle (s : Scene) (a : Json) : Work Handle :=
  let name := a.textAt "handle"
  match Json.lookup name s.handles with
  | some h => pure h
  | none => throw (.of .key name)

/-- The scene with a handle under the name that an action gives it. -/
def keep (s : Scene) (a : Json) (h : Handle) : Scene :=
  { s with handles := Json.setField (a.textAt "as" "h") h s.handles }

/-- The URI of an action: given, or that of a handle. -/
def uri (s : Scene) (a : Json) : Work String :=
  match a.textAt? "uri" with
  | some u => pure u
  | none => do pure (← s.handle a).uri

end Scene

/-- The world does something for an action that has nothing to show. -/
def quietly (s : Scene) (body : Work Unit) : Work (Sight × Scene) := do
  body
  pure (.json .null, s)

/-- An action that changes the settings. -/
def changing (s : Scene) (r : Except Fault EnvironmentSettings) : Work (Sight × Scene) := do
  let settings ← Work.ofExcept r
  pure (.json .null, { s with settings := settings })

/-- The number of seconds of an action. -/
def pauseOf (a : Json) : Float :=
  (((a.get? "seconds").bind Seconds.ofJson?).map Seconds.toFloat).getD 0.0

/-- The starting of a container for an action. -/
def startContainer (p : Provisioner) (s : Scene) (a : Json) : Work (Sight × Scene) := do
  let h ← p.startService (ServiceConfig.ofJson ((a.get? "config").getD .null))
  pure (.handle h, s.keep a h)

/-- The making of a handle for an action. -/
def makeHandle (s : Scene) (a : Json) : Work (Sight × Scene) := do
  let identity : Nat ← Work.ask .newIdentity
  let h ← Work.ofExcept (handle identity a)
  pure (.json .null, s.keep a h)

/-- The use of a capability for an action. -/
def useHandle (s : Scene) (a : Json) : Work (Sight × Scene) := do
  match (← s.handle a).stop with
  | some c => quietly s c.use
  | none => throw (.of .wrongType "'NoneType' object is not callable")

/-- The storing of a value for an action. -/
def storeValue (s : Scene) (a : Json) : Work (Sight × Scene) := do
  let identity : Nat ← Work.ask .newIdentity
  let value ← Work.ofExcept (entry identity ((a.get? "value").getD .null))
  quietly s (ExceptT.mk (Program.perform (Call.store (a.textAt "key") value)))

/-- What is seen of a registry entry. -/
def sightOf : Option Entry → Sight
  | none => .json .null
  | some (.json j) => .json j
  | some (.handle h) => .handle h
  | some (.settings s) => .settings s

/-- What is seen of phase, registry state and ledger. -/
def observe (s : Scene) : Work (Sight × Scene) := do
  let (phase, state, names) : Phase × RegistryState × List String ← Work.ask .observe
  pure (.json (.arr [.str phase.word, .str state.word, .texts names]), s)

/-- An action. -/
def act (p : Provisioner) (s : Scene) (a : Json) : Work (Sight × Scene) :=
  match a.textAt "do" with
  | "start_postgres" | "start_keycloak" | "start_service" => startContainer p s a
  | "make_handle" => makeHandle s a
  | "record" => do
    match (← s.handle a).stop with
    | some c => quietly s (Work.ask (.record c))
    | none => quietly s (pure ())
  | "invoke" => useHandle s a
  | "apply_postgres" => do changing s (s.settings.applyDatabase (← s.uri a))
  | "apply_keycloak" => do changing s (s.settings.applyProvider (← s.uri a) (a.textAt "realm"))
  | "set" => changing s (s.settings.assign (a.textAt "field") ((a.get? "value").getD .null))
  | "raise" => throw (fault a)
  | "hang" => quietly s (ExceptT.mk (Program.perform Call.hang))
  | "gate" => quietly s (ExceptT.mk (Program.perform Call.waitForGate))
  | "sleep" => quietly s (ExceptT.mk (Program.perform (Call.pause (pauseOf a))))
  | "nested" => throw Background.deadlock
  | "shutdown_bridge" => quietly s (Work.ask .shutdownRuntime)
  | "registry_set" => storeValue s a
  | "registry_get" => do
    let found : Option Entry ← ExceptT.mk (Program.perform (Call.load (a.textAt "key")))
    pure (sightOf found, s)
  | "default_post_init" => quietly s (Token.obtain s.settings)
  | "settings" => pure (.settings s.settings, s)
  | _ => observe s

/-- An action, traced with its outcome. -/
def traced (p : Provisioner) (s : Scene) (a : Json) : Work Scene :=
  tryCatch
    (do
      let (sight, s) ← act p s a
      Work.ask (.trace (.ok sight))
      pure s)
    fun f => do
      Work.ask (.trace (.error f))
      if a.flagAt "catch" && !f.isCancelled then pure s else throw f

/-- The actions of a script, one after another. -/
def play (p : Provisioner) : Scene → List Json → Work Scene
  | s, [] => pure s
  | s, a :: rest => do play p (← traced p s a) rest

/-- The handles that a script hands over: those it names, or all. -/
def handedOver (s : Scene) (j : Json) : Work (List Handle) :=
  match j.given? "return" with
  | none => pure (s.handles.map Prod.snd)
  | some names => names.items.mapM fun n => s.handle (.obj [("handle", n)])

/-- The settings that a script hands over. -/
def delivered (s : Scene) (j : Json) : Delivered :=
  match j.textAt "returns" "env" with
  | "frozen" => .settings s.settings.freeze
  | "dict" => .other "dict"
  | "none" => .other "NoneType"
  | "str" => .other "str"
  | _ => .settings s.settings

/-- The first part of a setup. -/
def init (j : Json) (p : Provisioner) : Work Delivery := do
  let settings ← Work.ofExcept
    (EnvironmentSettings.ofFields false (((j.get? "settings").map Json.fields).getD []))
  let s ← play p { settings := settings } (j.listAt "actions")
  let handles ← handedOver s j
  pure ⟨handles, delivered s j⟩

/-- The second part of a setup. -/
def after (p : Provisioner) (actions : List Json) (settings : EnvironmentSettings) : Work Unit := do
  let _ ← play p { settings := settings } actions
  pure ()

/-- The plan of a setup for an environment. -/
def plan (j : Json) (l : Lifecycle) : Plan where
  init := init ((j.get? "init").getD .null)
  after := (j.given? "post_init").map fun actions => after ⟨l.session, l.settings⟩ actions.items

end Script
end Testbed

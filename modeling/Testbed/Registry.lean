import Testbed.Environment.Settings
import Testbed.Stop.Capability

/-!
# The registry

A key-value store whose state gates access: entries are written while it is open and read while it
is sealed; a draining or cleared registry refuses both.  The state only moves forward.
-/

namespace Testbed

/-- The access state of a registry. -/
inductive RegistryState where
  | opened
  | sealed
  | draining
  | cleared
  deriving Repr, DecidableEq

/-- The word for a state. -/
def RegistryState.word : RegistryState → String
  | opened => "open"
  | sealed => "sealed"
  | draining => "draining"
  | cleared => "cleared"

/-- A value of the registry. -/
inductive Entry where
  | json (j : Json)
  | handle (h : Handle)
  | settings (s : EnvironmentSettings)
  deriving Repr

/-- The store and its state. -/
structure Registry where
  state : RegistryState := .opened
  entries : List (String × Entry) := []
  deriving Repr

namespace Registry

/-- The key of the settings. -/
def settingsKey : String := "settings"

/-- The key of the authorization token. -/
def tokenKey : String := "token"

/-- An error about the use of the registry. -/
def usage (message : String) (key state : Option String) : Fault :=
  .environment { cause := .registryUsage key state, message? := some message }

/-- The order of keys: by code point. -/
def keyLe (a b : String) : Bool := !(b < a)

/-! ## Operations -/

/-- Stores a value while the registry is open. -/
def set (r : Registry) (key : String) (value : Entry) : Except Fault Registry :=
  match r.state with
  | .opened => .ok { r with entries := Json.setField key value r.entries }
  | s => .error (usage s!"Cannot write '{key}': registry is {s.word}" (some key) (some s.word))

/-- Lets a read pass while the registry is sealed. -/
def requireSealed (r : Registry) (key : Option String) : Except Fault Unit :=
  match r.state with
  | .sealed => .ok ()
  | s =>
    let what := match key with
      | some k => if k.isEmpty then "registry" else s!"'{k}'"
      | none => "registry"
    .error (usage s!"Cannot read {what}: registry is {s.word}" key (some s.word))

/-- The value of a key. -/
def get (r : Registry) (key : String) : Except Fault (Option Entry) := do
  r.requireSealed (some key)
  .ok (Json.lookup key r.entries)

/-- Makes the entries readable and immutable. -/
def sealEntries (r : Registry) : Except Fault Registry :=
  match r.state with
  | .opened => .ok { r with state := .sealed }
  | s => .error (usage s!"Cannot seal a {s.word} registry" none (some s.word))

/-- Refuses all access from now on; a cleared registry stays cleared. -/
def beginDrain (r : Registry) : Registry :=
  match r.state with
  | .cleared => r
  | _ => { r with state := .draining }

/-- Releases all entries. -/
def clear (_ : Registry) : Registry := ⟨.cleared, []⟩

/-- The keys in order. -/
def keys (r : Registry) : Except Fault (List String) := do
  r.requireSealed none
  .ok ((r.entries.map Prod.fst).mergeSort keyLe)

/-! ## Typed reads -/

/-- The token; a value that is no text counts as none. -/
def token (r : Registry) : Except Fault String := do
  match ← r.get tokenKey with
  | some (.json (.str s)) => .ok s
  | _ => .ok ""

/-- An entry that was published; null counts as none. -/
def present : Option Entry → Option Entry
  | some (.json .null) => none
  | e => e

/-- The settings that setup resolved. -/
def settings (r : Registry) : Except Fault Entry := do
  match present (← r.get settingsKey) with
  | some e => .ok e
  | none => .error (usage "No settings were published" (some settingsKey) none)

/-- The registry key of a service given by its word. -/
def containerKey (kind : Json) : Except Fault String :=
  match kind.str?.bind Service.ofWord? with
  | some s => .ok s.key
  | none => .error (.of .value s!"{kind.displayInner} is not a valid ServiceKind")

/-- The container that provides a service. -/
def container (r : Registry) (kind : Json) : Except Fault Entry := do
  let key ← containerKey kind
  match present (← r.get key) with
  | some e => .ok e
  | none => .error (usage s!"No container registered for '{kind.display}'" (some key) none)

/-- The name of an entry's type in a report. -/
def typeWord : Entry → String
  | .json j => Issue.typeWord j
  | .handle _ => "ContainerHandle"
  | .settings s => s.title

/-- The connection URI of the container that provides a service. -/
def containerUri (r : Registry) (kind : Json) : Except Fault String := do
  match ← r.container kind with
  | .handle h => .ok h.uri
  | e => .error (.of .missingAttribute
      s!"'{typeWord e}' object has no attribute 'connection_uri'")

/-! ## Log texts -/

/-- The log text of a stored value. -/
def stored : String := "Registry entry set"

/-- The log text of sealing. -/
def sealedNotice : String := "Registry sealed"

/-- The log text of draining. -/
def drainingNotice : String := "Registry draining"

/-- The log text of clearing. -/
def clearedNotice : String := "Registry cleared"

end Registry
end Testbed

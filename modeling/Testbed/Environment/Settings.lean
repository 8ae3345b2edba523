import Testbed.Fault.Basic
import Testbed.Text.Blank

/-!
# Environment settings

The endpoints and credentials that setup resolves for the code under test.  They are mutable while
containers start; `freeze` makes the read-only copy that is published.  `assign` and `setExtra`
refuse what a frozen copy refuses.
-/

namespace Testbed

/-- The settings of the code under test. -/
structure EnvironmentSettings where
  databaseUrl : Option String := none
  discoveryUrl : Option String := none
  tokenUrl : Option String := none
  clientId : Option String := none
  clientSecret : Option String := none
  username : Option String := none
  password : Option String := none
  scope : String := "openid"
  extra : List (String × Json) := []
  frozen : Bool := false
  deriving Repr

namespace EnvironmentSettings

/-- The name of the record in reports. -/
def title (s : EnvironmentSettings) : String :=
  if s.frozen then "FrozenEnvironmentSettings" else "EnvironmentSettings"

/-- The names of the fields. -/
def fieldNames : List String :=
  ["database_url", "oauth2_discovery_url", "oauth2_token_url", "oauth2_client_id",
    "oauth2_client_secret", "oauth2_username", "oauth2_password", "oauth2_scope", "extra"]

/-- The settings with an optional text field replaced. -/
def putText (s : EnvironmentSettings) (field : String) (v : Option String) : EnvironmentSettings :=
  match field with
  | "database_url" => { s with databaseUrl := v }
  | "oauth2_discovery_url" => { s with discoveryUrl := v }
  | "oauth2_token_url" => { s with tokenUrl := v }
  | "oauth2_client_id" => { s with clientId := v }
  | "oauth2_client_secret" => { s with clientSecret := v }
  | "oauth2_username" => { s with username := v }
  | "oauth2_password" => { s with password := v }
  | _ => s

/-- The settings with a field replaced by a value of its type. -/
def put (s : EnvironmentSettings) (field : String) (value : Json) :
    Except Flaw EnvironmentSettings :=
  match field, value with
  | "extra", .obj fields => .ok { s with extra := fields }
  | "extra", _ => .error .dictionaryExpected
  | "oauth2_scope", .str v => .ok { s with scope := v }
  | "oauth2_scope", _ => .error .textExpected
  | _, .null => .ok (s.putText field none)
  | _, .str v => .ok (s.putText field (some v))
  | _, _ => .error .textExpected

/-- The settings that named values describe; issues come in the order of the fields, then those
of unknown names. -/
def ofFields (frozen : Bool) (values : List (String × Json)) : Except Fault EnvironmentSettings :=
  let start : EnvironmentSettings := { frozen := frozen }
  let (settings, issues) := fieldNames.foldl
    (fun (acc : EnvironmentSettings × List Issue) field =>
      match Json.lookup field values with
      | none => acc
      | some v =>
        match acc.1.put field v with
        | .ok s => (s, acc.2)
        | .error flaw => (acc.1, acc.2 ++ [⟨field, flaw, v⟩]))
    (start, [])
  let unknown := (values.filter fun v => !fieldNames.contains v.1).map fun v =>
    Issue.mk v.1 .unknownName v.2
  match issues ++ unknown with
  | [] => .ok settings
  | found => .error (.invalid start.title found)

/-- The settings with a field assigned. -/
def assign (s : EnvironmentSettings) (field : String) (value : Json) :
    Except Fault EnvironmentSettings :=
  let refuse (flaw : Flaw) : Except Fault EnvironmentSettings :=
    .error (.invalid s.title [⟨field, flaw, value⟩])
  if s.frozen then refuse .frozen
  else if fieldNames.contains field then
    match s.put field value with
    | .ok s => .ok s
    | .error flaw => refuse flaw
  else refuse (.noSuchAttribute field)

/-- The read-only copy. -/
def freeze (s : EnvironmentSettings) : EnvironmentSettings := { s with frozen := true }

/-- The fields by name. -/
def fields (s : EnvironmentSettings) : List (String × Json) := [
  ("database_url", .ofText? s.databaseUrl), ("oauth2_discovery_url", .ofText? s.discoveryUrl),
  ("oauth2_token_url", .ofText? s.tokenUrl), ("oauth2_client_id", .ofText? s.clientId),
  ("oauth2_client_secret", .ofText? s.clientSecret), ("oauth2_username", .ofText? s.username),
  ("oauth2_password", .ofText? s.password), ("oauth2_scope", .str s.scope),
  ("extra", .obj s.extra)]

/-- Equality of settings, which tells a frozen copy from a mutable one. -/
def same (a b : EnvironmentSettings) : Bool :=
  a.frozen == b.frozen && Json.same (.obj a.fields) (.obj b.fields)

/-! ## Free-form values -/

/-- The error of changing the free-form values of a frozen copy. -/
def readOnly (change : String) : Fault :=
  .of .wrongType s!"'mappingproxy' object does not support item {change}"

/-- The settings with a free-form value set. -/
def setExtra (s : EnvironmentSettings) (key : String) (value : Json) :
    Except Fault EnvironmentSettings :=
  if s.frozen then .error (readOnly "assignment")
  else .ok { s with extra := Json.setField key value s.extra }

/-- The settings without a free-form value. -/
def removeExtra (s : EnvironmentSettings) (key : String) : Except Fault EnvironmentSettings :=
  if s.frozen then .error (readOnly "deletion")
  else if (Json.lookup key s.extra).isNone then .error (.of .key key)
  else .ok { s with extra := s.extra.filter fun f => f.1 != key }

/-- The settings with a value set inside a free-form value, frozen or not. -/
def setNested (s : EnvironmentSettings) (key inner : String) (value : Json) :
    Except Fault EnvironmentSettings :=
  match Json.lookup key s.extra with
  | none => .error (.of .key key)
  | some (.obj fields) =>
    .ok { s with extra := Json.setField key (.obj (Json.setField inner value fields)) s.extra }
  | some (.arr _) => .error (.of .wrongType "list indices must be integers or slices, not str")
  | some other =>
    .error (.of .wrongType s!"'{Issue.typeWord other}' object does not support item assignment")

/-! ## Endpoints -/

/-- The settings with the database of a container; an empty URI changes nothing. -/
def applyDatabase (s : EnvironmentSettings) (uri : String) : Except Fault EnvironmentSettings :=
  if uri.isEmpty then .ok s else s.assign "database_url" (.str uri)

/-- The text without slashes at its end. -/
def dropSlashes (uri : String) : String :=
  String.ofList (Text.trimRight (· == '/') uri.toList)

/-- The settings with the endpoints of an identity provider; an empty URI changes nothing. -/
def applyProvider (s : EnvironmentSettings) (uri realm : String) :
    Except Fault EnvironmentSettings :=
  if uri.isEmpty then .ok s
  else do
    let base := s!"{dropSlashes uri}/realms/{realm}"
    let s ← s.assign "oauth2_discovery_url" (.str s!"{base}/.well-known/openid-configuration")
    s.assign "oauth2_token_url" (.str s!"{base}/protocol/openid-connect/token")

end EnvironmentSettings
end Testbed

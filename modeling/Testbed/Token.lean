import Testbed.Readiness.Probe

/-!
# Authorization tokens

A token is requested from the identity provider with the credentials of the settings.  After setup
the token is stored in the registry; a failed request stores the empty text and fails nothing.
-/

namespace Testbed
namespace Token

/-- An error about a token. -/
def failure (message : String) : Fault :=
  .environment { cause := .token, message? := some message }

/-- The fields of a token request. -/
def form (s : EnvironmentSettings) : List (String × String) := [
  ("grant_type", "password"), ("username", s.username.getD ""), ("password", s.password.getD ""),
  ("client_id", s.clientId.getD ""), ("client_secret", s.clientSecret.getD ""),
  ("scope", s.scope)]

/-- An error of the exchange or of the response's content. -/
def isRequestFault (f : Fault) : Bool :=
  f.isA fun k => k.isHttp || k.isValue

/-- The response to a token request as a JSON value. -/
def exchange (s : EnvironmentSettings) (url : String) : Work Json :=
  Work.handle isRequestFault
    (do
      let target ← Readiness.requestable url
      let response : Response ← ExceptT.mk (Program.perform (Call.post target (Web.form (form s))))
      if response.isSuccess then Work.ofExcept response.json
      else throw (response.statusFault target))
    fun f => throw (failure s!"Token request to {url} failed: {f.sanitize}")

/-- The access token in a response; an empty one counts as missing. -/
def accessToken? (payload : Json) : Option Json :=
  (payload.get? "access_token").filter Json.truthy

/-- Requests a token; without an address there is none. -/
def fetch (s : EnvironmentSettings) : Work String := do
  match s.tokenUrl.filter fun u => !u.isEmpty with
  | none =>
    Work.log Level.warning "No token URL configured, skipping token acquisition"
    pure ""
  | some url =>
    let payload ← exchange s url
    match accessToken? payload with
    | some t => pure s!"Bearer {t.display}"
    | none => throw (failure "Token response did not contain an access_token")

/-- An error about a token. -/
def isTokenFault : Fault → Bool
  | .environment e => e.cause == .token
  | _ => false

/-- Requests a token and stores it in the registry. -/
def obtain (s : EnvironmentSettings) : Work Unit := do
  Work.log Level.info "Getting authorization token ..."
  let token ← Work.handle isTokenFault (fetch s) fun f => do
    Work.log Level.error s!"Failed to obtain authorization token: {f.text}"
    pure ""
  ExceptT.mk (Program.perform (Call.store Registry.tokenKey (.json (.str token))))
  if !token.isEmpty then
    Work.log Level.info s!"Authorization token obtained ({token.length} characters)"

end Token
end Testbed

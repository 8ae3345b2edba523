import Testbed.Proofs.Publication
import Testbed.Proofs.Undisturbed
import Testbed.Token

/-!
# The outcome of a token request

What a token request comes to, and what is stored after setup.  `due` says what should be stored:
the token that the answer grants, or the empty text.  Two handlers stand between the request and
the registry; an error that neither of them catches is raised, and then nothing is stored.  An
address that is refused is such an error.
-/

namespace Testbed

/-- The writes of a run, first one first. -/
def Task.writes (es : List Exchange) : List (String × Entry) :=
  es.filterMap fun e => e.call.write?

namespace Token

/-- The address that tokens are requested from; an empty one counts as none. -/
def address? (s : EnvironmentSettings) : Option String := s.tokenUrl.filter fun u => !u.isEmpty

/-- The answer to a token request in a world, or the error of an address that is refused. -/
def answer (s : EnvironmentSettings) (url : String) (w : World) : Except Fault Response :=
  match Web.normal url with
  | .error p => .error (.of .invalidUrl p.message)
  | .ok target => (w.outside.post target (Web.form (form s))).1

/-- What becomes of the token request in a world; without an address there is none. -/
def requested? (s : EnvironmentSettings) (w : World) : Option (Except Fault Response) :=
  (address? s).map fun url => answer s url w

/-- The token that a success grants with a JSON value. -/
def grantedBy (payload : Json) : String :=
  ((accessToken? payload).map fun t => s!"Bearer {t.display}").getD ""

/-- The token that an answer grants; an answer that is no success with a JSON value grants none. -/
def granted : Except Fault Response → String
  | .error _ => ""
  | .ok r =>
    match r.isSuccess, r.json with
    | true, .ok payload => grantedBy payload
    | _, _ => ""

/-- The token that should be stored. -/
def due (s : EnvironmentSettings) (w : World) : String := ((requested? s w).map granted).getD ""

/-- What is left of an answer once it has been read. -/
inductive Reads (answer : Except Fault Response) : Except Fault Json → Prop where
  | payload {r : Response} {j : Json} (ha : answer = .ok r) (hs : r.isSuccess = true)
      (hj : r.json = .ok j) : Reads answer (.ok j)
  | failed {f : Fault} (none : granted answer = "")
      (error : ∀ f', answer = .error f' → f' = f) (caught : isRequestFault f = true) :
      Reads answer (.error f)
  | escaped {f : Fault} (ha : answer = .error f) (hf : isRequestFault f = false) :
      Reads answer (.error f)

/-- The JSON value of a response, which has to be a success. -/
def checked (r : Response) (url : String) : Except Fault Json :=
  if r.isSuccess then r.json else .error (r.statusFault url)

/-- The request before any error of it is handled. -/
def request (s : EnvironmentSettings) (url : String) : Work Json := do
  let target ← Readiness.requestable url
  let response : Response ← ExceptT.mk (Program.perform (Call.post target (Web.form (form s))))
  if response.isSuccess then Work.ofExcept response.json
  else throw (response.statusFault target)

/-- What is said about a token that has been obtained. -/
def announce (token : String) : Work Unit := do
  if !token.isEmpty then
    Work.log Level.info s!"Authorization token obtained ({token.length} characters)"

/-- The storing of a token that has been fetched. -/
def keep (token : String) : Work Unit := do
  ExceptT.mk (Program.perform (Call.store Registry.tokenKey (.json (.str token))))
  announce token

end Token
end Testbed

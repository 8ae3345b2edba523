import Testbed.Outside.Http

/-!
# The outside

What lies outside the engine: web servers, the token endpoint, databases and sockets.  Each
follows a script of answers, whose last entry repeats, and what was asked is recorded.
-/

namespace Testbed

/-- An open database connection: what its query answers and what querying or closing raises. -/
structure Connection where
  value : Json := .int 1
  fetchFault : Option Fault := none
  closeFault : Option Fault := none
  deriving Repr

/-- An open socket: what closing it raises. -/
structure Socket where
  closeFault : Option Fault := none
  deriving Repr

/-- An attempt of a scripted probe: how long it takes, whether it never ends, and how it answers
otherwise. -/
structure Attempt where
  delay : Option Float := none
  hangs : Bool := false
  answer : Except Fault Bool := .ok true

/-- Scripts of answers and the record of requests. -/
structure Outside where
  http : List (Except Fault Response) := []
  token : List (Except Fault Response) := []
  database : List (Except Fault Connection) := []
  sockets : List (Except Fault Socket) := []
  attempts : List Attempt := []
  traffic : List Json := []

namespace Outside

/-- The next entry of a script and the script after it; the last entry repeats. -/
def next {α : Type} (default : α) : List α → α × List α
  | [] => (default, [])
  | [x] => (x, [x])
  | x :: y :: rest => (x, y :: rest)

/-- The answer of the token endpoint without a script. -/
def standardToken : Response where
  body := Text.utf8 "\x7b\"access_token\": \"tok\"\x7d"

/-- The outside with a request recorded. -/
def note (o : Outside) (entry : List Json) : Outside :=
  { o with traffic := o.traffic ++ [.arr entry] }

/-- A web request for a page. -/
def fetch (o : Outside) (url : String) : Except Fault Response × Outside :=
  let (answer, rest) := next (.ok {}) o.http
  (answer, { o with http := rest }.note [.str "GET", .str url])

/-- The type of a form's content. -/
def formType : String := "application/x-www-form-urlencoded"

/-- A web request that sends a form. -/
def post (o : Outside) (url body : String) : Except Fault Response × Outside :=
  let (answer, rest) := next (.ok standardToken) o.token
  (answer, { o with token := rest }.note [.str "POST", .str url, .str formType, .str body])

/-- The opening of a database connection. -/
def connect (o : Outside) (dsn : String) : Except Fault Connection × Outside :=
  let (answer, rest) := next (.ok {}) o.database
  (answer, { o with database := rest }.note [.str "connect", .str dsn])

/-- The query that shows that a database answers. -/
def query (o : Outside) (c : Connection) : Except Fault Json × Outside :=
  ((match c.fetchFault with
    | some f => .error f
    | none => .ok c.value), o.note [.str "fetchval", .str "SELECT 1"])

/-- The end of a database connection. -/
def disconnect (o : Outside) (c : Connection) : Except Fault Unit × Outside :=
  ((match c.closeFault with
    | some f => .error f
    | none => .ok ()), o.note [.str "close"])

/-- The opening of a socket. -/
def dial (o : Outside) (host : String) (port : Int) : Except Fault Socket × Outside :=
  let (answer, rest) := next (.ok {}) o.sockets
  (answer, { o with sockets := rest }.note [.str "open", .str host, .int port])

/-- The end of a socket. -/
def hangUp (o : Outside) (s : Socket) : Except Fault Unit × Outside :=
  ((match s.closeFault with
    | some f => .error f
    | none => .ok ()), (o.note [.str "close"]).note [.str "wait_closed"])

/-- The next attempt of the scripted probe. -/
def attempt (o : Outside) : Attempt × Outside :=
  let (a, rest) := next {} o.attempts
  (a, { o with attempts := rest })

end Outside
end Testbed

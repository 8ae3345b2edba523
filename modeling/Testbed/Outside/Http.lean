import Testbed.Fault.Basic
import Testbed.Json.Reader
import Testbed.Text.Encoding

/-!
# Web responses

Responses to web requests: which statuses count as success, how the others are reported, and how
a JSON body is read.
-/

namespace Testbed

/-- A response to a web request. -/
structure Response where
  status : Int := 200
  body : List UInt8 := []
  headers : List (String × String) := []
  deriving Repr

namespace Response

/-- The phrases of the known statuses. -/
def phrases : List (Int × String) := [
  (100, "Continue"), (101, "Switching Protocols"), (102, "Processing"), (103, "Early Hints"),
  (200, "OK"), (201, "Created"), (202, "Accepted"), (203, "Non-Authoritative Information"),
  (204, "No Content"), (205, "Reset Content"), (206, "Partial Content"), (207, "Multi-Status"),
  (208, "Already Reported"), (226, "IM Used"), (300, "Multiple Choices"),
  (301, "Moved Permanently"), (302, "Found"), (303, "See Other"), (304, "Not Modified"),
  (305, "Use Proxy"), (307, "Temporary Redirect"), (308, "Permanent Redirect"),
  (400, "Bad Request"), (401, "Unauthorized"), (402, "Payment Required"), (403, "Forbidden"),
  (404, "Not Found"), (405, "Method Not Allowed"), (406, "Not Acceptable"),
  (407, "Proxy Authentication Required"), (408, "Request Timeout"), (409, "Conflict"),
  (410, "Gone"), (411, "Length Required"), (412, "Precondition Failed"),
  (413, "Request Entity Too Large"), (414, "Request-URI Too Long"),
  (415, "Unsupported Media Type"), (416, "Requested Range Not Satisfiable"),
  (417, "Expectation Failed"), (418, "I'm a teapot"), (421, "Misdirected Request"),
  (422, "Unprocessable Entity"), (423, "Locked"), (424, "Failed Dependency"), (425, "Too Early"),
  (426, "Upgrade Required"), (428, "Precondition Required"), (429, "Too Many Requests"),
  (431, "Request Header Fields Too Large"), (451, "Unavailable For Legal Reasons"),
  (500, "Internal Server Error"), (501, "Not Implemented"), (502, "Bad Gateway"),
  (503, "Service Unavailable"), (504, "Gateway Timeout"), (505, "HTTP Version Not Supported"),
  (506, "Variant Also Negotiates"), (507, "Insufficient Storage"), (508, "Loop Detected"),
  (510, "Not Extended"), (511, "Network Authentication Required")]

/-- The phrase of a status; an unknown status has none. -/
def phrase (status : Int) : String :=
  ((phrases.find? fun p => p.1 == status).map Prod.snd).getD ""

/-- The status counts as success. -/
def isSuccess (r : Response) : Bool := 200 ≤ r.status && r.status ≤ 299

/-- The value of a header, whatever the case of its name. -/
def header? (r : Response) (name : String) : Option String :=
  (r.headers.find? fun h => h.1.map Char.toLower == name).map Prod.snd

/-- The class of a status in a report. -/
def statusClass (status : Int) : String :=
  match status / 100 with
  | 1 => "Informational response"
  | 3 => "Redirect response"
  | 4 => "Client error"
  | 5 => "Server error"
  | _ => "Invalid status code"

/-- The statuses that may redirect. -/
def redirects : List Int := [301, 302, 303, 307, 308]

/-- The error that reports a status other than success. -/
def statusFault (r : Response) (url : String) : Fault :=
  let target := match r.header? "location" with
    | some location =>
      if redirects.contains r.status then s!"Redirect location: '{location}'\n" else ""
    | none => ""
  .of .httpStatus (s!"{statusClass r.status} '{r.status} {phrase r.status}' for url '{url}'\n" ++
    target ++ "For more information check: " ++
    s!"https://developer.mozilla.org/en-US/docs/Web/HTTP/Status/{r.status}")

/-- The JSON value of the body. -/
def json (r : Response) : Except Fault Json :=
  match Text.decodeBody r.body with
  | .error message => .error (.of .unicodeDecode message)
  | .ok text =>
    match Json.parse text with
    | .ok j => .ok j
    | .error e => .error (.of .jsonDecode (e.message text))

end Response
end Testbed

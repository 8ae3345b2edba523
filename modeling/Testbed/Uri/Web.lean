import Testbed.Decimal.Literal
import Testbed.Text.Blank
import Testbed.Text.Lower
import Testbed.Text.Utf8
import Testbed.Uri.Address

/-!
# Web addresses

The normal form in which a web address is requested: scheme and host in lower case, the standard
port left out, dot segments removed and unsafe characters percent-encoded.  An address without a
scheme or a host is a path.
-/

namespace Testbed
namespace Web

/-- Why an address is refused. -/
inductive Problem where
  | unprintable (c : Char) (position : Nat)
  | tooLong
  | port (text : List Char)
  | ipv4 (host : List Char)
  | ipv6 (host : List Char)
  | pathSlashes
  | pathColon
  deriving Repr, DecidableEq

/-- The message for a problem. -/
def Problem.message : Problem → String
  | unprintable c n =>
    s!"Invalid non-printable ASCII character in URL, {Text.quoted (String.ofList [c])} at " ++
      s!"position {n}."
  | tooLong => "URL too long"
  | port text => s!"Invalid port: {Text.quoted (String.ofList text)}"
  | ipv4 host => s!"Invalid IPv4 address: {Text.quoted (String.ofList host)}"
  | ipv6 host => s!"Invalid IPv6 address: {Text.quoted (String.ofList host)}"
  | pathSlashes => "Relative URLs cannot have a path starting with '//'"
  | pathColon => "Relative URLs cannot have a path starting with ':'"

/-! ## Percent-encoding -/

/-- The percent-encoding of a byte. -/
def percent (b : UInt8) : List Char := '%' :: (Text.hexDigits 2 b.toNat).map Char.toUpper

/-- A percent-encoded byte stands at the head of a text. -/
def isEncoded : List Char → Bool
  | '%' :: a :: b :: _ => (Json.hexValue? a).isSome && (Json.hexValue? b).isSome
  | _ => false

/-- The text with all but safe characters and encoded bytes percent-encoded. -/
def encode (safe : Char → Bool) : Nat → List Char → List Char
  | _, [] => []
  | keep + 1, c :: rest => c :: encode safe keep rest
  | 0, c :: rest =>
    if isEncoded (c :: rest) then c :: encode safe 2 rest
    else if safe c then c :: encode safe 0 rest
    else (Text.utf8 (String.ofList [c])).flatMap percent ++ encode safe 0 rest

/-- A visible ASCII character other than the given ones. -/
def visibleBut (unsafeChars : List Char) (c : Char) : Bool :=
  0x20 < c.toNat && c.toNat < 0x7F && !unsafeChars.contains c

/-- The grave accent. -/
def graveAccent : Char := Char.ofNat 0x60

/-- Unsafe characters of a query. -/
def queryUnsafe : List Char := ['"', '#', '<', '>']

/-- Unsafe characters of a path. -/
def pathUnsafe : List Char := queryUnsafe ++ ['?', graveAccent, '\x7b', '\x7d']

/-- Unsafe characters of user and password. -/
def userUnsafe : List Char := pathUnsafe ++ ['/', ';', '=', '@', '[', '\\', ']', '^', '|']

/-- A character of a host that stays as it is. -/
def hostSafe (c : Char) : Bool :=
  c.isAlphanum || "-._~!$&'()*+,;=\"`\x7b\x7d%|\\".toList.contains c

/-! ## Hosts -/

mutual

/-- Digits, then `marks` times any character and digits. -/
def dotted (marks : Nat) : List Char → Bool
  | [] => false
  | c :: rest => c.isDigit && dottedAfter marks rest

/-- The same after at least one digit. -/
def dottedAfter (marks : Nat) : List Char → Bool
  | [] => marks == 0
  | c :: rest =>
    (c.isDigit && dottedAfter marks rest) || (marks != 0 && dotted (marks - 1) rest)

end

/-- The adaptation of the bias of punycode. -/
def adapt (delta points : Nat) (first : Bool) : Nat :=
  let delta := if first then delta / 700 else delta / 2
  let delta := delta + delta / points
  let rec reduce (delta k : Nat) : Nat → Nat
    | 0 => k + 36 * delta / (delta + 38)
    | fuel + 1 =>
      if 455 < delta then reduce (delta / 35) (k + 36) fuel else k + 36 * delta / (delta + 38)
  reduce delta 0 64

/-- A digit of punycode. -/
def punyDigit (n : Nat) : Char := Char.ofNat (if n < 26 then 97 + n else 22 + n)

/-- A number in the variable-length form of punycode. -/
def punyNumber (bias : Nat) : Nat → Nat → Nat → List Char
  | 0, _, q => [punyDigit q]
  | fuel + 1, k, q =>
    let t := if k ≤ bias then 1 else if bias + 26 ≤ k then 26 else k - bias
    if q < t then [punyDigit q]
    else punyDigit (t + (q - t) % (36 - t)) :: punyNumber bias fuel (k + 36) ((q - t) / (36 - t))

/-- The state of the encoder: next code point, delta, bias, handled characters, output. -/
structure Puny where
  next : Nat
  delta : Nat
  bias : Nat
  handled : Nat
  output : List Char

/-- One character of a round for the code point `m`. -/
def Puny.step (basic m : Nat) (s : Puny) (c : Nat) : Puny :=
  if c < m then { s with delta := s.delta + 1 }
  else if c == m then
    { s with
      output := s.output ++ punyNumber s.bias 64 36 s.delta
      bias := adapt s.delta (s.handled + 1) (s.handled == basic)
      delta := 0
      handled := s.handled + 1 }
  else s

/-- The rounds of the encoder, one for each code point beyond ASCII. -/
def punyRounds (codes : List Nat) (basic : Nat) (s : Puny) (points : List Nat) : Puny :=
  points.foldl (fun s m =>
    let s := { s with delta := s.delta + (m - s.next) * (s.handled + 1) }
    let s := codes.foldl (Puny.step basic m) s
    { s with delta := s.delta + 1, next := m + 1 }) s

/-- A label of a host in ASCII. -/
def asciiLabel (label : List Char) : List Char :=
  if label.all fun c => c.toNat < 0x80 then label
  else
    let basic := label.filter fun c => c.toNat < 0x80
    let codes := label.map Char.toNat
    let points := ((codes.filter fun n => 0x80 ≤ n).mergeSort).eraseDups
    let s := punyRounds codes basic.length ⟨0x80, 0, 72, basic.length, []⟩ points
    "xn--".toList ++ basic ++ (if basic.isEmpty then [] else ['-']) ++ s.output

/-- The host as it is requested. -/
def host (text : List Char) : Except Problem (List Char) :=
  if text.isEmpty then .ok []
  else if dotted 3 text then
    if Uri.isIPv4 text then .ok text else .error (.ipv4 text)
  else if text.head? == some '[' && text.getLast? == some ']' then
    let inner := (text.drop 1).dropLast
    if Uri.isIPv6 inner then .ok inner else .error (.ipv6 text)
  else if text.all fun c => c.toNat < 0x80 then
    .ok (encode hostSafe 0 (text.map Char.toLower))
  else
    .ok (['.'].intercalate ((Text.pieces (· == '.') (Text.lower text)).map asciiLabel))

/-- The standard port of a scheme. -/
def standardPort (scheme : List Char) : Option Int :=
  (Json.lookup (String.ofList scheme)
    [("ftp", 21), ("http", 80), ("https", 443), ("ws", 80), ("wss", 443)])

/-- The port as it is requested. -/
def port (scheme text : List Char) : Except Problem (Option Int) :=
  if text.isEmpty then .ok none
  else
    match Decimal.portInt? (String.ofList text) with
    | none => .error (.port text)
    | some n => .ok (if standardPort scheme == some n then none else some n)

/-! ## Paths -/

/-- Removal of dot segments from segments, given those kept so far. -/
def removeDots (kept : List (List Char)) : List (List Char) → List (List Char)
  | [] => kept
  | s :: rest =>
    if s == ['.'] then removeDots kept rest
    else if s == ['.', '.'] then
      removeDots (if kept.isEmpty || kept == [[]] then kept else kept.dropLast) rest
    else removeDots (kept ++ [s]) rest

/-- The path without dot segments. -/
def path (text : List Char) : List Char :=
  ['/'].intercalate (removeDots [] (Text.pieces (· == '/') text))

/-! ## Addresses -/

/-- The scheme and what follows it; a scheme may be empty. -/
def splitScheme (cs : List Char) : List Char × List Char :=
  match Text.splitFirst? (· == ':') cs with
  | some ([], rest) => ([], rest)
  | some (c :: s, rest) =>
    if c.isAlpha && s.all fun x => x.isAlphanum || x == '+' || x == '.' || x == '-' then
      (c :: s, rest)
    else ([], cs)
  | none => ([], cs)

/-- User, host and port of an authority. -/
def splitAuthority (cs : List Char) : List Char × List Char × List Char :=
  let (user, rest) := (Text.splitLast? (· == '@') cs).getD ([], cs)
  let bracketed : Option (List Char × List Char) := match rest with
    | '[' :: _ => (Text.splitLast? (· == ']') rest).map fun r => (r.1 ++ [']'], r.2)
    | _ => none
  let (host, rest) := bracketed.getD
    (rest.takeWhile fun c => c != ':' && c != '@', rest.dropWhile fun c => c != ':' && c != '@')
  (user, host, if rest.head? == some ':' then rest.drop 1 else rest)

/-- The text before a mark, and the text after it if the mark is there. -/
def cutOptional (mark : Char) (cs : List Char) : List Char × Option (List Char) :=
  match Text.splitFirst? (· == mark) cs with
  | some (a, b) => (a, some b)
  | none => (cs, none)

/-- An optional part after its mark. -/
def optional (mark : Char) : Option (List Char) → List Char
  | some part => mark :: part
  | none => []

/-- The address as it is requested. -/
def normal (address : String) : Except Problem String := do
  let cs := address.toList
  if 65536 < cs.length then throw .tooLong
  match cs.findIdx? fun c => c.toNat < 0x20 || c.toNat == 0x7F with
  | some n => throw (.unprintable (cs.getD n ' ') n)
  | none => pure ()
  let (scheme, rest) := splitScheme cs
  let (rest, fragment) := cutOptional '#' rest
  let (rest, query) := cutOptional '?' rest
  let (authority, pathText) := match rest with
    | '/' :: '/' :: rest => (rest.takeWhile (· != '/'), rest.dropWhile (· != '/'))
    | _ => ([], rest)
  let (user, hostText, portText) := splitAuthority authority
  let user := encode (visibleBut userUnsafe) 0 user
  let host ← host hostText
  let port ← port scheme portText
  let scheme := scheme.map Char.toLower
  let placed := !user.isEmpty || !host.isEmpty || port.isSome
  if scheme.isEmpty && !placed then
    if pathText.take 2 == ['/', '/'] then throw .pathSlashes
    if pathText.head? == some ':' then throw .pathColon
  let pathText := if !scheme.isEmpty || placed then path pathText else pathText
  let pathText := encode (visibleBut pathUnsafe) 0 pathText
  let query := query.map (encode (visibleBut queryUnsafe) 0)
  let fragment := fragment.map (encode (visibleBut ['"', '<', '>', graveAccent]) 0)
  if scheme.isEmpty || host.isEmpty then
    .ok (String.ofList ('/' :: pathText.dropWhile (· == '/') ++ optional '?' query))
  else
    .ok (String.ofList (scheme ++ "://".toList ++ (if user.isEmpty then [] else user ++ ['@']) ++
      (if host.contains ':' then '[' :: host ++ [']'] else host) ++
      (match port with
        | some n => ':' :: (toString n).toList
        | none => []) ++
      pathText ++ optional '?' query ++ optional '#' fragment))

/-! ## Forms -/

/-- A character that a form leaves as it is. -/
def formSafe (c : Char) : Bool :=
  (c.toNat < 0x80 && c.isAlphanum) || c == '_' || c == '.' || c == '-' || c == '~'

/-- A text of a form. -/
def formText (s : String) : List Char :=
  s.toList.flatMap fun c =>
    if c == ' ' then ['+']
    else if formSafe c then [c]
    else (Text.utf8 (String.ofList [c])).flatMap percent

/-- A form as it is sent. -/
def form (fields : List (String × String)) : String :=
  String.ofList (['&'].intercalate (fields.map fun f => formText f.1 ++ '=' :: formText f.2))

end Web
end Testbed

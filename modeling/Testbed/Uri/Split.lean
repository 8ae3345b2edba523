import Testbed.Text.Lower
import Testbed.Uri.Address

/-!
# Splitting URIs

A URI is split into scheme, authority, path, query and fragment; user, password, host and port are
views of the authority.  Splitting fails on unbalanced or unsound brackets and on characters of
the authority that turn into delimiters when the text is normalised; reading the port fails when
it is no port number.
-/

namespace Testbed

/-- The parts of a URI. -/
structure Uri where
  scheme : List Char
  authority : List Char
  path : List Char
  query : List Char
  fragment : List Char
  deriving Repr, DecidableEq

namespace Uri

/-- Why a URI is refused. -/
inductive Problem where
  | brackets
  | futureAddress
  | addressInBrackets
  | noAddress (text : List Char)
  | hiddenDelimiter (authority : List Char)
  | portSyntax (text : List Char)
  | portRange
  deriving Repr, DecidableEq

/-- The message for a problem. -/
def Problem.message : Problem → String
  | brackets => "Invalid IPv6 URL"
  | futureAddress => "IPvFuture address is invalid"
  | addressInBrackets => "An IPv4 address cannot be in brackets"
  | noAddress text =>
    s!"{Text.quoted (String.ofList text)} does not appear to be an IPv4 or IPv6 address"
  | hiddenDelimiter authority =>
    s!"netloc '{String.ofList authority}' contains invalid characters under NFKC normalization"
  | portSyntax text =>
    s!"Port could not be cast to integer value as {Text.quoted (String.ofList text)}"
  | portRange => "Port out of range 0-65535"

/-- A character of a scheme. -/
def isSchemeChar (c : Char) : Bool :=
  c.isAlphanum || c == '+' || c == '-' || c == '.'

/-- The text without control characters and blanks at its head and without tabs and line ends. -/
def clean (cs : List Char) : List Char :=
  (cs.dropWhile fun c => c.toNat ≤ 0x20).filter fun c => !(c == '\t' || c == '\r' || c == '\n')

/-- The scheme in lower case and the text after its colon; without a scheme, the text itself. -/
def splitScheme (cs : List Char) : List Char × List Char :=
  match Text.splitFirst? (· == ':') cs with
  | some (c :: scheme, rest) =>
    if c.isAlpha && (c :: scheme).all isSchemeChar then ((c :: scheme).map Char.toLower, rest)
    else ([], cs)
  | _ => ([], cs)

/-- Characters whose normal form contains a delimiter. -/
def disguises : List Nat :=
  [0x2047, 0x2048, 0x2049, 0x2100, 0x2101, 0x2105, 0x2106, 0x2A74, 0xFE13, 0xFE16, 0xFE55, 0xFE56,
    0xFE5F, 0xFE6B, 0xFF03, 0xFF0F, 0xFF1A, 0xFF1F, 0xFF20]

/-- The text between the first opening bracket and the closing bracket after it. -/
def inBrackets (authority : List Char) : List Char :=
  (((authority.dropWhile (· != '[')).drop 1).takeWhile (· != ']'))

/-- Refuses an authority with unsound brackets. -/
def checkBrackets (authority : List Char) : Except Problem Unit :=
  let opened := authority.contains '['
  let closed := authority.contains ']'
  if opened != closed then .error .brackets
  else if opened then
    let host := inBrackets authority
    if host.head? == some 'v' then
      if isFuture host then .ok () else .error .futureAddress
    else if isIPv4 host then .error .addressInBrackets
    else if isIPv6 host then .ok ()
    else .error (.noAddress host)
  else .ok ()

/-- Refuses an authority with a character that hides a delimiter. -/
def checkHidden (authority : List Char) : Except Problem Unit :=
  if authority.any fun c => disguises.contains c.toNat then .error (.hiddenDelimiter authority)
  else .ok ()

/-- The text before the first `mark` and the text after it. -/
def cutAt (mark : Char) (cs : List Char) : List Char × List Char :=
  (Text.splitFirst? (· == mark) cs).getD (cs, [])

/-- The parts of a URI. -/
def split (text : List Char) : Except Problem Uri := do
  let (scheme, rest) := splitScheme (clean text)
  let isDelimiter (c : Char) : Bool := c == '/' || c == '?' || c == '#'
  let (authority, rest) := match rest with
    | '/' :: '/' :: rest =>
      (rest.takeWhile fun c => !isDelimiter c, rest.dropWhile fun c => !isDelimiter c)
    | _ => ([], rest)
  checkBrackets authority
  let (rest, fragment) := cutAt '#' rest
  let (path, query) := cutAt '?' rest
  checkHidden authority
  .ok ⟨scheme, authority, path, query, fragment⟩

/-- What stands before the last `@` of the authority, if there is one. -/
def userInfo? (u : Uri) : Option (List Char) :=
  (Text.splitLast? (· == '@') u.authority).map Prod.fst

/-- The authority after its last `@`. -/
def hostInfo (u : Uri) : List Char :=
  ((Text.splitLast? (· == '@') u.authority).map Prod.snd).getD u.authority

/-- The user. -/
def user? (u : Uri) : Option (List Char) := u.userInfo?.map fun s => (cutAt ':' s).1

/-- The password. -/
def password? (u : Uri) : Option (List Char) :=
  u.userInfo?.bind fun s => (Text.splitFirst? (· == ':') s).map Prod.snd

/-- The host as written and the text after its colon. -/
def hostAndPort (u : Uri) : List Char × List Char :=
  match Text.splitFirst? (· == '[') u.hostInfo with
  | some (_, bracketed) =>
    let (host, rest) := cutAt ']' bracketed
    (host, (cutAt ':' rest).2)
  | none => cutAt ':' u.hostInfo

/-- The host in lower case up to its zone. -/
def host? (u : Uri) : Option (List Char) :=
  let host := u.hostAndPort.1
  if host.isEmpty then none
  else some (Text.lower (host.takeWhile (· != '%')) ++ host.dropWhile (· != '%'))

/-- The port number, if a port is given. -/
def port? (u : Uri) : Except Problem (Option Nat) :=
  let text := u.hostAndPort.2
  if text.isEmpty then .ok none
  else
    match Decimal.natOf? text with
    | none => .error (.portSyntax text)
    | some n => if n ≤ 65535 then .ok (some n) else .error .portRange

/-- The text of the parts. -/
def toText (u : Uri) : List Char :=
  let body := u.path
  let body := if u.authority.isEmpty && !(['/', '/'].isPrefixOf u.path) then body
    else
      '/' :: '/' :: u.authority ++
        (if u.path.isEmpty || u.path.head? == some '/' then u.path else '/' :: u.path)
  (if u.scheme.isEmpty then [] else u.scheme ++ [':']) ++ body ++
    (if u.query.isEmpty then [] else '?' :: u.query) ++
    (if u.fragment.isEmpty then [] else '#' :: u.fragment)

end Uri
end Testbed

import Testbed.Uri.Split

/-!
# Redacted URIs

A URI with its password replaced.  The authority is rebuilt from user, host and port; a host that
is not there is written as a word.
-/

namespace Testbed
namespace Uri

/-- What stands for a missing host. -/
def missing : List Char := "None".toList

/-- The authority without the password. -/
def redactedAuthority (u : Uri) (port : Option Nat) : List Char :=
  u.user?.getD missing ++ ":***@".toList ++ u.host?.getD missing ++
    (match port with
      | some n => ':' :: Nat.toDigits 10 n
      | none => [])

/-- The URI with its password replaced; without a password, the text itself. -/
def redact (text : String) : Except Problem String := do
  let u ← split text.toList
  if u.password?.isNone then .ok text
  else
    let port ← u.port?
    .ok (String.ofList { u with authority := u.redactedAuthority port }.toText)

end Uri
end Testbed

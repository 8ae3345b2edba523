import Testbed.Fault.Basic
import Testbed.Redaction.Pattern

/-!
# Sanitised messages

The text of an error as it may be logged: credentials, bearer tokens and URI passwords are
replaced, in this order, and a text beyond the bound is cut and marked.
-/

namespace Testbed
namespace Redaction

/-- The text with its secrets replaced. -/
def redact (text : List Char) : List Char :=
  replaceAll uriPassword (replaceAll bearer (replaceAll credential text))

/-- The first characters of a text; a negative bound leaves out that many at the end. -/
def cut (bound : Int) (text : List Char) : List Char :=
  if 0 ≤ bound then text.take bound.toNat else text.take (text.length - bound.natAbs)

/-- The text, cut and marked if it is longer than the bound. -/
def shorten (bound : Int) (text : List Char) : List Char :=
  if bound < text.length then cut bound text ++ "...[truncated]".toList else text

/-- The bound of a sanitised message. -/
def standardBound : Int := 500

/-- The text of an error, or its name if it has none. -/
def describe (f : Fault) : String :=
  if f.text.isEmpty then f.name else f.text

end Redaction

/-- The text of an error as it may be logged. -/
def Fault.sanitize (f : Fault) (bound : Int := Redaction.standardBound) : String :=
  String.ofList (Redaction.shorten bound (Redaction.redact (Redaction.describe f).toList))

end Testbed

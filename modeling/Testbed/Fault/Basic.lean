import Testbed.Fault.Cause
import Testbed.Fault.Issue
import Testbed.Fault.Kind

/-!
# Errors

An error is raised by something outside with a kind and a text, is an error of the test
environment, or reports the issues of a record that failed validation.
-/

namespace Testbed

/-- Anything that can be raised. -/
inductive Fault where
  | raised (kind : Fault.Kind) (text : Option String)
  | environment (e : EnvironmentError)
  | invalid (title : String) (issues : List Issue)
  deriving Repr

namespace Fault

/-- An error with a text. -/
def of (kind : Kind) (text : String) : Fault := .raised kind (some text)

/-- The error that a cancelled task ends with. -/
def cancelled : Fault := .raised .cancelled (some "")

/-- The error of an expired bound, which has no text. -/
def expired : Fault := .raised .timeout none

/-- The name of the error's class. -/
def name : Fault → String
  | raised kind _ => kind.name
  | environment e => e.cause.name
  | invalid .. => "ValidationError"

/-- The text of the error; the text of a missing key is quoted. -/
def text : Fault → String
  | raised kind t =>
    match kind, t with
    | .key, some s => Text.quoted s
    | _, some s => s
    | _, none => ""
  | environment e => e.message
  | invalid title issues => Issue.reportAll title issues

/-- The kind of a raised error. -/
def kind? : Fault → Option Kind
  | raised kind _ => some kind
  | _ => none

/-- The error is of a kind in a family. -/
def isA (family : Kind → Bool) (f : Fault) : Bool := (f.kind?.map family).getD false

/-- The error ends a cancelled task. -/
def isCancelled (f : Fault) : Bool := f.isA (· == .cancelled)

end Fault
end Testbed

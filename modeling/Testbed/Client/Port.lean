import Testbed.Decimal.Literal
import Testbed.Engine.Request
import Testbed.Fault.Basic

/-!
# Published ports

Finding the host port of a container's port in inspection data of any shape.
-/

namespace Testbed
namespace Port

/-- A value that has no parts. -/
def noParts (j : Json) : Fault :=
  .of .wrongType s!"'{Issue.typeWord j}' object is not subscriptable"

/-- The field of a value under a name. -/
def field (key : String) : Json → Except Fault Json
  | .obj fields =>
    match Json.lookup key fields with
    | some v => .ok v
    | none => .error (.of .key key)
  | .arr _ => .error (.of .wrongType "list indices must be integers or slices, not str")
  | .str _ => .error (.of .wrongType "string indices must be integers, not 'str'")
  | j => .error (noParts j)

/-- The first part of a value. -/
def first : Json → Except Fault Json
  | .arr (x :: _) => .ok x
  | .arr [] => .error (.of (.other "IndexError") "list index out of range")
  | .str s => .ok (.str (Text.takeFirst 1 s))
  | .obj _ => .error (.raised (.other "KeyError") (some "0"))
  | j => .error (noParts j)

/-- The integer that a value spells. -/
def integer : Json → Except Fault Int
  | .int n => .ok n
  | .bool b => .ok (if b then 1 else 0)
  | .str s =>
    match Decimal.portInt? s with
    | some n => .ok n
    | none => .error (.of .value ("invalid literal for int() with base 10: " ++
        Text.takeFirst 200 (Text.quoted s)))
  | .float x =>
    match Json.floatInt? (if x < 0.0 then x.ceil else x.floor) with
    | some n => .ok n
    | none =>
      if x.isNaN then .error (.of .value "cannot convert float NaN to integer")
      else .error (.of (.other "OverflowError") "cannot convert float infinity to integer")
  | j => .error (.of .wrongType ("int() argument must be a string, a bytes-like object or a " ++
      s!"real number, not '{Issue.typeWord j}'"))

/-- The error of a port that is not published. -/
def unpublished (id : String) (port : Int) : Fault :=
  .of .engine s!"Port {port}/tcp is not published by {id}"

/-- The host port in the inspection data of a container. -/
def published (id : String) (port : Int) (attributes : Json) : Except Fault Int := do
  let ports ← field "Ports" (← field "NetworkSettings" attributes)
  let bindings := if ports.truthy then ports else .obj []
  match bindings with
  | .obj fields =>
    match Json.lookup s!"{port}/tcp" fields with
    | none => .error (unpublished id port)
    | some mapping =>
      if mapping.truthy then integer (← field "HostPort" (← first mapping))
      else .error (unpublished id port)
  | j => .error (.of .missingAttribute s!"'{Issue.typeWord j}' object has no attribute 'get'")

end Port
end Testbed

import Testbed.Json.Printer

/-!
# Validation issues

What is wrong with the fields of a record that was read from outside, one issue a field, and the
text that reports all of them.
-/

namespace Testbed

/-- What is wrong with one field. -/
inductive Flaw where
  | textExpected
  | integerExpected
  | numberExpected
  | unreadableInteger
  | unreadableNumber
  | fraction
  | atLeast (bound : Nat)
  | atMost (bound : Nat)
  | positive
  | notAmong
  | rejected (message : String)
  | unknownName
  | dictionaryExpected
  | noSuchAttribute (name : String)
  | frozen
  deriving Repr, DecidableEq

namespace Flaw

/-- The word for a flaw. -/
def word : Flaw → String
  | textExpected => "string_type"
  | integerExpected => "int_type"
  | numberExpected => "float_type"
  | unreadableInteger => "int_parsing"
  | unreadableNumber => "float_parsing"
  | fraction => "int_from_float"
  | atLeast _ => "greater_than_equal"
  | atMost _ => "less_than_equal"
  | positive => "greater_than"
  | notAmong => "literal_error"
  | rejected _ => "value_error"
  | unknownName => "extra_forbidden"
  | dictionaryExpected => "dict_type"
  | noSuchAttribute _ => "no_such_attribute"
  | frozen => "frozen_instance"

/-- The message for a flaw. -/
def message : Flaw → String
  | textExpected => "Input should be a valid string"
  | integerExpected => "Input should be a valid integer"
  | numberExpected => "Input should be a valid number"
  | unreadableInteger => "Input should be a valid integer, unable to parse string as an integer"
  | unreadableNumber => "Input should be a valid number, unable to parse string as a number"
  | fraction => "Input should be a valid integer, got a number with a fractional part"
  | atLeast n => s!"Input should be greater than or equal to {n}"
  | atMost n => s!"Input should be less than or equal to {n}"
  | positive => "Input should be greater than 0"
  | notAmong => "Input should be 'text' or 'json'"
  | rejected m => s!"Value error, {m}"
  | unknownName => "Extra inputs are not permitted"
  | dictionaryExpected => "Input should be a valid dictionary"
  | noSuchAttribute name => s!"Object has no attribute '{name}'"
  | frozen => "Instance is frozen"

end Flaw

/-- A flaw, the field that has it and the value found there. -/
structure Issue where
  field : String
  flaw : Flaw
  input : Json
  deriving Repr

namespace Issue

/-- The name of a value's type in a report. -/
def typeWord : Json → String
  | .null => "NoneType"
  | .bool _ => "bool"
  | .int _ => "int"
  | .float _ => "float"
  | .str _ => "str"
  | .arr _ => "list"
  | .obj _ => "dict"

/-- A value in a report: beyond fifty bytes only its beginning and its end. -/
def shown (j : Json) : String :=
  let s := j.displayInner
  if s.utf8ByteSize ≤ 50 then s
  else
    let kept (budget : Nat) (cs : List Char) : List Char :=
      (cs.foldl (fun (acc : List Char × Nat) c =>
        if acc.2 + c.utf8Size ≤ budget then (c :: acc.1, acc.2 + c.utf8Size)
        else (acc.1, budget + 1)) ([], 0)).1
    String.ofList ((kept 25 s.toList).reverse ++ "...".toList ++ kept 24 s.toList.reverse)

/-- The lines that report one issue. -/
def report (i : Issue) : String :=
  s!"{i.field}\n  {i.flaw.message} [type={i.flaw.word}, input_value={shown i.input}, " ++
    s!"input_type={typeWord i.input}]\n    For further information visit " ++
    s!"https://errors.pydantic.dev/2.14/v/{i.flaw.word}"

/-- The text that reports the issues of a record with a given title. -/
def reportAll (title : String) (issues : List Issue) : String :=
  let noun := if issues.length == 1 then "error" else "errors"
  "\n".intercalate (s!"{issues.length} validation {noun} for {title}" :: issues.map report)

end Issue
end Testbed

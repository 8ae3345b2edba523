/-!
# JSON values

The values that settings, scripts, answers and response bodies are made of.  An object keeps the
order in which its names were first written, and each name stands in it once.
-/

namespace Testbed

/-- A JSON value; numbers with a fraction or an exponent are floats. -/
inductive Json where
  | null
  | bool (b : Bool)
  | int (n : Int)
  | float (x : Float)
  | str (s : String)
  | arr (items : List Json)
  | obj (fields : List (String × Json))
  deriving Repr, Inhabited

namespace Json

/-! ## Fields -/

/-- The fields with `key` set to `value`: in its place if the name is there, else at the end. -/
def setField {α : Type} (key : String) (value : α) : List (String × α) → List (String × α)
  | [] => [(key, value)]
  | (k, v) :: rest => if k == key then (key, value) :: rest else (k, v) :: setField key value rest

/-- The value of a name among fields. -/
def lookup {α : Type} (key : String) (fields : List (String × α)) : Option α :=
  (fields.find? fun f => f.1 == key).map Prod.snd

/-- The fields of an object; any other value has none. -/
def fields : Json → List (String × Json)
  | .obj fs => fs
  | _ => []

/-- The items of an array; any other value has none. -/
def items : Json → List Json
  | .arr xs => xs
  | _ => []

/-- The value of a field. -/
def get? (key : String) (j : Json) : Option Json := lookup key j.fields

/-- The value of a field that is neither missing nor null. -/
def given? (key : String) (j : Json) : Option Json :=
  match j.get? key with
  | some .null => none
  | found => found

/-- A text. -/
def str? : Json → Option String
  | .str s => some s
  | _ => none

/-- An integer. -/
def int? : Json → Option Int
  | .int n => some n
  | _ => none

/-- A flag. -/
def bool? : Json → Option Bool
  | .bool b => some b
  | _ => none

/-- The text of a field, or a default. -/
def textAt (key : String) (j : Json) (default : String := "") : String :=
  ((j.get? key).bind str?).getD default

/-- The text of a field, if it holds one. -/
def textAt? (key : String) (j : Json) : Option String := (j.get? key).bind str?

/-- The integer of a field. -/
def intAt (key : String) (j : Json) (default : Int) : Int :=
  ((j.get? key).bind int?).getD default

/-- The natural number of a field. -/
def natAt (key : String) (j : Json) (default : Nat) : Nat := (j.intAt key default).toNat

/-- The flag of a field. -/
def flagAt (key : String) (j : Json) (default : Bool := false) : Bool :=
  ((j.get? key).bind bool?).getD default

/-- The items of a field. -/
def listAt (key : String) (j : Json) : List Json := ((j.get? key).map items).getD []

/-- An array of texts. -/
def texts (xs : List String) : Json := .arr (xs.map .str)

/-- A text, or null. -/
def ofText? (s : Option String) : Json := (s.map Json.str).getD .null

/-! ## Truth and equality -/

/-- A value counts as true unless it is null, false, zero or empty. -/
def truthy : Json → Bool
  | .null => false
  | .bool b => b
  | .int n => n != 0
  | .float x => x != 0.0
  | .str s => !s.isEmpty
  | .arr xs => !xs.isEmpty
  | .obj fs => !fs.isEmpty

/-- The number that a value stands for; a flag stands for one or zero. -/
def number? : Json → Option (Int ⊕ Float)
  | .bool b => some (.inl (if b then 1 else 0))
  | .int n => some (.inl n)
  | .float x => some (.inr x)
  | _ => none

/-- The exact value of a float that is an integer. -/
def floatInt? (x : Float) : Option Int :=
  if x.isFinite && x.floor == x then
    let bits : Nat := x.abs.toBits.toNat
    let field : Nat := bits / Nat.pow 2 52
    let size : Nat :=
      if field == 0 then 0
      else (bits % Nat.pow 2 52 + Nat.pow 2 52) * Nat.pow 2 (field - 1) / Nat.pow 2 1074
    some (if x < 0.0 then -(size : Int) else size)
  else none

/-- Two numbers are equal when they have the same value, whatever their forms. -/
def sameNumber : Int ⊕ Float → Int ⊕ Float → Bool
  | .inl a, .inl b => a == b
  | .inr a, .inr b => a == b
  | .inl a, .inr b => floatInt? b == some a
  | .inr a, .inl b => floatInt? a == some b

mutual

/-- Equality of values: numbers by value, objects without regard to order. -/
def same : Json → Json → Bool
  | .null, .null => true
  | .str a, .str b => a == b
  | .arr a, .arr b => sameItems a b
  | .obj a, .obj b => a.length == b.length && sameFields a b
  | a, b =>
    match a.number?, b.number? with
    | some m, some n => sameNumber m n
    | _, _ => false

/-- Equality item by item. -/
def sameItems : List Json → List Json → Bool
  | [], [] => true
  | a :: as, b :: bs => same a b && sameItems as bs
  | _, _ => false

/-- Each of the first fields has an equal among the second. -/
def sameFields : List (String × Json) → List (String × Json) → Bool
  | [], _ => true
  | (k, v) :: rest, others =>
    (match lookup k others with
      | some w => same v w
      | none => false) && sameFields rest others

end

end Json
end Testbed

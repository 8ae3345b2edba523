import Testbed.Fault.Basic
import Testbed.Json.Printer
import Testbed.Text.Blank

/-!
# Layout of values

How one value is written where a template asks for it: as text, as an integer in some base, or as
a float with a number of places or of digits, filled up to a width.
-/

namespace Testbed

/-- How a value is laid out. -/
structure Layout where
  left : Bool := false
  plus : Bool := false
  space : Bool := false
  alternate : Bool := false
  zero : Bool := false
  width : Nat := 0
  precision : Option Nat := none
  deriving Repr, DecidableEq

namespace Layout

/-- Filled up with blanks, or with zeros after the sign, to the width. -/
def pad (s : Layout) (sign body : List Char) (numeric : Bool) : List Char :=
  let missing := s.width - (sign.length + body.length)
  if s.left then sign ++ body ++ List.replicate missing ' '
  else if s.zero && numeric then sign ++ List.replicate missing '0' ++ body
  else List.replicate missing ' ' ++ sign ++ body

/-- A text, cut to the precision. -/
def putText (s : Layout) (text : List Char) : List Char :=
  let cs := match s.precision with
    | some n => text.take n
    | none => text
  s.pad [] cs false

/-- The sign of a number. -/
def sign (s : Layout) (negative : Bool) : List Char :=
  if negative then ['-'] else if s.plus then ['+'] else if s.space then [' '] else []

/-- An integer in a base, after a mark for the base. -/
def putInteger (s : Layout) (base : Nat) (mark : List Char) (n : Int) : List Char :=
  let digits := Nat.toDigits base n.natAbs
  let digits := List.replicate (s.precision.getD 0 - digits.length) '0' ++ digits
  s.pad (s.sign (n < 0) ++ if s.alternate then mark else []) digits true

/-- A point and the digits after it; without digits the point is written only on request. -/
def point (s : Layout) (digits : List Char) : List Char :=
  if digits.isEmpty && !s.alternate then [] else '.' :: digits

/-- A quotient with fixed places. -/
def fixed (s : Layout) (places n d : Nat) : List Char :=
  let (whole, rest) := Decimal.fixedPlaces places n d
  whole ++ s.point rest

/-- A decimal of `places + 1` significant digits, one of them before the point. -/
def scientific (s : Layout) (places : Nat) (x : Decimal.Scaled) : List Char :=
  let digits := Nat.toDigits 10 x.digits
  let digits := digits ++ List.replicate (places + 1 - digits.length) '0'
  let top : Int := if x.digits == 0 then 0 else x.exponent + places
  digits.take 1 ++ s.point (digits.drop 1) ++ 'e' :: Decimal.exponentText top

/-- A fraction without the zeros at its end. -/
def trimZeros (cs : List Char) : List Char := Text.trimRight (· == '0') cs

/-- A quotient of `count` significant digits: with fixed places if its exponent is small, else with
an exponent; zeros at the end of its fraction are written only on request. -/
def general (s : Layout) (count n d : Nat) : List Char :=
  let x := Decimal.significant count n d
  let digits := Nat.toDigits 10 x.digits
  let digits := if n == 0 then List.replicate count '0' else digits
  let top : Int := if n == 0 then 0 else x.exponent + count - 1
  let trim (cs : List Char) : List Char := if s.alternate then cs else trimZeros cs
  if -4 ≤ top && top < count then
    if top < 0 then
      '0' :: s.point (trim (List.replicate ((-top).toNat - 1) '0' ++ digits))
    else
      let whole := top.toNat + 1
      digits.take whole ++ s.point (trim (digits.drop whole))
  else
    digits.take 1 ++ s.point (trim (digits.drop 1)) ++ 'e' :: Decimal.exponentText top

/-- A float, its finite magnitude written by a given rule. -/
def putFloat (s : Layout) (x : Float) (finite : Nat → Nat → List Char) : List Char :=
  let sign := s.sign (Decimal.isNegative x && !x.isNaN)
  if x.isNaN then s.pad sign "nan".toList false
  else if x.isInf then s.pad sign "inf".toList false
  else
    let (n, d) := Decimal.quotient x
    s.pad sign (finite n d) true

end Layout

namespace Argument

/-- An error about an argument. -/
def unsuitable (text : String) : Fault := .of .wrongType text

/-- The error of a value that has no integer part. -/
def noInteger (x : Float) : Fault :=
  if x.isNaN then .of .value "cannot convert float NaN to integer"
  else .of (.other "OverflowError") "cannot convert float infinity to integer"

/-- The integer for a conversion that takes any number. -/
def number (conversion : Char) : Json → Except Fault Int
  | .int n => .ok n
  | .bool b => .ok (if b then 1 else 0)
  | .float x =>
    match Json.floatInt? (if x < 0.0 then x.ceil else x.floor) with
    | some n => .ok n
    | none => .error (noInteger x)
  | j => .error (unsuitable
      s!"%{conversion} format: a real number is required, not {Issue.typeWord j}")

/-- The integer for a conversion that takes integers only. -/
def integer (conversion : Char) : Json → Except Fault Int
  | .int n => .ok n
  | .bool b => .ok (if b then 1 else 0)
  | j => .error (unsuitable
      s!"%{conversion} format: an integer is required, not {Issue.typeWord j}")

/-- The float for a conversion that takes any number. -/
def real : Json → Except Fault Float
  | .int n =>
    let x := Decimal.ofInt n
    if x.isInf then .error (.of (.other "OverflowError") "int too large to convert to float")
    else .ok x
  | .bool b => .ok (if b then 1.0 else 0.0)
  | .float x => .ok x
  | j => .error (unsuitable s!"must be real number, not {Issue.typeWord j}")

/-- The character for a conversion. -/
def character : Json → Except Fault (List Char)
  | .str s =>
    if s.length == 1 then .ok s.toList else .error (unsuitable "%c requires int or char")
  | .int n =>
    if 0 ≤ n && n < 0x110000 then .ok [Char.ofNat n.toNat]
    else .error (.of (.other "OverflowError") "%c arg not in range(0x110000)")
  | .bool b => .ok [Char.ofNat (if b then 1 else 0)]
  | _ => .error (unsuitable "%c requires int or char")

end Argument

namespace Layout

/-- The conversions that may be asked for. -/
def conversions : List Char := "sradiuoxXfFeEgGc".toList

/-- A value as a conversion and a layout ask for it. -/
def put (s : Layout) (conversion : Char) (value : Json) : Except Fault (List Char) :=
  match conversion with
  | 's' => .ok (s.putText value.display.toList)
  | 'r' => .ok (s.putText value.displayInner.toList)
  | 'a' => .ok (s.putText (Text.asciiOnly value.displayInner.toList))
  | 'o' => (Argument.integer conversion value).map (s.putInteger 8 ['0', 'o'])
  | 'x' => (Argument.integer conversion value).map (s.putInteger 16 ['0', 'x'])
  | 'X' => (Argument.integer conversion value).map fun n =>
      (s.putInteger 16 ['0', 'x'] n).map Char.toUpper
  | 'f' | 'F' => real (s.fixed places)
  | 'e' | 'E' => real fun n d => s.scientific places (Decimal.significant (places + 1) n d)
  | 'g' | 'G' => real (s.general (max 1 places))
  | 'c' => (Argument.character value).map fun cs => s.pad [] cs false
  | _ => (Argument.number conversion value).map (s.putInteger 10 [])
where
  /-- The number of places or digits that are asked for. -/
  places : Nat := s.precision.getD 6
  /-- A float by a rule for its magnitude, in capitals if the conversion is one. -/
  real (finite : Nat → Nat → List Char) : Except Fault (List Char) :=
    (Argument.real value).map fun x =>
      (s.putFloat x finite).map (if conversion.isUpper then Char.toUpper else id)

end Layout
end Testbed

import Testbed.Decimal.Places

/-!
# Written numbers

How a float is written: the shortest decimal that reads back, positional for magnitudes from
`10 ^ -4` up to `10 ^ 16` and with an exponent of at least two digits beyond them.
-/

namespace Testbed
namespace Decimal

/-- The bounds of positional notation on the decimal exponent: from the first, below the second. -/
def positional : Int × Int := (-4, 16)

/-- `n` zeros. -/
def zeros (n : Nat) : List Char := List.replicate n '0'

/-- A positive decimal in positional or exponent notation. -/
def Scaled.write (s : Scaled) : String :=
  let ds := (Nat.toDigits 10 s.digits)
  let top : Int := s.exponent + ds.length - 1
  if positional.1 ≤ top ∧ top < positional.2 then
    if 0 ≤ s.exponent then String.ofList (ds ++ zeros s.exponent.toNat ++ ['.', '0'])
    else if top < 0 then String.ofList ('0' :: '.' :: zeros ((-top).toNat - 1) ++ ds)
    else
      let whole := (top + 1).toNat
      String.ofList (ds.take whole ++ '.' :: ds.drop whole)
  else
    let mark := match ds with
      | [] => []
      | [d] => [d]
      | d :: more => d :: '.' :: more
    let size := Nat.toDigits 10 top.natAbs
    let size := if size.length < 2 then '0' :: size else size
    String.ofList (mark ++ ['e', if top < 0 then '-' else '+'] ++ size)

/-- The text of a float. -/
def write (x : Float) : String :=
  let bits := x.toBits
  let sign := if bits.toNat < Nat.pow 2 63 then "" else "-"
  match Binary.ofBits bits with
  | some b => sign ++ (shortest b).write
  | none =>
    if x.isNaN then "nan"
    else if x.isInf then sign ++ "inf"
    else sign ++ "0.0"

/-- The float nearest to `digits · 10 ^ exponent`; beyond four hundred places from the point it is
infinite or zero. -/
def nearest (negative : Bool) (digits : Nat) (exponent : Int) : Float :=
  let top : Int := exponent + (Nat.toDigits 10 digits).length
  let x :=
    if digits == 0 || top < -400 then 0.0
    else if 400 < top then 1.0 / 0.0
    else if 0 ≤ exponent then Float.ofScientific (digits * Nat.pow 10 exponent.toNat) false 0
    else Float.ofScientific digits true (-exponent).toNat
  if negative then -x else x

/-- The float nearest to an integer. -/
def ofInt (n : Int) : Float := nearest (n < 0) n.natAbs 0

/-- The nearest integer to a product of a float and a million, a half going to the even one. -/
def micros (x : Float) : Int :=
  let product := x * 1000000.0
  let (n, d) := quotient product
  if isNegative product then -roundHalfEven n d else roundHalfEven n d

end Decimal
end Testbed

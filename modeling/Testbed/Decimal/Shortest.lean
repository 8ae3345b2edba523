/-!
# Shortest decimals

The decimal with the fewest digits that reads back as a given binary fraction, and of several such
decimals the one nearest to it.  A positive finite float is `mantissa · 2 ^ exponent`; the
decimals that read back as it fill the interval between the midpoints to its two neighbours.
-/

namespace Testbed
namespace Decimal

/-- A positive binary fraction `mantissa · 2 ^ exponent`.  `tight` says that the next smaller
float lies half as far away as the next larger one. -/
structure Binary where
  mantissa : Nat
  exponent : Int
  tight : Bool
  deriving Repr, DecidableEq

/-- A decimal `digits · 10 ^ exponent`. -/
structure Scaled where
  digits : Nat
  exponent : Int
  deriving Repr, DecidableEq

/-- Reading of the bits of a float whose sign bit is ignored; `none` for zero, infinities and
what is no number. -/
def Binary.ofBits (bits : UInt64) : Option Binary :=
  let field : Nat := (bits.toNat / Nat.pow 2 52) % 2048
  let fraction : Nat := bits.toNat % Nat.pow 2 52
  if field == 2047 then none
  else if field == 0 then
    if fraction == 0 then none else some ⟨fraction, -1074, false⟩
  else some ⟨fraction + Nat.pow 2 52, (field : Int) - 1075, fraction == 0 && field != 1⟩

/-- Numerator and denominator of a quarter of `2 ^ exponent`. -/
def quarter (exponent : Int) : Nat × Nat :=
  let e := exponent - 2
  if 0 ≤ e then (Nat.pow 2 e.toNat, 1) else (1, Nat.pow 2 (-e).toNat)

/-- Numerator and denominator of `10 ^ exponent`. -/
def power (exponent : Int) : Nat × Nat :=
  if 0 ≤ exponent then (Nat.pow 10 exponent.toNat, 1) else (1, Nat.pow 10 (-exponent).toNat)

/-- The candidate `d · 10 ^ unit` reads back as the fraction: it lies in the interval, whose ends
belong to it when the mantissa is even. -/
def readsBack (x : Binary) (unit : Int) (d : Nat) : Bool :=
  let (qn, qd) := quarter x.exponent
  let (un, ud) := power unit
  let c := d * un * qd
  let low := (4 * x.mantissa - (if x.tight then 1 else 2)) * qn * ud
  let high := (4 * x.mantissa + 2) * qn * ud
  if x.mantissa % 2 == 0 then low ≤ c && c ≤ high else low < c && c < high

/-- The last grid point of `10 ^ unit` that is not above the fraction. -/
def gridBelow (x : Binary) (unit : Int) : Nat :=
  let (qn, qd) := quarter x.exponent
  let (un, ud) := power unit
  (4 * x.mantissa * qn * ud) / (un * qd)

/-- Twice the distance from the grid point below, compared with one grid step. -/
def nearerBelow (x : Binary) (unit : Int) (d : Nat) : Bool :=
  let (qn, qd) := quarter x.exponent
  let (un, ud) := power unit
  let twice := 2 * (4 * x.mantissa * qn * ud - d * un * qd)
  let step := un * qd
  twice < step || (twice == step && d % 2 == 0)

/-- The grid point of `10 ^ unit` next to the fraction that reads back as it, if there is one. -/
def onGrid (x : Binary) (unit : Int) : Option Nat :=
  let d := gridBelow x unit
  match readsBack x unit d, readsBack x unit (d + 1) with
  | true, true => some (if nearerBelow x unit d then d else d + 1)
  | true, false => some d
  | false, true => some (d + 1)
  | false, false => none

/-- The least `k ≤ fuel` steps up from `k` with the fraction below `10 ^ k`. -/
def magnitudeFrom (x : Binary) (k : Int) : Nat → Int
  | 0 => k
  | fuel + 1 => if gridBelow x k == 0 then k else magnitudeFrom x (k + 1) fuel

/-- The least `k` with the fraction below `10 ^ k`. -/
def magnitude (x : Binary) : Int :=
  let bits : Int := (x.mantissa.log2 : Int) + x.exponent
  magnitudeFrom x ((bits * 30103).fdiv 100000 - 1) 6

/-- Search of the grids with `count`, `count + 1`, … significant digits below `10 ^ top`. -/
def searchGrids (x : Binary) (top : Int) (count : Nat) : Nat → Scaled
  | 0 => ⟨gridBelow x (top - count), top - count⟩
  | fuel + 1 =>
    match onGrid x (top - count) with
    | some d => ⟨d, top - count⟩
    | none => searchGrids x top (count + 1) fuel

/-- The decimal without zeros at the end of its digits; a float has at most seventeen digits. -/
def Scaled.strip (s : Scaled) : Nat → Scaled
  | 0 => s
  | fuel + 1 =>
    if s.digits != 0 && s.digits % 10 == 0 then Scaled.strip ⟨s.digits / 10, s.exponent + 1⟩ fuel
    else s

/-- The shortest decimal that reads back as the fraction. -/
def shortest (x : Binary) : Scaled :=
  (searchGrids x (magnitude x) 1 17).strip 20

end Decimal
end Testbed

import Testbed.Decimal.Shortest

/-!
# Places

Decimals with a given number of places or of significant digits.  A fraction is rounded exactly
and a half goes to the even neighbour.
-/

namespace Testbed
namespace Decimal

/-- The nearest integer to a quotient; a half goes to the even one. -/
def roundHalfEven (n d : Nat) : Nat :=
  let floor := n / d
  let twice := 2 * (n % d)
  if d < twice || (twice == d && floor % 2 == 1) then floor + 1 else floor

/-- The rounded quotient is at most half a unit away. -/
theorem roundHalfEven_near (n d : Nat) (h : 0 < d) :
    2 * (d * roundHalfEven n d) ≤ 2 * n + d ∧ 2 * n ≤ 2 * (d * roundHalfEven n d) + d := by
  have hn := Nat.div_add_mod n d
  have hr := Nat.mod_lt n h
  unfold roundHalfEven
  dsimp only
  split
  case isTrue hup =>
    simp only [Bool.or_eq_true, Bool.and_eq_true, decide_eq_true_eq, beq_iff_eq] at hup
    rw [Nat.mul_add, Nat.mul_one]
    omega
  case isFalse hdown =>
    simp only [Bool.or_eq_true, decide_eq_true_eq, not_or] at hdown
    omega

/-- A quotient without remainder is not changed. -/
theorem roundHalfEven_mul {d : Nat} (q : Nat) (h : 0 < d) : roundHalfEven (q * d) d = q := by
  have h0 : ¬ d < 0 := by omega
  have h1 : ¬ 0 = d := by omega
  simp [roundHalfEven, Nat.mul_div_cancel q h, h1]

/-- Numerator and denominator of a fraction. -/
def Binary.quotient (b : Binary) : Nat × Nat :=
  if 0 ≤ b.exponent then (b.mantissa * Nat.pow 2 b.exponent.toNat, 1)
  else (b.mantissa, Nat.pow 2 (-b.exponent).toNat)

/-- Numerator and denominator of the magnitude of a finite float. -/
def quotient (x : Float) : Nat × Nat :=
  ((Binary.ofBits x.toBits).map Binary.quotient).getD (0, 1)

/-- The float has a minus sign. -/
def isNegative (x : Float) : Bool := Nat.pow 2 63 ≤ x.toBits.toNat

/-- The digits before and after the point of a quotient that is rounded to some places. -/
def fixedPlaces (places n d : Nat) : List Char × List Char :=
  let digits := Nat.toDigits 10 (roundHalfEven (n * Nat.pow 10 places) d)
  let digits := List.replicate (places + 1 - digits.length) '0' ++ digits
  digits.splitAt (digits.length - places)

/-- The decimal exponent of a quotient: the greatest power of ten that is not above it. -/
def leading (n d : Nat) : Int :=
  let guess : Int := ((Nat.toDigits 10 n).length : Int) - (Nat.toDigits 10 d).length
  let (un, ud) := power guess
  if d * un ≤ n * ud then guess else guess - 1

/-- A quotient as a decimal of `count` significant digits. -/
def significant (count n d : Nat) : Scaled :=
  if n == 0 then ⟨0, 1 - (count : Int)⟩
  else
    let unit := leading n d + 1 - count
    let (un, ud) := power unit
    let digits := roundHalfEven (n * ud) (d * un)
    if digits == Nat.pow 10 count then ⟨Nat.pow 10 (count - 1), unit + 1⟩ else ⟨digits, unit⟩

/-- An exponent with its sign and at least two digits. -/
def exponentText (e : Int) : List Char :=
  let digits := Nat.toDigits 10 e.natAbs
  (if e < 0 then '-' else '+') :: List.replicate (2 - digits.length) '0' ++ digits

example : roundHalfEven 5 2 = 2 := rfl
example : roundHalfEven 7 2 = 4 := rfl
example : fixedPlaces 2 1 8 = (['0'], ['1', '2']) := by decide
example : significant 2 1999 100 = ⟨20, 0⟩ := by decide

end Decimal
end Testbed

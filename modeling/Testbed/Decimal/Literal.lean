import Testbed.Decimal.Number
import Testbed.Text.Blank
import Testbed.Text.Digit

/-!
# Numeric literals

Reading of integers and floats from text.  The literals of settings allow blanks around them, a
sign, and single underscores between digits; an integer may also have leading zeros and a
fraction of zeros.  The integer of a port has no fraction, but its digits may be of any script.
-/

namespace Testbed
namespace Decimal

/-- The value of a non-empty run of ASCII digits. -/
def natOf? (cs : List Char) : Option Nat :=
  if cs.isEmpty then none
  else cs.foldl (fun acc c => do
    let n ← acc
    if c.isDigit then some (n * 10 + (c.toNat - 48)) else none) (some 0)

/-- The text without its underscores, if none stands at an end or beside another. -/
def dropUnderscores? (cs : List Char) : Option (List Char) :=
  let rec sound : Bool → List Char → Bool
    | after, [] => !after
    | after, c :: rest => if c == '_' then !after && sound true rest else sound false rest
  if sound true cs then some (cs.filter (· != '_')) else none

/-- The sign of a literal and the text after it. -/
def splitSign : List Char → Bool × List Char
  | '-' :: rest => (true, rest)
  | '+' :: rest => (false, rest)
  | cs => (false, cs)

/-- An integer with an optional sign, where a first underscore may not stand beside the sign. -/
def intOf? (cs : List Char) : Option Int := do
  let (negative, rest) := splitSign cs
  let n ← natOf? (← dropUnderscores? rest)
  some (if negative then -(n : Int) else n)

/-- The digits of a number from its first digit that is not zero; underscores are passed over after
a leading zero.  A number of zeros keeps one of them. -/
def dropLeadingZeros? : List Char → Option (List Char)
  | '0' :: rest =>
    let rec go (last : Char) : List Char → Option (List Char)
      | [] => some [last]
      | c :: more =>
        if c == '0' || c == '_' then go c more
        else if c.isDigit then some (c :: more)
        else if c == '.' then some (last :: c :: more)
        else none
    go '0' rest
  | c :: rest => if c.isDigit || c == '-' then some (c :: rest) else none
  | [] => none

/-- The number without a fraction of zeros. -/
def dropZeroFraction (cs : List Char) : List Char :=
  let fraction := (cs.dropWhile (· != '.')).drop 1
  if !fraction.isEmpty && fraction.all (· == '0') then cs.takeWhile (· != '.') else cs

/-- A plain integer: an optional minus sign and digits without leading zeros. -/
def plainInt? : List Char → Option Int
  | '-' :: rest => (plainNat? rest).map fun n => -(n : Int)
  | cs => (plainNat? cs).map fun n => (n : Int)
where
  plainNat? (cs : List Char) : Option Nat :=
    if cs.head? == some '0' && cs.length != 1 then none else natOf? cs

/-- The integer that a settings value spells. -/
def settingInt? (s : String) : Option Int := do
  let cs := Text.trimBoth Text.isWhite s.toList
  let unsigned ← match cs with
    | '+' :: '-' :: _ => none
    | '+' :: rest => some rest
    | _ => some cs
  let body := dropZeroFraction (← dropLeadingZeros? unsigned)
  plainInt? ((dropUnderscores? body).getD body)

/-- The integer that a port spells, in digits of any script. -/
def portInt? (s : String) : Option Int :=
  intOf? ((Text.trimBoth Text.isWhite s.toList).map Text.asciiDigit)

/-- The exponent that ends a float literal; none stands for zero. -/
def exponentOf? : List Char → Option Int
  | [] => some 0
  | mark :: rest =>
    if mark == 'e' || mark == 'E' then
      let (down, size) := splitSign rest
      (natOf? size).map fun n => if down then -(n : Int) else (n : Int)
    else none

/-- The float that a literal without blanks or underscores spells. -/
def floatOf? (cs : List Char) : Option Float :=
  let (negative, rest) := splitSign cs
  let word := rest.map Char.toLower
  if word == "inf".toList || word == "infinity".toList then
    some (if negative then -(1.0 / 0.0) else 1.0 / 0.0)
  else if word == "nan".toList then some (0.0 / 0.0)
  else
    let whole := rest.takeWhile Char.isDigit
    let rest := rest.dropWhile Char.isDigit
    let (fraction, rest) := match rest with
      | '.' :: more => (more.takeWhile Char.isDigit, more.dropWhile Char.isDigit)
      | _ => ([], rest)
    match natOf? (whole ++ fraction), exponentOf? rest with
    | some digits, some exponent => some (nearest negative digits (exponent - fraction.length))
    | _, _ => none

/-- The float that a settings value spells. -/
def settingFloat? (s : String) : Option Float :=
  floatOf? (Text.trimBoth Text.isWhite s.toList) <|> (dropUnderscores? s.toList).bind floatOf?

end Decimal
end Testbed

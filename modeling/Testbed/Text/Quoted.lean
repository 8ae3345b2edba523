import Testbed.Text.Unprintable

/-!
# Quoted text

A quoted text stands between single quotes, or between double quotes when it holds a single quote
and no double one.  The delimiter and the backslash are escaped, the usual control characters have
a letter each, and any other unprintable character is written by its code in two, four or eight
hexadecimal digits.
-/

namespace Testbed
namespace Text

/-- The digit of a value below sixteen, in lower case. -/
def hexDigit (n : Nat) : Char :=
  if n < 10 then Char.ofNat (48 + n) else Char.ofNat (87 + n)

/-- The last `width` hexadecimal digits of a number. -/
def hexDigits : Nat → Nat → List Char
  | 0, _ => []
  | width + 1, n => hexDigits width (n / 16) ++ [hexDigit (n % 16)]

/-- The quote that delimits a text. -/
def delimiter (cs : List Char) : Char :=
  if cs.contains '\'' && !cs.contains '"' then '"' else '\''

/-- The escape of a character by its code in two, four or eight digits. -/
def codeEscape (c : Char) : List Char :=
  let n := c.toNat
  if n < 0x100 then '\\' :: 'x' :: hexDigits 2 n
  else if n < 0x10000 then '\\' :: 'u' :: hexDigits 4 n
  else '\\' :: 'U' :: hexDigits 8 n

/-- How one character is written between delimiters `q`. -/
def quotedChar (q c : Char) : List Char :=
  if c == q || c == '\\' then ['\\', c]
  else if c == '\n' then ['\\', 'n']
  else if c == '\r' then ['\\', 'r']
  else if c == '\t' then ['\\', 't']
  else if isUnprintable c then codeEscape c
  else [c]

/-- The text with an escape for every character outside ASCII. -/
def asciiOnly (cs : List Char) : List Char :=
  cs.flatMap fun c => if c.toNat < 0x80 then [c] else codeEscape c

/-- The quoted form of a text. -/
def quoted (s : String) : String :=
  let cs := s.toList
  let q := delimiter cs
  String.ofList (q :: cs.flatMap (quotedChar q) ++ [q])

/-- The first `n` characters of a text. -/
def takeFirst (n : Nat) (s : String) : String :=
  String.ofList (s.toList.take n)

/-- The two-digit hexadecimal form of a string of bytes. -/
def hexBytes (bytes : List UInt8) : String :=
  String.ofList (bytes.flatMap fun b => hexDigits 2 b.toNat)

end Text
end Testbed

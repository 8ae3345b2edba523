import Testbed.Decimal.Number
import Testbed.Json.Basic
import Testbed.Text.Quoted

/-!
# Written JSON

Two written forms of a value.  `compress` is JSON text in ASCII with a blank after each comma and
colon; `display` is the form in which a value appears inside messages, where words are
capitalised, texts inside arrays and objects are quoted, and a text on its own stands as it is.
-/

namespace Testbed
namespace Json

/-- The escape of one UTF-16 unit. -/
def unitEscape (n : Nat) : List Char := '\\' :: 'u' :: Text.hexDigits 4 n

/-- A character inside a JSON text. -/
def escapeChar (c : Char) : List Char :=
  if c == '"' then ['\\', '"']
  else if c == '\\' then ['\\', '\\']
  else if c == '\n' then ['\\', 'n']
  else if c == '\r' then ['\\', 'r']
  else if c == '\t' then ['\\', 't']
  else
    let n := c.toNat
    if n == 8 then ['\\', 'b']
    else if n == 12 then ['\\', 'f']
    else if n < 0x20 || (0x7F ≤ n && n < 0x10000) then unitEscape n
    else if 0x10000 ≤ n then
      unitEscape (0xD800 + (n - 0x10000) / 0x400) ++ unitEscape (0xDC00 + (n - 0x10000) % 0x400)
    else [c]

/-- A text between double quotes. -/
def escape (s : String) : String :=
  String.ofList ('"' :: s.toList.flatMap escapeChar ++ ['"'])

/-- A float as JSON text. -/
def floatText (x : Float) : String :=
  if x.isNaN then "NaN"
  else if x.isInf then (if x < 0.0 then "-Infinity" else "Infinity")
  else Decimal.write x

mutual

/-- The JSON text of a value. -/
def compress : Json → String
  | .null => "null"
  | .bool b => if b then "true" else "false"
  | .int n => toString n
  | .float x => floatText x
  | .str s => escape s
  | .arr xs => "[" ++ ", ".intercalate (compressItems xs) ++ "]"
  | .obj fs => "\x7b" ++ ", ".intercalate (compressFields fs) ++ "\x7d"

/-- The JSON texts of several values. -/
def compressItems : List Json → List String
  | [] => []
  | x :: xs => compress x :: compressItems xs

/-- The JSON texts of fields. -/
def compressFields : List (String × Json) → List String
  | [] => []
  | (k, v) :: fs => (escape k ++ ": " ++ compress v) :: compressFields fs

end

mutual

/-- A value as it appears inside an array or object of a message. -/
def displayInner : Json → String
  | .null => "None"
  | .bool b => if b then "True" else "False"
  | .int n => toString n
  | .float x => Decimal.write x
  | .str s => Text.quoted s
  | .arr xs => "[" ++ ", ".intercalate (displayItems xs) ++ "]"
  | .obj fs => "\x7b" ++ ", ".intercalate (displayFields fs) ++ "\x7d"

/-- The items of an array of a message. -/
def displayItems : List Json → List String
  | [] => []
  | x :: xs => displayInner x :: displayItems xs

/-- The fields of an object of a message. -/
def displayFields : List (String × Json) → List String
  | [] => []
  | (k, v) :: fs => (Text.quoted k ++ ": " ++ displayInner v) :: displayFields fs

end

/-- A value as it appears in a message. -/
def display : Json → String
  | .str s => s
  | j => displayInner j

end Json
end Testbed

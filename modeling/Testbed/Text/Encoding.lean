import Testbed.Text.Utf8

/-!
# Encodings of JSON bodies

The encoding of a body is known from a byte order mark or from the zeros among its first bytes;
without either it is UTF-8.
-/

namespace Testbed
namespace Text

/-- An encoding of a body, with its byte order and whether a mark precedes the text. -/
inductive Encoding where
  | utf8 (marked : Bool)
  | utf16 (big marked : Bool)
  | utf32 (big marked : Bool)
  deriving Repr, DecidableEq

/-- The encoding of a body. -/
def Encoding.detect (bytes : List UInt8) : Encoding :=
  match bytes with
  | 0x00 :: 0x00 :: 0xFE :: 0xFF :: _ => utf32 true true
  | 0xFF :: 0xFE :: 0x00 :: 0x00 :: _ => utf32 false true
  | 0xFE :: 0xFF :: _ => utf16 true true
  | 0xFF :: 0xFE :: _ => utf16 false true
  | 0xEF :: 0xBB :: 0xBF :: _ => utf8 true
  | a :: b :: c :: d :: _ =>
    if a == 0 then (if b == 0 then utf32 true false else utf16 true false)
    else if b == 0 then (if c == 0 && d == 0 then utf32 false false else utf16 false false)
    else utf8 false
  | [a, b] => if a == 0 then utf16 true false else if b == 0 then utf16 false false else utf8 false
  | _ => utf8 false

/-- The numbers spelled by groups of bytes, and the bytes left over. -/
def groupBytes (size : Nat) (big : Bool) : Nat → List UInt8 → List Nat × List UInt8
  | 0, bytes => ([], bytes)
  | fuel + 1, bytes =>
    if bytes.length < size then ([], bytes)
    else
      let group := bytes.take size
      let value := (if big then group else group.reverse).foldl (fun n b => n * 256 + b.toNat) 0
      let (more, rest) := groupBytes size big fuel (bytes.drop size)
      (value :: more, rest)

/-- The number is a surrogate. -/
def isSurrogate (n : Nat) : Bool := 0xD800 ≤ n && n < 0xE000

/-- The character of a code; a surrogate has none and is replaced. -/
def codeChar (n : Nat) : Char := Char.ofNat (if isSurrogate n then 0xFFFD else n)

/-- The characters of UTF-16 units; a lone surrogate is replaced. -/
def joinSurrogates : List Nat → List Char
  | [] => []
  | high :: low :: rest =>
    if 0xD800 ≤ high && high < 0xDC00 && 0xDC00 ≤ low && low < 0xE000 then
      Char.ofNat (0x10000 + (high - 0xD800) * 0x400 + (low - 0xDC00)) :: joinSurrogates rest
    else
      codeChar high :: joinSurrogates (low :: rest)
  | [n] => [codeChar n]

/-- The bytes with a replacement character, of the same size, for each surrogate that is spelled in
three bytes. -/
def replaceSurrogates : List UInt8 → List UInt8
  | a :: b :: c :: rest =>
    if a == 0xED && 0xA0 ≤ b && b ≤ 0xBF && 0x80 ≤ c && c ≤ 0xBF then
      0xEF :: 0xBF :: 0xBD :: replaceSurrogates rest
    else a :: replaceSurrogates (b :: c :: rest)
  | bytes => bytes

/-- The error of a body that holds a group above every code point, the `k`th after `before`
bytes. -/
def outOfRange (name : String) (before k : Nat) : String :=
  s!"'{name}' codec can't decode bytes in position {before + 4 * k}-{before + 4 * k + 3}: " ++
    "code point not in range(0x110000)"

/-- The error of a body that ends inside a group. -/
def cutOff (name : String) (total : Nat) (rest : List UInt8) : String :=
  let start := total - rest.length
  match rest with
  | [b] => s!"'{name}' codec can't decode byte 0x{String.ofList (hexDigits 2 b.toNat)} " ++
    s!"in position {start}: truncated data"
  | _ => s!"'{name}' codec can't decode bytes in position {start}-{total - 1}: truncated data"

/-- The text of a body. -/
def decodeBody (bytes : List UInt8) : Except String (List Char) :=
  let order (big : Bool) : String := if big then "be" else "le"
  match Encoding.detect bytes with
  | .utf8 marked =>
    (decode (replaceSurrogates (if marked then bytes.drop 3 else bytes))).mapError Utf8Error.message
  | .utf16 big marked =>
    let body := if marked then bytes.drop 2 else bytes
    match groupBytes 2 big bytes.length body with
    | (units, []) => .ok (joinSurrogates units)
    | (_, rest) => .error (cutOff s!"utf-16-{order big}" bytes.length rest)
  | .utf32 big marked =>
    let name := s!"utf-32-{order big}"
    let before := if marked then 4 else 0
    let (codes, rest) := groupBytes 4 big bytes.length (bytes.drop before)
    match codes.findIdx? (0x110000 ≤ ·), rest with
    | some k, _ => .error (outOfRange name before k)
    | none, [] => .ok (codes.map codeChar)
    | none, rest => .error (cutOff name bytes.length rest)

end Text
end Testbed

import Testbed.Text.Quoted

/-!
# UTF-8

Decoding of bytes as UTF-8.  `decodeStep` reads one character or finds the longest part of a
character that the bytes begin with; `decodeReplacing` writes one replacement character for each
such part, and `decode` stops at the first one and says what is wrong with it.
-/

namespace Testbed
namespace Text

/-- What stands at the head of a string of bytes: a character, or an invalid part of `size`
bytes. -/
inductive Decoded where
  | char (c : Char) (size : Nat)
  | invalidStart
  | invalidContinuation (size : Nat)
  | truncated (size : Nat)
  deriving Repr, DecidableEq

/-- Shape of the sequence that a first byte opens: the number of bytes that follow, the range of
the second byte, and the bits that the first byte contributes. -/
def leadShape (b : Nat) : Option (Nat × Nat × Nat × Nat) :=
  if 0xC2 ≤ b ∧ b ≤ 0xDF then some (1, 0x80, 0xBF, b - 0xC0)
  else if b = 0xE0 then some (2, 0xA0, 0xBF, 0)
  else if b = 0xED then some (2, 0x80, 0x9F, 0xD)
  else if 0xE1 ≤ b ∧ b ≤ 0xEF then some (2, 0x80, 0xBF, b - 0xE0)
  else if b = 0xF0 then some (3, 0x90, 0xBF, 0)
  else if b = 0xF4 then some (3, 0x80, 0x8F, 4)
  else if 0xF1 ≤ b ∧ b ≤ 0xF3 then some (3, 0x80, 0xBF, b - 0xF0)
  else none

/-- Reads `need` more continuation bytes after `used` bytes with the bits `bits`; the first of
them has to lie between `low` and `high`. -/
def continueChar (low high used bits : Nat) : Nat → List UInt8 → Decoded
  | 0, _ => .char (Char.ofNat bits) used
  | _ + 1, [] => .truncated used
  | need + 1, b :: rest =>
    if low ≤ b.toNat ∧ b.toNat ≤ high then
      continueChar 0x80 0xBF (used + 1) (bits * 64 + (b.toNat - 0x80)) need rest
    else .invalidContinuation used

/-- The character or invalid part that starts with the byte `b`. -/
def decodeStep (b : UInt8) (rest : List UInt8) : Decoded :=
  if b.toNat < 0x80 then .char (Char.ofNat b.toNat) 1
  else
    match leadShape b.toNat with
    | none => .invalidStart
    | some (need, low, high, bits) => continueChar low high 1 bits need rest

/-- The number of bytes that a step consumes. -/
def Decoded.size : Decoded → Nat
  | .char _ n => n
  | .invalidStart => 1
  | .invalidContinuation n => n
  | .truncated n => n

/-- The character that a step yields. -/
def Decoded.replacement : Decoded → Char
  | .char c _ => c
  | _ => Char.ofNat 0xFFFD

/-- Decoding with one replacement character for each invalid part, skipping `skip` bytes that an
earlier step has consumed. -/
def decodeReplacingFrom : Nat → List UInt8 → List Char
  | _, [] => []
  | skip + 1, _ :: rest => decodeReplacingFrom skip rest
  | 0, b :: rest =>
    let d := decodeStep b rest
    d.replacement :: decodeReplacingFrom (d.size - 1) rest

/-- The text of a string of bytes, with one replacement character for each invalid part. -/
def decodeReplacing (bytes : List UInt8) : List Char :=
  decodeReplacingFrom 0 bytes

/-- Where and how bytes fail to be UTF-8. -/
structure Utf8Error where
  position : Nat
  found : Decoded
  byte : UInt8
  deriving Repr, DecidableEq

/-- The words for an invalid part. -/
def Decoded.words : Decoded → String
  | .char .. => ""
  | .invalidStart => "invalid start byte"
  | .invalidContinuation _ => "invalid continuation byte"
  | .truncated _ => "unexpected end of data"

/-- The message of a decoding error; a single byte is shown, more are given by position. -/
def Utf8Error.message (e : Utf8Error) : String :=
  let place :=
    if e.found.size ≤ 1 then
      s!"byte 0x{String.ofList (hexDigits 2 e.byte.toNat)} in position {e.position}"
    else s!"bytes in position {e.position}-{e.position + e.found.size - 1}"
  s!"'utf-8' codec can't decode {place}: {e.found.words}"

/-- Strict decoding from a position on. -/
def decodeFrom (position : Nat) : Nat → List UInt8 → Except Utf8Error (List Char)
  | _, [] => .ok []
  | skip + 1, _ :: rest => decodeFrom (position + 1) skip rest
  | 0, b :: rest =>
    match decodeStep b rest with
    | .char c size => (decodeFrom (position + 1) (size - 1) rest).map (c :: ·)
    | d => .error ⟨position, d, b⟩

/-- The text of a string of bytes, if they are UTF-8. -/
def decode (bytes : List UInt8) : Except Utf8Error (List Char) :=
  decodeFrom 0 0 bytes

/-- The bytes of a text in UTF-8. -/
def utf8 (s : String) : List UInt8 := s.toUTF8.toList

end Text
end Testbed

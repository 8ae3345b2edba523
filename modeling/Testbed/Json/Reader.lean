import Testbed.Decimal.Literal
import Testbed.Json.Basic

/-!
# Reading JSON

A reader for JSON text that also accepts `NaN` and the infinities.  A malformed text is answered
with what was expected and where, counted in characters.
-/

namespace Testbed
namespace Json

/-- What is wrong with a JSON text. -/
inductive Problem where
  | value
  | propertyName
  | colon
  | comma
  | extraData
  | unterminated
  | controlCharacter
  | escape
  | unicodeEscape
  deriving Repr, DecidableEq

/-- The words for a problem. -/
def Problem.text : Problem → String
  | .value => "Expecting value"
  | .propertyName => "Expecting property name enclosed in double quotes"
  | .colon => "Expecting ':' delimiter"
  | .comma => "Expecting ',' delimiter"
  | .extraData => "Extra data"
  | .unterminated => "Unterminated string starting at"
  | .controlCharacter => "Invalid control character at"
  | .escape => "Invalid \\escape"
  | .unicodeEscape => "Invalid \\uXXXX escape"

/-- A problem and the position of the character where it was found. -/
structure ReadError where
  problem : Problem
  position : Nat
  deriving Repr, DecidableEq

/-- The message of an error in a given text, with line and column counted from one. -/
def ReadError.message (e : ReadError) (text : List Char) : String :=
  let before := text.take e.position
  let line := before.count '\n' + 1
  let column := (before.reverse.takeWhile (· != '\n')).length + 1
  s!"{e.problem.text}: line {line} column {column} (char {e.position})"

/-- A place in a text: the position and what follows. -/
structure Cursor where
  position : Nat
  rest : List Char

namespace Cursor

/-- The place `n` characters on. -/
def skip (c : Cursor) (n : Nat) : Cursor := ⟨c.position + n, c.rest.drop n⟩

/-- The next place that holds no blank. -/
def skipBlanks (c : Cursor) : Cursor :=
  c.skip (c.rest.takeWhile fun x => x == ' ' || x == '\t' || x == '\n' || x == '\r').length

/-- A problem at this place. -/
def fail {α : Type} (c : Cursor) (p : Problem) : Except ReadError α := .error ⟨p, c.position⟩

end Cursor

/-- The value of a hexadecimal digit. -/
def hexValue? (c : Char) : Option Nat :=
  let n := c.toNat
  if 48 ≤ n ∧ n ≤ 57 then some (n - 48)
  else if 65 ≤ n ∧ n ≤ 70 then some (n - 55)
  else if 97 ≤ n ∧ n ≤ 102 then some (n - 87)
  else none

/-- The value of four hexadecimal digits at the head of a text. -/
def hexUnit? (cs : List Char) : Option Nat :=
  if cs.length < 4 then none
  else (cs.take 4).foldl (fun acc c => do some ((← acc) * 16 + (← hexValue? c))) (some 0)

/-- The character that a letter after a backslash stands for. -/
def escaped? (c : Char) : Option Char :=
  match c with
  | '"' => some '"'
  | '\\' => some '\\'
  | '/' => some '/'
  | 'b' => some (Char.ofNat 8)
  | 'f' => some (Char.ofNat 12)
  | 'n' => some '\n'
  | 'r' => some '\r'
  | 't' => some '\t'
  | _ => none

/-- The character of a UTF-16 unit; a lone surrogate has none and is replaced. -/
def unitChar (n : Nat) : Char :=
  if 0xD800 ≤ n ∧ n < 0xE000 then Char.ofNat 0xFFFD else Char.ofNat n

/-- The escape after a backslash and `u` at a place: its character and the number of characters
it takes, the `u` included. -/
def readUnicodeEscape (c : Cursor) : Except ReadError (Char × Nat) :=
  let digits := c.rest.drop 1
  match (if digits.length ≤ 4 then none else hexUnit? digits) with
  | none => c.fail .unicodeEscape
  | some high =>
    let after := digits.drop 4
    match after with
    | '\\' :: 'u' :: more =>
      if 0xD800 ≤ high && high < 0xDC00 && 6 < after.length then
        match hexUnit? more with
        | none => (c.skip 6).fail .unicodeEscape
        | some low =>
          if 0xDC00 ≤ low && low < 0xE000 then
            .ok (Char.ofNat (0x10000 + (high - 0xD800) * 0x400 + (low - 0xDC00)), 11)
          else .ok (unitChar high, 5)
      else .ok (unitChar high, 5)
    | _ => .ok (unitChar high, 5)

/-- The rest of a text whose opening quote stood at `start`, given what was read of it in
reverse. -/
def readString (start : Nat) (acc : List Char) : Nat → Cursor → Except ReadError (String × Cursor)
  | 0, _ => .error ⟨.unterminated, start⟩
  | fuel + 1, c =>
    match c.rest with
    | [] => .error ⟨.unterminated, start⟩
    | '"' :: _ => .ok (String.ofList acc.reverse, c.skip 1)
    | '\\' :: rest =>
      match rest with
      | [] => .error ⟨.unterminated, start⟩
      | 'u' :: _ => do
        let (x, size) ← readUnicodeEscape (c.skip 1)
        readString start (x :: acc) fuel (c.skip (1 + size))
      | x :: _ =>
        match escaped? x with
        | some y => readString start (y :: acc) fuel (c.skip 2)
        | none => c.fail .escape
    | x :: _ =>
      if x.toNat < 0x20 then c.fail .controlCharacter
      else readString start (x :: acc) fuel (c.skip 1)

/-- The number at a place. -/
def readNumber (c : Cursor) : Except ReadError (Json × Cursor) :=
  let sign := if c.rest.head? == some '-' then 1 else 0
  let body := c.rest.drop sign
  let whole := if body.head? == some '0' then ['0'] else body.takeWhile Char.isDigit
  if whole.isEmpty then c.fail .value
  else
    let rest := body.drop whole.length
    let fraction := match rest with
      | '.' :: more => more.takeWhile Char.isDigit
      | _ => []
    let rest := if fraction.isEmpty then rest else rest.drop (fraction.length + 1)
    let mark := match rest with
      | 'e' :: '+' :: more | 'E' :: '+' :: more => '+' :: more.takeWhile Char.isDigit
      | 'e' :: '-' :: more | 'E' :: '-' :: more => '-' :: more.takeWhile Char.isDigit
      | 'e' :: more | 'E' :: more => more.takeWhile Char.isDigit
      | _ => []
    let mark := if mark.any Char.isDigit then mark else []
    let size := sign + whole.length + (if fraction.isEmpty then 0 else fraction.length + 1) +
      (if mark.isEmpty then 0 else mark.length + 1)
    let digits := (Decimal.natOf? (whole ++ fraction)).getD 0
    let value :=
      if fraction.isEmpty && mark.isEmpty then
        Json.int (if sign == 1 then -(digits : Int) else digits)
      else
        let exponent := (Decimal.intOf? mark).getD 0
        Json.float (Decimal.nearest (sign == 1) digits (exponent - fraction.length))
    .ok (value, c.skip size)

/-- The words that stand for values. -/
def words : List (List Char × Json) :=
  [("null".toList, .null), ("true".toList, .bool true), ("false".toList, .bool false),
    ("NaN".toList, .float (0.0 / 0.0)), ("Infinity".toList, .float (1.0 / 0.0)),
    ("-Infinity".toList, .float (-(1.0 / 0.0)))]

mutual

/-- The value at a place. -/
def readValue : Nat → Cursor → Except ReadError (Json × Cursor)
  | 0, c => c.fail .value
  | fuel + 1, c =>
    match c.rest with
    | '"' :: _ => do
      let (s, c) ← readString c.position [] (c.rest.length + 1) (c.skip 1)
      .ok (.str s, c)
    | '[' :: _ =>
      let c := (c.skip 1).skipBlanks
      if c.rest.head? == some ']' then .ok (.arr [], c.skip 1) else readItems [] fuel c
    | '\x7b' :: _ =>
      let c := (c.skip 1).skipBlanks
      if c.rest.head? == some '\x7d' then .ok (.obj [], c.skip 1) else readFields [] fuel c
    | _ =>
      match words.find? fun w => w.1.isPrefixOf c.rest with
      | some (w, j) => .ok (j, c.skip w.length)
      | none => readNumber c

/-- The items of an array from a place on, given those before it in reverse. -/
def readItems (acc : List Json) : Nat → Cursor → Except ReadError (Json × Cursor)
  | 0, c => c.fail .value
  | fuel + 1, c => do
    let (j, c) ← readValue fuel c
    let c := c.skipBlanks
    match c.rest.head? with
    | some ']' => .ok (.arr (j :: acc).reverse, c.skip 1)
    | some ',' => readItems (j :: acc) fuel (c.skip 1).skipBlanks
    | _ => c.fail .comma

/-- The fields of an object from a place on, given those before it. -/
def readFields (acc : List (String × Json)) : Nat → Cursor → Except ReadError (Json × Cursor)
  | 0, c => c.fail .value
  | fuel + 1, c => do
    if c.rest.head? != some '"' then c.fail .propertyName
    else
      let (k, c) ← readString c.position [] (c.rest.length + 1) (c.skip 1)
      let c := c.skipBlanks
      if c.rest.head? != some ':' then c.fail .colon
      else
        let (v, c) ← readValue fuel (c.skip 1).skipBlanks
        let c := c.skipBlanks
        match c.rest.head? with
        | some '\x7d' => .ok (.obj (setField k v acc), c.skip 1)
        | some ',' => readFields (setField k v acc) fuel (c.skip 1).skipBlanks
        | _ => c.fail .comma

end

/-- The value that a text spells. -/
def parse (text : List Char) : Except ReadError Json := do
  let (j, c) ← readValue (2 * text.length + 2) (Cursor.mk 0 text).skipBlanks
  let c := c.skipBlanks
  if c.rest.isEmpty then .ok j else c.fail .extraData

end Json
end Testbed

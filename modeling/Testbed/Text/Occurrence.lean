/-!
# Occurrences of a text

Counting and cutting at the occurrences of a needle, taken from the left without overlap.
-/

namespace Testbed
namespace Text

/-- What follows a leading `needle`, if the text starts with it. -/
def dropPrefix? : List Char → List Char → Option (List Char)
  | [], text => some text
  | _ :: _, [] => none
  | n :: needle, c :: text => if n == c then dropPrefix? needle text else none

/-- Occurrences of a non-empty needle whose search skips the next `skip` characters. -/
def countFrom (needle : List Char) : Nat → List Char → Nat
  | _, [] => 0
  | skip + 1, _ :: text => countFrom needle skip text
  | 0, c :: text =>
    if (dropPrefix? needle (c :: text)).isSome then
      countFrom needle (needle.length - 1) text + 1
    else countFrom needle 0 text

/-- The number of occurrences that do not overlap; the empty needle occurs before every
character and at the end. -/
def count (needle text : List Char) : Nat :=
  if needle.isEmpty then text.length + 1 else countFrom needle 0 text

/-- The text contains the needle. -/
def contains (needle : List Char) : List Char → Bool
  | [] => needle.isEmpty
  | c :: text => (dropPrefix? needle (c :: text)).isSome || contains needle text

/-- The text before and after the first character of a class, if there is one. -/
def splitFirst? (p : Char → Bool) : List Char → Option (List Char × List Char)
  | [] => none
  | c :: text =>
    if p c then some ([], text)
    else (splitFirst? p text).map fun r => (c :: r.1, r.2)

/-- The text before and after the last character of a class, if there is one. -/
def splitLast? (p : Char → Bool) : List Char → Option (List Char × List Char)
  | [] => none
  | c :: text =>
    match splitLast? p text with
    | some r => some (c :: r.1, r.2)
    | none => if p c then some ([], text) else none

/-- The pieces of a text between the characters of a class. -/
def pieces (p : Char → Bool) : List Char → List (List Char)
  | [] => [[]]
  | c :: text =>
    if p c then [] :: pieces p text
    else
      match pieces p text with
      | [] => [[c]]
      | piece :: more => (c :: piece) :: more

end Text
end Testbed

import Testbed.Json.Reader
import Testbed.Text.Occurrence
import Testbed.Text.Quoted

/-!
# Addresses in brackets

What may stand between the brackets of an authority: an IPv6 address with an optional zone, or an
address of a future version.
-/

namespace Testbed
namespace Uri

/-- A decimal octet without leading zeros. -/
def isOctet (cs : List Char) : Bool :=
  !cs.isEmpty && cs.length ≤ 3 && cs.all Char.isDigit && (cs == ['0'] || cs.head? != some '0') &&
    ((Decimal.natOf? cs).getD 256) ≤ 255

/-- An IPv4 address: four octets between points. -/
def isIPv4 (cs : List Char) : Bool :=
  let octets := Text.pieces (· == '.') cs
  octets.length == 4 && octets.all isOctet

/-- A group of an IPv6 address: one to four hexadecimal digits. -/
def isGroup (cs : List Char) : Bool :=
  !cs.isEmpty && cs.length ≤ 4 && cs.all fun c => (Json.hexValue? c).isSome

/-- The groups between colons, where an IPv4 address at the end stands for two. -/
def groups? (cs : List Char) : Option (List (List Char)) :=
  let parts := Text.pieces (· == ':') cs
  match parts.getLast? with
  | some last =>
    if last.contains '.' then
      if isIPv4 last then some (parts.dropLast ++ [['0'], ['0']]) else none
    else some parts
  | none => none

/-- The positions of empty groups that are neither first nor last. -/
def gaps (parts : List (List Char)) : List Nat :=
  (List.range parts.length).filter fun i =>
    0 < i && i + 1 < parts.length && (parts.getD i []).isEmpty

/-- The groups form an IPv6 address, with at most one run of zeros left out. -/
def soundGroups (parts : List (List Char)) : Bool :=
  if 9 < parts.length then false
  else
    match gaps parts with
    | [] => parts.length == 8 && parts.all isGroup
    | [gap] =>
      let high := parts.take gap
      let low := parts.drop (gap + 1)
      let high := if high.head? == some [] then high.drop 1 else high
      let low := if low.getLast? == some [] then low.dropLast else low
      high.length + low.length < 8 && high.all isGroup && low.all isGroup
    | _ => false

/-- An IPv6 address with an optional zone after `%`. -/
def isIPv6 (cs : List Char) : Bool :=
  let (address, zone) := match Text.splitFirst? (· == '%') cs with
    | some (a, z) => (a, some z)
    | none => (cs, none)
  let zoneSound := match zone with
    | none => true
    | some z => !z.isEmpty && !z.contains '%'
  !cs.contains '/' && zoneSound && 3 ≤ (Text.pieces (· == ':') address).length &&
    (match groups? address with
      | some parts => soundGroups parts
      | none => false)

/-- An address of a future version: `v`, hexadecimal digits, a point and a text. -/
def isFuture (cs : List Char) : Bool :=
  match cs with
  | 'v' :: rest =>
    let digits := rest.takeWhile fun c => (Json.hexValue? c).isSome
    match digits, rest.drop digits.length with
    | _ :: _, '.' :: _ :: _ => true
    | _, _ => false
  | _ => false

end Uri
end Testbed

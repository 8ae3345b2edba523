import Testbed.Log.Layout

/-!
# Message templates

A template is text with slots such as `%s` or `%-5d`.  `fill` puts the arguments into the slots
from left to right; without arguments a template is plain text.
-/

namespace Testbed
namespace Template

/-- A slot: which argument it takes and how that is laid out.  Width and precision may themselves
be taken from the arguments. -/
structure Slot extends Layout where
  /-- The field of an object of arguments. -/
  key : Option String := none
  takesWidth : Bool := false
  takesPrecision : Bool := false
  deriving Repr, DecidableEq

/-- A piece of a template; the last one may be a slot that is cut off, also inside its key. -/
inductive Piece where
  | text (cs : List Char)
  | slot (s : Slot) (conversion : Char) (position : Nat)
  | cutOff (s : Slot)
  | openKey
  deriving Repr, DecidableEq

/-! ## Reading -/

/-- The part of a slot that has been read last. -/
inductive Part where
  | start
  | key
  | flags
  | width
  | fullWidth
  | point
  | precision
  | fullPrecision
  | size
  deriving Repr, DecidableEq

/-- The number with one more digit. -/
def extend (n : Nat) (c : Char) : Nat := n * 10 + (c.toNat - '0'.toNat)

/-- A letter of size says nothing and there may be one. -/
def Slot.addSize (s : Slot) (c : Char) : Option (Slot × Part) :=
  if c == 'h' || c == 'l' || c == 'L' then some (s, .size) else none

/-- A point opens the precision. -/
def Slot.addPoint (s : Slot) (c : Char) : Option (Slot × Part) :=
  if c == '.' then some ({ s with precision := some 0 }, .point) else s.addSize c

/-- A digit of the precision. -/
def Slot.addPrecision (s : Slot) (c : Char) : Option (Slot × Part) :=
  if c.isDigit then some ({ s with precision := some (extend (s.precision.getD 0) c) }, .precision)
  else s.addSize c

/-- A flag, or the start of the width. -/
def Slot.addFlag (s : Slot) (c : Char) : Option (Slot × Part) :=
  if c == '-' then some ({ s with left := true }, .flags)
  else if c == '+' then some ({ s with plus := true }, .flags)
  else if c == ' ' then some ({ s with space := true }, .flags)
  else if c == '#' then some ({ s with alternate := true }, .flags)
  else if c == '0' then some ({ s with zero := true }, .flags)
  else if c == '*' then some ({ s with takesWidth := true }, .fullWidth)
  else if c.isDigit then some ({ s with width := extend 0 c }, .width)
  else s.addPoint c

/-- The slot with one more character of its layout; none if the character is the conversion. -/
def Slot.add (s : Slot) (part : Part) (c : Char) : Option (Slot × Part) :=
  match part with
  | .start | .key | .flags => s.addFlag c
  | .width =>
    if c.isDigit then some ({ s with width := extend s.width c }, .width) else s.addPoint c
  | .fullWidth => s.addPoint c
  | .point =>
    if c == '*' then some ({ s with takesPrecision := true }, .fullPrecision)
    else s.addPrecision c
  | .precision => s.addPrecision c
  | .fullPrecision => s.addSize c
  | .size => none

/-- What the reader of a template is in the middle of; a key may hold pairs of parentheses. -/
inductive Reading where
  | text (seen : List Char)
  | slot (s : Slot) (part : Part)
  | key (seen : List Char) (depth : Nat)

/-- A piece of text, unless it is empty. -/
def textPiece (seen : List Char) : List Piece :=
  if seen.isEmpty then [] else [.text seen.reverse]

/-- The pieces of a template from a position on. -/
def piecesFrom (position : Nat) : Reading → List Char → List Piece
  | .text seen, [] => textPiece seen
  | .slot s _, [] => [.cutOff s]
  | .key _ _, [] => [.openKey]
  | .text seen, c :: cs =>
    if c == '%' then textPiece seen ++ piecesFrom (position + 1) (.slot {} .start) cs
    else piecesFrom (position + 1) (.text (c :: seen)) cs
  | .key seen depth, c :: cs =>
    if c == ')' && depth == 0 then
      piecesFrom (position + 1) (.slot { key := some (String.ofList seen.reverse) } .key) cs
    else
      let depth := if c == '(' then depth + 1 else if c == ')' then depth - 1 else depth
      piecesFrom (position + 1) (.key (c :: seen) depth) cs
  | .slot s part, c :: cs =>
    if c == '(' && part == .start then piecesFrom (position + 1) (.key [] 0) cs
    else if c == '%' && part == .start then
      .text ['%'] :: piecesFrom (position + 1) (.text []) cs
    else
      match s.add part c with
      | some (s, part) => piecesFrom (position + 1) (.slot s part) cs
      | none => .slot s c position :: piecesFrom (position + 1) (.text []) cs

/-- The pieces of a template. -/
def pieces (template : String) : List Piece := piecesFrom 0 (.text []) template.toList

/-! ## Filling -/

/-- The arguments: values that are left, or an object whose fields slots may name, with what a slot
without a name would take. -/
inductive Arguments where
  | values (left : List Json)
  | fields (j : Json) (next : Option Json)
  deriving Repr

/-- The arguments of a list; a single object that is not empty is taken by field. -/
def Arguments.of : List Json → Arguments
  | [.obj (f :: fs)] => .fields (.obj (f :: fs)) (some (.obj (f :: fs)))
  | xs => .values xs

/-- The arguments with the field that a slot names as the next one. -/
def Arguments.select (a : Arguments) : Option String → Except Fault Arguments
  | none => .ok a
  | some key =>
    match a with
    | .values _ => .error (Argument.unsuitable "format requires a mapping")
    | .fields j _ =>
      match j.get? key with
      | some v => .ok (.fields j (some v))
      | none => .error (.of .key key)

/-- The next argument and those that are left. -/
def Arguments.next : Arguments → Except Fault (Json × Arguments)
  | .values (x :: rest) => .ok (x, .values rest)
  | .fields j (some x) => .ok (x, .fields j none)
  | _ => .error (Argument.unsuitable "not enough arguments for format string")

/-- The next argument as a size, if one is asked for. -/
def Arguments.size (a : Arguments) (asked : Bool) : Except Fault (Option Int × Arguments) :=
  if !asked then .ok (none, a)
  else do
    match ← a.next with
    | (.int n, a) => .ok (some n, a)
    | (.bool b, a) => .ok (some (if b then 1 else 0), a)
    | _ => .error (Argument.unsuitable "* wants int")

/-- The layout of a slot whose sizes may come from the arguments: a negative width aligns to the
left and a negative precision counts as zero. -/
def Slot.layout (s : Slot) (a : Arguments) : Except Fault (Layout × Arguments) := do
  let (width, a) ← (← a.select s.key).size s.takesWidth
  let (precision, a) ← a.size s.takesPrecision
  let l := s.toLayout
  let l := match width with
    | some n => { l with width := n.natAbs, left := l.left || n < 0 }
    | none => l
  let l := match precision with
    | some n => { l with precision := some n.toNat }
    | none => l
  .ok (l, a)

/-- The error of a conversion that is not known. -/
def unknown (conversion : Char) (position : Nat) : Fault :=
  let n := conversion.toNat
  let shown := if 31 ≤ n && n < 126 then conversion else '?'
  let code := String.ofList (Nat.toDigits 16 n)
  .of .value s!"unsupported format character '{shown}' (0x{code}) at index {position}"

/-- The text of pieces filled with arguments. -/
def fillPieces (a : Arguments) : List Piece → Except Fault (List Char)
  | [] =>
    match a with
    | .values (_ :: _) =>
      .error (Argument.unsuitable "not all arguments converted during string formatting")
    | _ => .ok []
  | .text cs :: rest => do .ok (cs ++ (← fillPieces a rest))
  | .slot s c position :: rest => do
    let (layout, a) ← s.layout a
    let (value, a) ← a.next
    if !Layout.conversions.contains c then .error (unknown c position)
    let text ← Layout.put layout c value
    .ok (text ++ (← fillPieces a rest))
  | .cutOff s :: _ => do
    let _ ← s.layout a
    .error (.of .value "incomplete format")
  | .openKey :: _ =>
    match a with
    | .values _ => .error (Argument.unsuitable "format requires a mapping")
    | .fields .. => .error (.of .value "incomplete format key")

/-- A template filled with arguments; without arguments it is plain text. -/
def fill (template : String) (arguments : List Json) : Except Fault String :=
  if arguments.isEmpty then .ok template
  else (fillPieces (.of arguments) (pieces template)).map String.ofList

example : piecesFrom 0 (.text []) ['a', '%', '5', 'd'] =
    [.text ['a'], .slot { width := 5 } 'd' 3] := by decide
example : piecesFrom 0 (.text []) ['%', '%', 's'] = [.text ['%'], .text ['s']] := by decide
example : piecesFrom 0 (.text []) ['%', '-'] = [.cutOff { left := true }] := by decide

end Template
end Testbed

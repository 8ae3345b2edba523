import Testbed.Text.Blank
import Testbed.Text.Occurrence
import Testbed.Json.Basic

/-!
# Environment files

Reading of files that bind names to texts, one binding a line.  A value may be quoted; in double
quotes escapes are replaced, in single quotes only the quote and the backslash are.  A comment
starts with `#`, in an unquoted value only after a blank.  A name in braces after a dollar sign
stands for the value of that name.
-/

namespace Testbed
namespace Dotenv

/-- A blank other than a line end. -/
def isSpace (c : Char) : Bool := Text.isBlank c && c != '\n' && c != '\r'

/-- The text with every line end as one character. -/
def joinLineEnds : List Char → List Char
  | [] => []
  | '\r' :: '\n' :: rest => '\n' :: joinLineEnds rest
  | '\r' :: rest => '\n' :: joinLineEnds rest
  | c :: rest => c :: joinLineEnds rest

/-- The text after the first line end. -/
def afterLine (cs : List Char) : List Char := (cs.dropWhile (· != '\n')).drop 1

/-- The text up to a closing quote and what follows it; a quote after a backslash closes nothing. -/
def readQuoted (quote : Char) : List Char → Option (List Char × List Char)
  | [] => none
  | '\\' :: c :: rest =>
    if c == quote then (readQuoted quote rest).map fun r => ('\\' :: c :: r.1, r.2)
    else (readQuoted quote (c :: rest)).map fun r => ('\\' :: r.1, r.2)
  | c :: rest =>
    if c == quote then some ([], rest)
    else (readQuoted quote rest).map fun r => (c :: r.1, r.2)
termination_by cs => cs.length

/-- The character that a letter after a backslash stands for inside double quotes. -/
def escape? : Char → Option Char
  | '\\' => some '\\'
  | '\'' => some '\''
  | '"' => some '"'
  | 'a' => some (Char.ofNat 7)
  | 'b' => some (Char.ofNat 8)
  | 'f' => some (Char.ofNat 12)
  | 'n' => some '\n'
  | 'r' => some '\r'
  | 't' => some '\t'
  | 'v' => some (Char.ofNat 11)
  | _ => none

/-- The text with the escapes of a kind of quotes replaced. -/
def unescape (known : Char → Option Char) : List Char → List Char
  | [] => []
  | '\\' :: c :: rest =>
    match known c with
    | some x => x :: unescape known rest
    | none => '\\' :: unescape known (c :: rest)
  | c :: rest => c :: unescape known rest
termination_by cs => cs.length

/-- The text before a comment, which starts at blanks followed by `#`. -/
def dropComment : List Char → List Char
  | [] => []
  | c :: rest =>
    if Text.isBlank c && (rest.dropWhile Text.isBlank).head? == some '#' then []
    else c :: dropComment rest

/-- The value at the head of a text and what follows it. -/
def readValue (cs : List Char) : Option (List Char × List Char) :=
  match cs with
  | '\'' :: rest =>
    (readQuoted '\'' rest).map fun r =>
      (unescape (fun c => if c == '\'' || c == '\\' then some c else none) r.1, r.2)
  | '"' :: rest => (readQuoted '"' rest).map fun r => (unescape escape? r.1, r.2)
  | _ =>
    let line := cs.takeWhile (· != '\n')
    some (Text.trimRight Text.isBlank (dropComment line), cs.drop line.length)

/-- The text after the word `export` and blanks. -/
def dropExport (cs : List Char) : List Char :=
  match Text.dropPrefix? "export".toList cs with
  | some (c :: rest) => if isSpace c then rest.dropWhile isSpace else cs
  | _ => cs

/-- The name at the head of a text; a comment has none. -/
def readName (cs : List Char) : Option (Option (List Char) × List Char) :=
  match cs with
  | '#' :: _ => some (none, cs)
  | '\'' :: rest =>
    let name := rest.takeWhile (· != '\'')
    if name.isEmpty || name.length == rest.length then none
    else some (some name, rest.drop (name.length + 1))
  | _ =>
    let name := cs.takeWhile fun c => !(c == '=' || c == '#' || Text.isBlank c)
    if name.isEmpty then none else some (some name, cs.drop name.length)

/-- The text after an optional comment and the end of the line. -/
def endLine (cs : List Char) : Option (List Char) :=
  let cs := cs.dropWhile isSpace
  let cs := if cs.head? == some '#' then cs.dropWhile (· != '\n') else cs
  match cs with
  | [] => some []
  | '\n' :: rest => some rest
  | _ => none

/-- The binding on the line at the head of a text, and what follows the line. -/
def readLine (cs : List Char) : Option (Option (List Char × Option (List Char)) × List Char) := do
  let (name, rest) ← readName (dropExport cs)
  let rest := rest.dropWhile isSpace
  let (value, rest) ← match rest with
    | '=' :: more => (readValue (more.dropWhile isSpace)).map fun r => (some r.1, r.2)
    | _ => some (none, rest)
  let rest ← endLine rest
  some (name.map fun n => (n, value), rest)

/-- All bindings of a text; a malformed line is passed over. -/
def bindings : Nat → List Char → List (List Char × Option (List Char))
  | 0, _ => []
  | fuel + 1, cs =>
    let cs := cs.dropWhile Text.isBlank
    if cs.isEmpty then []
    else
      match readLine cs with
      | some (some b, rest) => b :: bindings fuel rest
      | some (none, rest) => bindings fuel rest
      | none => bindings fuel (afterLine cs)

/-- The text with references to names replaced by their values. -/
def interpolate (value : String → Option String) : Nat → List Char → List Char
  | 0, cs => cs
  | _, [] => []
  | fuel + 1, '$' :: '\x7b' :: rest =>
    let body := rest.takeWhile (· != '\x7d')
    let name := body.takeWhile (· != ':')
    let fallback := body.drop name.length
    let sound := body.length < rest.length &&
      (fallback.isEmpty || [':', '-'].isPrefixOf fallback)
    if sound then
      let found := (value (String.ofList name)).map String.toList
      found.getD (fallback.drop 2) ++ interpolate value fuel (rest.drop (body.length + 1))
    else '$' :: interpolate value fuel ('\x7b' :: rest)
  | fuel + 1, c :: rest => c :: interpolate value fuel rest

/-- The names and texts that a file binds; of several bindings of a name the last one counts, and
a name without a value unbinds. -/
def read (environment : List (String × String)) (text : String) : List (String × String) :=
  let cs := joinLineEnds text.toList
  (bindings (cs.length + 1) cs).foldl (fun found b =>
    let name := String.ofList b.1
    let value (n : String) : Option String := Json.lookup n found <|> Json.lookup n environment
    let others := found.filter fun f => f.1 != name
    match b.2 with
    | none => others
    | some v => others ++ [(name, String.ofList (interpolate value (v.length + 1) v))]) []

end Dotenv
end Testbed

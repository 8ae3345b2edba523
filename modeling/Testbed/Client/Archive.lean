import Testbed.Engine.Request
import Testbed.Text.Occurrence
import Testbed.Fault.Basic

/-!
# Archives

The archive that copies one file into a container: every directory above the file, outermost
first, and then the file, all with one owner.
-/

namespace Testbed
namespace Archive

/-- An absolute or relative path of a container: its leading slashes and its names. -/
structure Path where
  root : String
  names : List String
  deriving Repr, DecidableEq

namespace Path

/-- Reads a path; empty names and points are left out, and exactly two leading slashes make a
root of their own. -/
def parse (text : String) : Path :=
  let cs := text.toList
  let slashes := (cs.takeWhile (· == '/')).length
  let root := if slashes == 0 then "" else if slashes == 2 then "//" else "/"
  let names := (Text.pieces (· == '/') cs).map String.ofList
  ⟨root, names.filter fun n => !n.isEmpty && n != "."⟩

/-- The path in its plain form. -/
def text (p : Path) : String :=
  if p.root.isEmpty && p.names.isEmpty then "." else p.root ++ "/".intercalate p.names

/-- The last name of the path. -/
def name (p : Path) : String := (p.names.getLast?).getD ""

end Path

/-- The directories above a path of names, outermost first. -/
def above (names : List String) : List String :=
  (List.range names.length).drop 1 |>.map fun k => "/".intercalate (names.take k)

/-- The name of the file under the root. -/
def fileName (names : List String) : String :=
  if names.isEmpty then "." else "/".intercalate names

/-- The mode of directories. -/
def directoryMode : Nat := 493

/-- The mode of files. -/
def fileMode : Nat := 420

/-- The members of the archive that copies a file with a given content and owner. -/
def members (names : List String) (data : List UInt8) (uid gid : Int) : List Engine.Member :=
  (above names).map (fun n => ⟨n, none, directoryMode, uid, gid⟩) ++
    [⟨fileName names, some data, fileMode, uid, gid⟩]

/-- The names under the root of a path that is absolute. -/
def relative (text : String) : Except Fault (List String) :=
  let p := Path.parse text
  if p.root.isEmpty then .error (.of .value s!"Container path must be absolute: {text}")
  else if p.root == "//" then
    .error (.of .value (s!"{Text.quoted p.text} is not in the subpath of '/' OR one path is " ++
      "relative and the other is absolute."))
  else .ok p.names

end Archive
end Testbed

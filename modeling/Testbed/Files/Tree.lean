import Testbed.Fault.Basic
import Testbed.Text.Occurrence

/-!
# Files

A tree of files, directories and symbolic links under a home directory, which is the current
directory.  `resolve` follows a path to what exists; its errors name the path as far as it was
walked.
-/

namespace Testbed
namespace Files

/-- What stands at a path. -/
inductive Node where
  | file (content : List UInt8)
  | directory
  | link (target : String)
  deriving Repr

/-- Why the operating system refuses a path. -/
inductive Refusal where
  | missing
  | present
  | notDirectory
  | isDirectory
  | tooLong
  | tooManyLinks
  deriving Repr, DecidableEq

/-- The kind of the error that reports a refusal. -/
def Refusal.kind : Refusal → Fault.Kind
  | missing => .noSuchFile
  | present => .fileExists
  | notDirectory => .notADirectory
  | isDirectory => .isADirectory
  | tooLong | tooManyLinks => .os

/-- The number and the words of a refusal. -/
def Refusal.words : Refusal → Nat × String
  | missing => (2, "No such file or directory")
  | present => (17, "File exists")
  | notDirectory => (20, "Not a directory")
  | isDirectory => (21, "Is a directory")
  | tooLong => (36, "File name too long")
  | tooManyLinks => (40, "Too many levels of symbolic links")

/-- The error of a refused path. -/
def Refusal.fault (r : Refusal) (path : String) : Fault :=
  let (number, words) := r.words
  .of r.kind s!"[Errno {number}] {words}: {Text.quoted path}"

/-- Why a path leads nowhere, with the path as far as it was walked. -/
inductive Problem where
  | refused (r : Refusal) (path : String)
  | loop (path : String)
  | nullCharacter
  deriving Repr, DecidableEq

/-- The error that reports a problem. -/
def Problem.fault : Problem → Fault
  | refused r path => r.fault path
  | loop path => .of .runtime s!"Symlink loop from {Text.quoted path}"
  | nullCharacter => .of .value "embedded null byte"

end Files

/-- The nodes under a home directory, each under the names that lead to it. -/
structure Files where
  home : String := ""
  nodes : List (List String × Files.Node) := []
  deriving Repr

namespace Files

/-- A place in the tree: the names that lead to it from the home directory or from the root. -/
structure Place where
  rooted : Bool := false
  names : List String := []
  deriving Repr, DecidableEq

namespace Place

/-- The path of a place, relative to the home directory. -/
def path (p : Place) : String :=
  (if p.rooted then "/" else "") ++ "/".intercalate p.names

/-- The directory above; above the root is the root. -/
def parent (p : Place) : Place :=
  if p.names.isEmpty || p.names.getLast? == some ".." then
    if p.rooted then p else { p with names := p.names ++ [".."] }
  else { p with names := p.names.dropLast }

/-- The place under a name. -/
def child (p : Place) (name : String) : Place := { p with names := p.names ++ [name] }

end Place

/-- What stands at a place; the home directory and the root always stand. -/
def node? (fs : Files) (p : Place) : Option Node :=
  if p.names.isEmpty then some .directory
  else if p.rooted then none
  else (fs.nodes.find? fun n => n.1 == p.names).map Prod.snd

/-- What stands at a place, or why it cannot be reached. -/
def look (fs : Files) (p : Place) : Except Problem Node :=
  match p.names.getLast? with
  | none => .ok .directory
  | some name =>
    if name.contains (Char.ofNat 0) then .error .nullCharacter
    else
      match fs.node? { p with names := p.names.dropLast } with
      | some (.file _) => .error (.refused .notDirectory p.path)
      | _ =>
        if 255 < name.utf8ByteSize then .error (.refused .tooLong p.path)
        else
          match fs.node? p with
          | some n => .ok n
          | none => .error (.refused .missing p.path)

/-- The names of a path. -/
def namesOf (path : String) : List String :=
  (Text.pieces (· == '/') path.toList).map String.ofList

/-- The place where a path starts when it is read at a place. -/
def startOf (p : Place) (path : String) : Place :=
  if path.startsWith "/" then ⟨true, []⟩ else p

/-- Walks names from a place, following at most `depth` links inside links; `pending` are the
links that are being followed. -/
def walk (fs : Files) (depth : Nat) (pending : List Place) (p : Place) :
    List String → Except Problem Place
  | [] => .ok p
  | name :: rest =>
    if name.isEmpty || name == "." then fs.walk depth pending p rest
    else if name == ".." then fs.walk depth pending p.parent rest
    else do
      match ← fs.look (p.child name) with
      | .link target =>
        if pending.contains (p.child name) then .error (.loop (p.child name).path)
        else
          match depth with
          | 0 => .error (.loop (p.child name).path)
          | depth + 1 => do
            let q ← fs.walk depth (p.child name :: pending) (startOf p target) (namesOf target)
            fs.walk (depth + 1) pending q rest
      | _ => fs.walk depth pending (p.child name) rest
termination_by names => (depth, names.length)

/-- The place that a path leads to. -/
def resolve (fs : Files) (path : String) : Except Fault Place :=
  (fs.walk fs.nodes.length [] (startOf {} path) (namesOf path)).mapError Problem.fault

/-- The full path of a place. -/
def absolute (fs : Files) (p : Place) : String :=
  if p.rooted then p.path
  else if p.names.isEmpty then fs.home
  else fs.home ++ "/" ++ p.path

/-- A directory stands at a place. -/
def isDirectory (fs : Files) (p : Place) : Bool :=
  match fs.node? p with
  | some .directory => true
  | _ => false

/-- The content of the file at a place. -/
def read (fs : Files) (p : Place) : Except Fault (List UInt8) :=
  match fs.node? p with
  | some (.file content) => .ok content
  | some _ => .error (Refusal.isDirectory.fault (fs.absolute p))
  | none => .error (Refusal.missing.fault (fs.absolute p))

/-- The tree with a node at the place of a path and directories above it. -/
def add (fs : Files) (path : String) (n : Node) : Files :=
  let names := (namesOf path).filter fun s => !s.isEmpty && s != "."
  let above := (List.range names.length).drop 1 |>.map fun k => (names.take k, Node.directory)
  let fresh := above.filter fun d => !fs.nodes.any fun m => m.1 == d.1
  { fs with nodes := (fs.nodes.filter fun m => m.1 != names) ++ fresh ++ [(names, n)] }

end Files
end Testbed

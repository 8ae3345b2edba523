import Testbed.Files.Tree
import Testbed.Text.Utf8

/-!
# Writing files

Making directories, and appending to, moving and removing files.  A refused path is named as it
was given when directories are made or files are read, and in full when a file is opened for
writing.
-/

namespace Testbed
namespace Files

/-- The names of a path in its plain form. -/
def plainNames (path : String) : List String :=
  (namesOf path).filter fun s => !s.isEmpty && s != "."

/-- A path in its plain form. -/
def plainPath (rooted : Bool) (names : List String) : String :=
  if names.isEmpty then (if rooted then "/" else ".") else Place.path ⟨rooted, names⟩

/-- The place that names lead to. -/
def reach (fs : Files) (rooted : Bool) (names : List String) : Except Problem Place :=
  fs.walk fs.nodes.length [] ⟨rooted, []⟩ names

/-- The problem, named for a path that was given. -/
def Problem.named (path : String) : Problem → Problem
  | refused r _ => refused r path
  | loop _ => refused .tooManyLinks path
  | nullCharacter => nullCharacter

/-- The tree with what stands at a place replaced. -/
def put (fs : Files) (p : Place) (n : Node) : Files :=
  { fs with nodes := (fs.nodes.filter fun m => m.1 != p.names) ++ [(p.names, n)] }

/-- The tree without what stands at a place. -/
def remove (fs : Files) (p : Place) : Files :=
  { fs with nodes := fs.nodes.filter fun m => m.1 != p.names }

/-- The directory at a path under a directory; it may stand already. -/
def makeDirectory (fs : Files) (rooted : Bool) (names : List String) (above : Place)
    (name : String) : Except Problem Files :=
  let path := plainPath rooted names
  if name == ".." then .ok fs
  else
    match fs.look (above.child name) with
    | .ok .directory => .ok fs
    | .ok (.file _) => .error (.refused .present path)
    | .ok (.link _) =>
      match fs.reach rooted names with
      | .ok p => if fs.isDirectory p then .ok fs else .error (.refused .present path)
      | .error _ => .error (.refused .present path)
    | .error (.refused .missing _) => .ok (fs.put (above.child name) .directory)
    | .error p => .error (p.named path)

/-- The directory at a path and those above it, made where they are missing; the names of the path
come innermost first. -/
def makeDirectories (fs : Files) (rooted : Bool) : List String → Except Problem Files
  | [] => .ok fs
  | name :: above =>
    let names := (name :: above).reverse
    match fs.reach rooted above.reverse with
    | .ok p => fs.makeDirectory rooted names p name
    | .error (.refused .missing _) => do
      let fs ← fs.makeDirectories rooted above
      let p ← fs.reach rooted above.reverse
      fs.makeDirectory rooted names p name
    | .error p => .error (p.named (plainPath rooted names))

/-- The names of a path without steps up, which cancel the name before them. -/
def withoutSteps (names : List String) : List String :=
  names.foldl (fun acc n => if n == ".." then acc.dropLast else acc ++ [n]) []

/-- The place of the file that is written at a place: at most `depth` links are followed, and the
last one may lead to a file that is missing. -/
def written (fs : Files) (p : Place) : Nat → Except Problem Place
  | 0 => .error (.loop p.path)
  | depth + 1 =>
    match fs.look p with
    | .ok (.link target) => do
      let names := plainNames target
      let above ← fs.walk fs.nodes.length [] (startOf p.parent target) names.dropLast
      match names.getLast? with
      | none => .ok above
      | some ".." => .ok above.parent
      | some name => fs.written (above.child name) depth
    | .ok _ | .error (.refused .missing _) => .ok p
    | .error e => .error e

/-- The file at a path, made if it is missing, with the directories above it. -/
def openFile (fs : Files) (path : String) : Except Problem (Place × Files) := do
  let rooted := path.startsWith "/"
  let names := plainNames path
  let fs ← fs.makeDirectories rooted names.dropLast.reverse
  let names := withoutSteps names
  let full := fs.absolute ⟨rooted, names⟩
  let above ← (fs.reach rooted names.dropLast).mapError (Problem.named full)
  match names.getLast? with
  | none => .error (.refused .isDirectory full)
  | some name =>
    let p := above.child name
    let q ← (fs.written p (fs.nodes.length + 1)).mapError (Problem.named full)
    match fs.look q with
    | .ok (.file _) => .ok (p, fs)
    | .ok _ => .error (.refused .isDirectory full)
    | .error (.refused .missing _) => .ok (p, fs.put q (.file []))
    | .error e => .error (e.named full)

/-- The content of the file at a place, through links; what is no file has none. -/
def content (fs : Files) (p : Place) : List UInt8 :=
  match (fs.written p (fs.nodes.length + 1)).toOption.bind fs.node? with
  | some (.file content) => content
  | _ => []

/-- The tree with text appended to the file at a place, through links. -/
def append (fs : Files) (p : Place) (text : String) : Files :=
  match fs.written p (fs.nodes.length + 1) with
  | .ok q => fs.put q (.file (fs.content q ++ Text.utf8 text))
  | .error _ => fs

/-- The tree with a file moved over another one; a file that is missing moves nothing. -/
def move (fs : Files) (source target : Place) : Files :=
  match fs.node? source with
  | some n => (fs.remove source).put target n
  | none => fs

/-- The place that a path leads to; a refusal names the path as it was given. -/
def follow (fs : Files) (path : String) : Except Fault Place :=
  let rooted := path.startsWith "/"
  let names := plainNames path
  (fs.reach rooted names).mapError fun p => (p.named (plainPath rooted names)).fault

/-- The names and sizes in the directory at a path, in order. -/
def listing (fs : Files) (path : String) : Except Fault (List (String × Nat)) := do
  let p ← fs.follow path
  if fs.isDirectory p then
    let inside := fs.nodes.filterMap fun n =>
      if n.1.dropLast == p.names && !n.1.isEmpty then
        n.1.getLast?.map fun name => (name, (fs.content ⟨p.rooted, n.1⟩).length)
      else none
    .ok (inside.mergeSort fun a b => !(b.1 < a.1))
  else .error (Refusal.notDirectory.fault path)

/-- The text of the file at a path. -/
def readText (fs : Files) (path : String) : Except Fault (List Char) := do
  let p ← fs.follow path
  match fs.node? p with
  | some (.file content) => .ok (Text.decodeReplacing content)
  | _ => .error (Refusal.isDirectory.fault path)

end Files
end Testbed

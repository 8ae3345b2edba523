import Testbed.Files.Writing

/-!
# Rotated log files

A log file is bounded: a line that would make it reach its bound goes to a new file, the old one
moves to the first backup and every backup to the next.  A file without backups is not bounded.
-/

namespace Testbed

/-- A log file: its place, its bound in bytes and how many backups are kept. -/
structure LogFile where
  place : Files.Place
  maxBytes : Int
  backups : Nat
  deriving Repr

namespace LogFile

/-- The place of a backup. -/
def backup (f : LogFile) (n : Nat) : Files.Place :=
  let name := (f.place.names.getLast?).getD ""
  { f.place with names := f.place.names.dropLast ++ [s!"{name}.{n}"] }

/-- A line with a number of characters does not fit into the file. -/
def isFull (f : LogFile) (fs : Files) (characters : Nat) : Bool :=
  let size : Nat := (fs.content f.place).length + characters
  0 < f.maxBytes && 0 < f.backups && f.maxBytes ≤ size

/-- The tree with the backups from `n` down to the first moved on by one. -/
def shift (f : LogFile) (fs : Files) : Nat → Files
  | 0 => fs
  | n + 1 => f.shift (fs.move (f.backup (n + 1)) (f.backup (n + 2))) n

/-- The tree with the file turned into the first backup and an empty file in its place. -/
def rotate (f : LogFile) (fs : Files) : Files :=
  let fs := f.shift fs (f.backups - 1)
  (fs.move f.place (f.backup 1)).put f.place (.file [])

/-- The tree with a line written to the file. -/
def write (f : LogFile) (fs : Files) (line : String) : Files :=
  let fs := if f.isFull fs line.length then f.rotate fs else fs
  fs.append f.place line

end LogFile
end Testbed

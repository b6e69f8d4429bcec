import CsvImport.Table
import CsvImport.Text.Utf8

/-!
# Disks

A disk is a tree of directories and files, kept as a list of paths.  A path is
the list of names from the root; the root itself is always there.
-/

namespace CsvImport

inductive DiskEntry where
  | directory
  | file (bytes : Bytes)
deriving DecidableEq, Repr, Inhabited

abbrev DiskPath := List String

inductive PathProblem where
  /-- There is no such entry. -/
  | missing
  /-- A file is in the way, or the path itself is refused. -/
  | blocked
deriving DecidableEq, Repr, Inhabited

/-- The entries of a disk, each path once. -/
structure Disk where
  entries : Table DiskPath DiskEntry := []
deriving DecidableEq, Repr, Inhabited

namespace Disk

def get? (disk : Disk) (path : DiskPath) : Option DiskEntry :=
  if path = [] then some .directory else disk.entries.lookup path

/-- Put an entry at a path, in place of the one there. -/
def set (disk : Disk) (path : DiskPath) (entry : DiskEntry) : Disk :=
  ⟨disk.entries.put path entry⟩

def remove (disk : Disk) (path : DiskPath) : Disk :=
  ⟨disk.entries.filter fun old => !path.isPrefixOf old.1⟩

/-- An entry is found where it was put, and every other path keeps its entry. -/
theorem get?_set (disk : Disk) (path other : DiskPath) (entry : DiskEntry) :
    (disk.set path entry).get? other =
      if other = [] then some .directory
      else if other == path then some entry else disk.get? other := by
  unfold get? set
  split
  · rfl
  · exact Table.lookup_put disk.entries path other entry

def names (disk : Disk) (path : DiskPath) : List String :=
  disk.entries.filterMap fun entry =>
    if entry.1.dropLast = path then entry.1.getLast? else none

/-! ## Following paths -/

def longestName : Nat := 255

def accepts (name : String) : Bool :=
  (Utf8.encode name).length ≤ longestName && !name.toList.contains (Char.ofNat 0)

/--
Follow the steps of a path from a directory, where `..` leads one directory up.  The
answer is the path without such steps and what stands there.
-/
def follow (disk : Disk) (here : DiskPath) :
    List String → Except PathProblem (DiskPath × DiskEntry)
  | [] => .ok (here, .directory)
  | step :: rest =>
      if step = ".." then disk.follow here.dropLast rest
      else if !accepts step then .error .blocked
      else
        let there := here ++ [step]
        match disk.get? there with
        | none => .error .missing
        | some .directory => disk.follow there rest
        | some (.file bytes) =>
            if rest.isEmpty then .ok (there, .file bytes) else .error .blocked

/--
Follow the steps of a path from a directory and make every directory that is not
there yet.  Directories made before a file is met stay.
-/
def makeDirectories (disk : Disk) (here : DiskPath) :
    List String → Except PathProblem DiskPath × Disk
  | [] => (.ok here, disk)
  | step :: rest =>
      if step = ".." then disk.makeDirectories here.dropLast rest
      else if !accepts step then (.error .blocked, disk)
      else
        let there := here ++ [step]
        match disk.get? there with
        | none => (disk.set there .directory).makeDirectories there rest
        | some .directory => disk.makeDirectories there rest
        | some (.file _) => (.error .blocked, disk)

def read (disk : Disk) (steps : List String) : Except PathProblem Bytes :=
  match disk.follow [] steps with
  | .ok (_, .file bytes) => .ok bytes
  | .ok (_, .directory) => .error .missing
  | .error problem => .error problem

/-- Write the file `name` in a directory; it may replace a file, but not a directory. -/
def writeIn (disk : Disk) (directory : DiskPath) (name : String) (bytes : Bytes) :
    Except PathProblem Disk :=
  let path := directory ++ [name]
  if !accepts name then .error .blocked
  else
    match disk.get? path with
    | some .directory => .error .blocked
    | _ => .ok (disk.set path (.file bytes))

end Disk

end CsvImport

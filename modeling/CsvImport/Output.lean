import CsvImport.Session
import CsvImport.Sink

/-!
# Outputs

The documents of a job go to a sink, or to a file on disk.  A file is written through
a buffer, so that the disk lags behind until the buffer overflows or is flushed.
-/

namespace CsvImport

inductive Output where
  | sink (sink : Sink)
  /-- A file, and the bytes that are not on disk yet. -/
  | file (path : DiskPath) (buffered : Bytes)
deriving DecidableEq, Repr, Inhabited

namespace Output

def bufferSize : Nat := 8192

def rule : WriteRule := { nothingTaken := "write zero", persists := false }

/-- How many writes the output has taken, as far as it counts them. -/
def writes : Output → Nat
  | sink s => s.writes
  | file .. => 0

def append (disk : Disk) (path : DiskPath) (bytes : Bytes) : Disk :=
  match disk.get? path with
  | some (.file before) => disk.set path (.file (before ++ bytes))
  | _ => disk

def appendIn (session : Session) (path : DiskPath) (bytes : Bytes) : Session :=
  { session with store := { session.store with disk := append session.store.disk path bytes } }

def writeAll (output : Output) (session : Session) (bytes : Bytes) :
    Except String Unit × Output × Session :=
  match output with
  | sink s =>
      let (result, s) := s.writeAll rule bytes
      (result, sink s, session)
  | file path buffered =>
      let (buffered, session) :=
        if buffered.length + bytes.length ≤ bufferSize then (buffered, session)
        else ([], appendIn session path buffered)
      if bytes.length < bufferSize then (.ok (), file path (buffered ++ bytes), session)
      else (.ok (), file path buffered, appendIn session path bytes)

def flush (output : Output) (session : Session) : Except String Unit × Output × Session :=
  match output with
  | sink s =>
      let (result, s) := s.flush
      (result, sink s, session)
  | file path buffered => (.ok (), file path [], appendIn session path buffered)

/-- The directory and the name of the file at a path; a path that ends in no name has none. -/
def target? (path : String) : List (List Char) × Option String :=
  let pieces := piecesOf path.toList
  match (Location.trimPieces pieces).reverse with
  | [] => ([], none)
  | last :: before =>
      let named := pieces.getLast? = some last ∧ last ≠ ['.', '.']
      (Location.trimPieces before.reverse, if named then some (String.ofList last) else none)

/--
Make or empty the file at a path and make the directories it needs.  Nothing is
returned if there can be no such file.
-/
def create? (store : Store) (path : String) : Option Output × Store :=
  let (parent, name) := target? path
  let parentText := String.ofList (joinPieces parent)
  if parentText.toList.contains (Char.ofNat 0) then (none, store)
  else
    let absolute := path.toList.head? = some '/'
    let steps := Store.steps parentText
    let steps := if absolute then steps else Store.steps store.workingDirectory ++ steps
    match store.disk.makeDirectories [] steps with
    | (.error _, disk) => (none, { store with disk })
    | (.ok directory, disk) =>
        match name with
        | none => (none, { store with disk })
        | some name =>
            match disk.writeIn directory name [] with
            | .error _ => (none, { store with disk })
            | .ok disk => (some (file (directory ++ [name]) []), { store with disk })

end Output

end CsvImport

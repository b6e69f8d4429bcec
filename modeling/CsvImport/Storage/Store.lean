import CsvImport.Disk
import CsvImport.Storage.Location

/-!
# Stores

Objects are kept on a disk and in one memory store that all providers share.  A
provider opens a location and reads and writes objects relative to it.
-/

namespace CsvImport

structure RequestCounts where
  getSuccesses : Nat := 0
  getErrors : Nat := 0
  putSuccesses : Nat := 0
  putErrors : Nat := 0
deriving DecidableEq, Repr, Inhabited

namespace RequestCounts

def got (counts : RequestCounts) (succeeded : Bool) : RequestCounts :=
  if succeeded then { counts with getSuccesses := counts.getSuccesses + 1 }
  else { counts with getErrors := counts.getErrors + 1 }

def put (counts : RequestCounts) (succeeded : Bool) : RequestCounts :=
  if succeeded then { counts with putSuccesses := counts.putSuccesses + 1 }
  else { counts with putErrors := counts.putErrors + 1 }

/-- The counts that are not zero, under their published names; each request has a duration. -/
def touched (counts : RequestCounts) : List (String × Nat) :=
  [("sleet_storage_requests_total,operation=get,status=success", counts.getSuccesses),
   ("sleet_storage_requests_total,operation=get,status=error", counts.getErrors),
   ("sleet_storage_requests_total,operation=put,status=success", counts.putSuccesses),
   ("sleet_storage_requests_total,operation=put,status=error", counts.putErrors),
   ("sleet_storage_request_duration_seconds,operation=get",
     counts.getSuccesses + counts.getErrors),
   ("sleet_storage_request_duration_seconds,operation=put",
     counts.putSuccesses + counts.putErrors)].filter fun entry => entry.2 != 0

end RequestCounts

/-- Every object that can be reached, and how often objects were asked for. -/
structure Store where
  disk : Disk := {}
  /-- The objects of the memory store, each key once. -/
  memory : Table Key Bytes := []
  /-- The path that relative paths start from. -/
  workingDirectory : String := "/"
  /-- Whether the writes to come are refused, first write first; later ones are not. -/
  refusals : List Bool := []
  requests : RequestCounts := {}
deriving DecidableEq, Repr, Inhabited

namespace Store

def memory? (store : Store) (key : Key) : Option Bytes :=
  store.memory.lookup key

def setMemory (store : Store) (key : Key) (bytes : Bytes) : Store :=
  { store with memory := store.memory.put key bytes }

/-- An object is found where it was put, and every other key keeps its object. -/
theorem memory?_setMemory (store : Store) (key other : Key) (bytes : Bytes) :
    (store.setMemory key bytes).memory? other =
      if other == key then some bytes else store.memory? other :=
  Table.lookup_put store.memory key other bytes

def steps (path : String) : List String :=
  ((piecesOf path.toList).filter fun piece => !Location.isVoid piece).map String.ofList

/-- The steps of a path that may be relative to the working directory. -/
def stepsFrom (store : Store) (path : String) : List String :=
  if path.toList.head? = some '/' then steps path
  else steps store.workingDirectory ++ steps path

/-- Whether a path ends in a name, so that a file can stand there. -/
def endsInName (path : String) : Bool :=
  match (piecesOf path.toList).getLast? with
  | some last => !Location.isVoid last
  | none => false

def fileAt? (store : Store) (path : String) : Option Bytes :=
  if endsInName path then (store.disk.read (store.stepsFrom path)).toOption else none

end Store

structure Provider where
  location : Location
  /-- The directory of the location on disk. -/
  root : DiskPath := []
deriving DecidableEq, Repr, Inhabited

namespace Provider

/-- Open a location; its directory is made if it is not there. -/
def ofLocation (store : Store) (location : Location) : Except StorageError Provider × Store :=
  match location with
  | .memory _ => (.ok { location }, store)
  | .disk path _ =>
      if path.toList.contains (Char.ofNat 0) then (.error .directory, store)
      else
        match store.disk.makeDirectories [] (Store.steps path) with
        | (.ok root, disk) => (.ok { location, root }, { store with disk })
        | (.error _, disk) => (.error .directory, { store with disk })

def ofUrl (store : Store) (url : String) (withKey : Bool) : Except StorageError Provider × Store :=
  match Location.parse store.workingDirectory url withKey with
  | .ok location => ofLocation store location
  | .error error => (.error error, store)

def describe (provider : Provider) : String :=
  "StorageProvider<" ++ provider.location.url ++ ">"

/-- The bytes of an object, without counting the request. -/
def fetch (provider : Provider) (store : Store) (key : Key) : Except StorageError Bytes :=
  let key := provider.location.qualify key
  match provider.location with
  | .memory _ =>
      match store.memory? key with
      | some bytes => .ok bytes
      | none => .error (.object true)
  | .disk .. =>
      if key.parts.isEmpty then .error (.object false)
      else
        match store.disk.read (provider.root ++ key.parts) with
        | .ok bytes => .ok bytes
        | .error .missing => .error (.object true)
        | .error .blocked => .error (.object false)

def get (provider : Provider) (store : Store) (key : Key) : Except StorageError Bytes × Store :=
  let result := provider.fetch store key
  (result, { store with requests := store.requests.got result.toBool })

def getObject (provider : Provider) (store : Store) : Except StorageError Bytes × Store :=
  provider.get store {}

/-- Whether an object can bear the name; while it is written its name is two bytes longer. -/
def isShort (name : String) : Bool :=
  (Utf8.encode name).length + 2 ≤ Disk.longestName

/-- Write a file below a directory, without counting the request. -/
def writeBelow (disk : Disk) (root : DiskPath) (parts : List String) (bytes : Bytes) :
    Except StorageError Unit × Disk :=
  match parts.getLast? with
  | none => (.error (.object false), disk)
  | some name =>
      match disk.makeDirectories [] (root ++ parts.dropLast) with
      | (.error _, disk) => (.error (.object false), disk)
      | (.ok directory, disk) =>
          if !isShort name then (.error (.object false), disk)
          else
            match disk.writeIn directory name bytes with
            | .ok disk => (.ok (), disk)
            | .error _ => (.error (.object false), disk)

/-- Write an object, without counting the request. -/
def place (provider : Provider) (store : Store) (key : Key) (bytes : Bytes) :
    Except StorageError Unit × Store :=
  let key := provider.location.qualify key
  match provider.location with
  | .memory _ => (.ok (), store.setMemory key bytes)
  | .disk .. =>
      let (result, disk) := writeBelow store.disk provider.root key.parts bytes
      (result, { store with disk })

/-- Write an object, unless the write is refused; a refused write changes no object. -/
def put (provider : Provider) (store : Store) (key : Key) (bytes : Bytes) :
    Except StorageError Unit × Store :=
  let refused := store.refusals.headD false
  let store := { store with refusals := store.refusals.tail }
  let (result, store) :=
    if refused then (.error (.object false), store) else provider.place store key bytes
  (result, { store with requests := store.requests.put result.toBool })

end Provider

end CsvImport

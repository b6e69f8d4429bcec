import CsvImport.Storage.Key

/-!
# Locations

A location is what a URL addresses: a directory on disk or the memory store, and
perhaps an object in it.
-/

namespace CsvImport

/-- Why a store could not do what was asked. -/
inductive StorageError where
  /-- The text is no URL of a store. -/
  | invalidUrl (url : String)
  /-- The object could not be read or written. -/
  | object (notFound : Bool)
  /-- The directory of the store could not be made. -/
  | directory
deriving DecidableEq, Repr, Inhabited

namespace StorageError

def message? : StorageError → Option String
  | invalidUrl url => some ("Invalid storage URL: " ++ url)
  | object _ => none
  | directory => none

def isNotFound : StorageError → Bool
  | object notFound => notFound
  | _ => false

end StorageError

/-- What a URL addresses. -/
inductive Location where
  /-- A directory, and an object in it. -/
  | disk (path : String) (key : Option Key)
  /-- An object or a group of objects in the memory store. -/
  | memory (key : Option Key)
deriving DecidableEq, Repr, Inhabited

namespace Location

/-- What stands behind `start` in a text that begins with it. -/
def behind? (start text : String) : Option String :=
  (start.toList.isPrefixOf? text.toList).map String.ofList

def holds (part : List Char) : List Char → Bool
  | [] => part.isEmpty
  | c :: rest => part.isPrefixOf (c :: rest) || holds part rest

def isVoid (piece : List Char) : Bool :=
  piece == [] || piece == ['.']

/-- Pieces of a path without those at the end that name nothing. -/
def trimPieces (pieces : List (List Char)) : List (List Char) :=
  (pieces.reverse.dropWhile isVoid).reverse

/-- The path of pieces that begin with the empty one; the root if there are none. -/
def pathOf (pieces : List (List Char)) : String :=
  if pieces.isEmpty then "/" else String.ofList (joinPieces pieces)

/-- An absolute path parted into its last component, as a key, and the path around it. -/
def split (path : String) : String × Option Key :=
  match (trimPieces (piecesOf path.toList)).reverse with
  | [] => (path, none)
  | last :: before =>
      let parent := pathOf (trimPieces before.reverse)
      if last = ['.', '.'] then (parent, none)
      else (parent, some ⟨[Key.encodePart (String.ofList last)]⟩)

/-- The directory at a path, or the object there. -/
def ofPath (path : String) (withKey : Bool) : Location :=
  let path := if path.toList.head? = some '/' then path else "/" ++ path
  if withKey then
    let (parent, key) := split path
    .disk parent key
  else .disk path none

/--
A relative path behind a working directory; pieces that name nothing are left out,
except that a slash at the end is kept.
-/
def absolute (workingDirectory path : String) : String :=
  let pieces := (piecesOf path.toList).filter fun piece => !isVoid piece
  let base := trimPieces (piecesOf workingDirectory.toList)
  let base := if base.isEmpty then [[]] else base
  let whole := base ++ pieces ++ (if path.toList.getLast? = some '/' then [[]] else [])
  if whole.length ≤ 1 then "/" else String.ofList (joinPieces whole)

/--
What a URL addresses: with `withKey` the object at it, otherwise the directory.
Anything without `://` is a path.  No text in which a line feed stands is taken for a URL.
-/
def parse (workingDirectory url : String) (withKey : Bool) : Except StorageError Location :=
  bif url.toList.contains '\n' then .error (.invalidUrl url)
  else
    match behind? "memory://" url with
    | some key => .ok (.memory (if key.isEmpty then none else some (Key.ofText key)))
    | none =>
        match behind? "file://" url <|> behind? "file:" url <|> behind? "/" url with
        | some path => .ok (ofPath path withKey)
        | none =>
            if url.isEmpty || holds "://".toList url.toList then .error (.invalidUrl url)
            else
              let path := absolute workingDirectory url
              bif path.toList.contains '\n' then .error (.invalidUrl url)
              else .ok (ofPath path withKey)

def key? : Location → Option Key
  | disk _ key => key
  | memory key => key

def withoutSlash (path : String) : String :=
  String.ofList (path.toList.reverse.dropWhile (· == '/')).reverse

def url : Location → String
  | disk path none => "file://" ++ path
  | disk path (some key) => "file://" ++ withoutSlash path ++ "/" ++ key.text
  | memory none => "memory://"
  | memory (some key) => "memory://" ++ key.text

def qualify (location : Location) (key : Key) : Key :=
  match location.key? with
  | none => key
  | some base => base ++ key

end Location

end CsvImport

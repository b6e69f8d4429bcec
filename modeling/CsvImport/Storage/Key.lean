import CsvImport.Text.Hex
import CsvImport.Text.Utf8

/-!
# Object keys

A key is a list of parts, none of them empty.  A part holds no slash, and the
characters that stores treat specially are written as percent escapes of their
bytes.
-/

namespace CsvImport

/-- The pieces of a text between its slashes, empty ones included. -/
def piecesOf : List Char → List (List Char)
  | [] => [[]]
  | c :: rest =>
      if c = '/' then [] :: piecesOf rest
      else
        match piecesOf rest with
        | [] => [[c]]
        | piece :: more => (c :: piece) :: more

def joinPieces (pieces : List (List Char)) : List Char :=
  ['/'].intercalate pieces

/-- Pieces and slashes are two views of one text. -/
theorem joinPieces_piecesOf (chars : List Char) : joinPieces (piecesOf chars) = chars := by
  induction chars with
  | nil => rfl
  | cons c rest ih =>
      unfold piecesOf
      split
      · rename_i slash
        subst slash
        cases pieces : piecesOf rest with
        | nil =>
            rw [pieces] at ih
            simp only [joinPieces, List.intercalate, List.intersperse, List.flatten_nil] at ih
            subst ih
            simp [piecesOf] at pieces
        | cons piece more =>
            rw [pieces] at ih
            rw [← ih]
            simp [joinPieces, List.intercalate, List.intersperse]
      · cases pieces : piecesOf rest with
        | nil =>
            rw [pieces] at ih
            simp only [joinPieces, List.intercalate, List.intersperse, List.flatten_nil] at ih
            subst ih
            simp [piecesOf] at pieces
        | cons piece more =>
            rw [pieces] at ih
            rw [← ih]
            cases more <;> simp [joinPieces, List.intercalate, List.intersperse]

structure Key where
  parts : List String := []
deriving DecidableEq, Repr, Inhabited

namespace Key

def reserved : List Char :=
  ['\\', '\x7b', '^', '\x7d', '%', Char.ofNat 96, ']', '"', '>', '[', '~', '<', '#', '|', '*', '?',
    '/']

def isPlain (b : UInt8) : Bool :=
  32 ≤ b && b < 127 && !reserved.contains (Char.ofNat b.toNat)

def escapeByte (b : UInt8) : List Char :=
  if isPlain b then [Char.ofNat b.toNat]
  else ['%', Hex.upper (b.toNat / 16), Hex.upper (b.toNat % 16)]

def encodePart (text : String) : String :=
  if text = "." then "%2E"
  else if text = ".." then "%2E%2E"
  else String.ofList ((Utf8.encode text).flatMap escapeByte)

/-- The key that a path writes: its non-empty pieces. -/
def ofText (text : String) : Key :=
  ⟨((piecesOf text.toList).filter (· ≠ [])).map fun piece => encodePart (String.ofList piece)⟩

def text (key : Key) : String :=
  "/".intercalate key.parts

instance : Append Key := ⟨fun a b => ⟨a.parts ++ b.parts⟩⟩

end Key

end CsvImport

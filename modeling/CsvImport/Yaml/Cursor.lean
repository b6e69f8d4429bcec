/-!
# Positions in a YAML text

A cursor is the characters still to be read and where they begin.  Lines end at a
line feed, a carriage return, both together, or one of the three Unicode line
breaks U+0085, U+2028 and U+2029.
-/

namespace CsvImport

namespace Yaml

def nextLine : Char := '\u0085'

def lineSeparator : Char := '\u2028'

def paragraphSeparator : Char := '\u2029'

def isBreak (c : Char) : Bool :=
  c == '\n' || c == '\r' || c == nextLine || c == lineSeparator || c == paragraphSeparator

def isBlank (c : Char) : Bool :=
  c == ' ' || c == '\t'

def isAllowed (c : Char) : Bool :=
  let n := c.toNat
  n == 0x09 || n == 0x0A || n == 0x0D || (0x20 ≤ n && n ≤ 0x7E) || n == 0x85 ||
    (0xA0 ≤ n && n ≤ 0xD7FF) || (0xE000 ≤ n && n ≤ 0xFFFD) || 0x10000 ≤ n

/-- The characters still to be read and where they begin. -/
structure Cursor where
  rest : List Char
  line : Nat := 0
  column : Nat := 0
  index : Nat := 0
deriving Inhabited

namespace Cursor

def head? (cursor : Cursor) : Option Char :=
  cursor.rest.head?

def ahead? (cursor : Cursor) (distance : Nat) : Option Char :=
  cursor.rest[distance]?

def isAt (cursor : Cursor) (c : Char) : Bool :=
  cursor.head? == some c

def endsOr (p : Char → Bool) : Option Char → Bool
  | none => true
  | some c => p c

def isBlankEnd (cursor : Cursor) (distance : Nat) : Bool :=
  endsOr (fun c => isBlank c || isBreak c) (cursor.ahead? distance)

def isLineEnd (cursor : Cursor) : Bool :=
  endsOr isBreak cursor.head?

def isIn (cursor : Cursor) (p : Char → Bool) : Bool :=
  match cursor.head? with
  | some c => p c
  | none => false

def skip (cursor : Cursor) : Cursor :=
  { cursor with
    rest := cursor.rest.tail
    column := cursor.column + 1
    index := cursor.index + 1 }

def skipMany (cursor : Cursor) : Nat → Cursor
  | 0 => cursor
  | n + 1 => cursor.skip.skipMany n

/-- Pass over a line break; the answer is what it contributes to a text. -/
def readBreak (cursor : Cursor) : List Char × Cursor :=
  let next (rest : List Char) (taken : Nat) : Cursor :=
    { rest, line := cursor.line + 1, column := 0, index := cursor.index + taken }
  match cursor.rest with
  | '\r' :: '\n' :: rest => (['\n'], next rest 2)
  | c :: rest =>
      if c = '\n' ∨ c = '\r' ∨ c = nextLine then (['\n'], next rest 1)
      else if isBreak c then ([c], next rest 1)
      else ([], cursor)
  | [] => ([], cursor)

/-- Pass over characters of a class that ends no line. -/
def skipWhile (p : Char → Bool) (cursor : Cursor) : Cursor :=
  let taken := (cursor.rest.takeWhile p).length
  { cursor with
    rest := cursor.rest.dropWhile p
    column := cursor.column + taken
    index := cursor.index + taken }

def readWhile (p : Char → Bool) (cursor : Cursor) : List Char × Cursor :=
  (cursor.rest.takeWhile p, cursor.skipWhile p)

def isDocumentMarker (cursor : Cursor) : Bool :=
  cursor.column == 0 && cursor.isBlankEnd 3 &&
    (['-', '-', '-'].isPrefixOf cursor.rest || ['.', '.', '.'].isPrefixOf cursor.rest)

end Cursor

end Yaml

end CsvImport

/-!
# Byte strings and physical lines

A byte string is a list of bytes.  A physical line is a maximal run of bytes
up to and including a line feed; the last line of an input may lack one.
-/

namespace CsvImport

abbrev Bytes := List UInt8

namespace Bytes

def lf : UInt8 := 10

def cr : UInt8 := 13

def lineFeeds (bytes : Bytes) : Nat :=
  bytes.count lf

/-- The physical lines of a byte string, none of them empty. -/
def lines : Bytes → List Bytes
  | [] => []
  | b :: rest =>
      if b = lf then [b] :: lines rest
      else
        match lines rest with
        | [] => [[b]]
        | line :: later => (b :: line) :: later

/-- A byte string is its lines, one behind the other. -/
@[simp]
theorem flatten_lines (bytes : Bytes) : (lines bytes).flatten = bytes := by
  fun_induction lines bytes with
  | case1 => rfl
  | case2 rest ih => simp [ih]
  | case3 b rest notLf found ih => simp_all
  | case4 b rest notLf line later found ih => simp_all

def dropTrailing (last : UInt8) (bytes : Bytes) : Bytes :=
  if bytes.getLast? = some last then bytes.dropLast else bytes

/-- A line without its terminator: one final line feed, then one final carriage return. -/
def stripTerminator (line : Bytes) : Bytes :=
  dropTrailing cr (dropTrailing lf line)

def byteOrderMark : Bytes := [0xEF, 0xBB, 0xBF]

/-- How many bytes a leading byte order mark takes: three, or none. -/
def byteOrderMarkLength (bytes : Bytes) : Nat :=
  if byteOrderMark.isPrefixOf bytes then byteOrderMark.length else 0

/-- The bytes after one optional byte order mark. -/
def afterByteOrderMark (bytes : Bytes) : Bytes :=
  bytes.drop (byteOrderMarkLength bytes)

end Bytes

end CsvImport

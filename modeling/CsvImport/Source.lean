import CsvImport.Chunk
import CsvImport.Ingest

/-!
# Prepared sources

A source is prepared by resolving its header and planning its data as chunks.
-/

namespace CsvImport

structure Source where
  path : String
  header : Header
  chunks : List Chunk
  data : Bytes
deriving DecidableEq, Repr

namespace Source

/--
Number the ranges of a source: each chunk's first line follows the line feeds of
the chunks before it.
-/
def number (path : String) (data : Bytes) (index line : Nat) : List ByteRange → List Chunk
  | [] => []
  | range :: later =>
      ⟨⟨path, index, range⟩, line⟩ ::
        number path data (index + 1) (line + (range.slice data).lineFeeds) later

/--
Where the data of a source starts: behind the configured header's byte order mark,
or behind the header record that the source itself holds.
-/
def split (d : Dialect) (configured : Option Header) (data : Bytes) :
    Except HeaderError (Option Header.Split) :=
  match configured with
  | some header => .ok (some ⟨header, data.byteOrderMarkLength, 1⟩)
  | none => Header.split d data

/-- Resolve the header of a source and plan its chunks; a source without records has none. -/
def prepare (d : Dialect) (configured : Option Header) (chunkSize : Nat) (path : String)
    (data : Bytes) : Except HeaderError (Option Source) := do
  let some found ← split d configured data | return none
  let ranges := Chunk.plan d data found.dataStart chunkSize
  return some
    { path, header := found.header, data
      chunks := number path data 0 found.dataLine ranges }

def chunkBytes (source : Source) (chunk : Chunk) : Bytes :=
  chunk.id.range.slice source.data

/-- The decoder of a chunk, numbering lines from the front of the source. -/
def chunkDecoder (source : Source) (chunk : Chunk) : Decoder :=
  Decoder.ofBytes (source.chunkBytes chunk) chunk.firstLine

def size (source : Source) : Nat :=
  source.data.length

end Source

end CsvImport

import CsvImport.Record.Field

/-!
# Chunks

A chunk is a byte range of a source that starts and ends on a record boundary.
The plan cuts greedily: a range ends at the first record-ending line feed at which
it has reached the target size.
-/

namespace CsvImport

/-- The half-open range of the bytes from `start` to before `stop`. -/
structure ByteRange where
  start : Nat
  stop : Nat
deriving DecidableEq, Repr, Inhabited

namespace ByteRange

def size (range : ByteRange) : Nat :=
  range.stop - range.start

def isEmpty (range : ByteRange) : Bool :=
  range.start == range.stop

def text (range : ByteRange) : String :=
  toString range.start ++ ".." ++ toString range.stop

def slice (range : ByteRange) (data : Bytes) : Bytes :=
  (data.drop range.start).take range.size

end ByteRange

structure ChunkId where
  source : String
  index : Nat
  range : ByteRange
deriving DecidableEq, Repr, Inhabited

namespace ChunkId

def text (id : ChunkId) : String :=
  id.source ++ "#" ++ toString id.index ++ "@" ++ id.range.text

end ChunkId

structure Chunk where
  id : ChunkId
  /-- The number of its first physical line within the source. -/
  firstLine : Nat
deriving DecidableEq, Repr, Inhabited

namespace Chunk

/--
The ranges of the bytes from position `here` on, where the current range began
at `start` and the field before `here` is in the given state.
-/
def planFrom (d : Dialect) (target start here : Nat) (state : FieldState) :
    Bytes → List ByteRange
  | [] => if start < here then [⟨start, here⟩] else []
  | b :: later =>
      if state ≠ .quoted ∧ b = Bytes.lf then
        if target ≤ here + 1 - start then
          ⟨start, here + 1⟩ :: planFrom d target (here + 1) (here + 1) .fieldStart later
        else planFrom d target start (here + 1) .fieldStart later
      else planFrom d target start (here + 1) (state.next d b) later

/--
The ranges of the data from `start` on, each of at least `target` bytes except
perhaps the last.
-/
def plan (d : Dialect) (data : Bytes) (start target : Nat) : List ByteRange :=
  let start := min start data.length
  planFrom d (max target 1) start start .fieldStart (data.drop start)

end Chunk

end CsvImport

import CsvImport.Ingest
import CsvImport.Table

/-!
# The reorder buffer

Chunks finish in any order and are written in index order.  The buffer keeps
the outputs of finished chunks until every earlier chunk has finished; a chunk
without output releases the chunks behind it all the same.
-/

namespace CsvImport

/-- The output of a chunk that succeeded, and its counts. -/
structure ChunkOutput where
  bytes : Bytes
  counts : Counts
deriving DecidableEq, Repr, Inhabited

/-- Finished chunks that have not been released. -/
structure ReorderBuffer where
  /-- The index of the chunk to be released next. -/
  next : Nat := 0
  /-- Finished chunks by index, each index once. -/
  pending : Table Nat (Option ChunkOutput) := []
deriving DecidableEq, Repr, Inhabited

namespace ReorderBuffer

/-- Add a finished chunk, in place of an earlier one with its index. -/
def insert (buffer : ReorderBuffer) (index : Nat) (output : Option ChunkOutput) :
    ReorderBuffer :=
  { buffer with pending := buffer.pending.put index output }

def drain (buffer : ReorderBuffer) : List ChunkOutput × ReorderBuffer :=
  match _ : buffer.pending.lookup buffer.next with
  | none => ([], buffer)
  | some output =>
      let (ready, after) :=
        drain ⟨buffer.next + 1, buffer.pending.remove buffer.next⟩
      (output.toList ++ ready, after)
termination_by buffer.pending.length
decreasing_by exact Table.length_remove_lt ‹_›

def waiting (buffer : ReorderBuffer) : Nat :=
  buffer.pending.countP fun entry => entry.2.isSome

end ReorderBuffer

end CsvImport

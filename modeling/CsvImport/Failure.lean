import CsvImport.Chunk
import CsvImport.Ingest

/-!
# Failed chunks
-/

namespace CsvImport

/-- A chunk that failed, and why. -/
structure Failure where
  chunk : ChunkId
  kind : FailureKind
  message : String
  /-- The physical line on which the failing record starts. -/
  line : Nat
deriving DecidableEq, Repr, Inhabited

namespace Failure

def ofError (chunk : ChunkId) (error : IngestError) : Failure :=
  { chunk, kind := error.kind, message := error.message, line := error.line }

end Failure

end CsvImport

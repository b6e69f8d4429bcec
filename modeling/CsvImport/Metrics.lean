/-!
# Metrics

Counters add up, gauges keep the last value, histograms count samples.  A metric
that was never touched has no value.
-/

namespace CsvImport

inductive ChunkStatus where
  | success
  | failed
  | cancelled
deriving DecidableEq, Repr, Inhabited

structure Metrics where
  recordsWritten : Option Nat := none
  recordsSkipped : Option Nat := none
  blankLines : Option Nat := none
  bytesRead : Option Nat := none
  chunksSucceeded : Option Nat := none
  chunksFailed : Option Nat := none
  chunksCancelled : Option Nat := none
  chunkDecodes : Option Nat := none
  activeChunks : Option Nat := none
  pendingBuffers : Option Nat := none
deriving DecidableEq, Repr, Inhabited

namespace Metrics

def grow (counter : Option Nat) (amount : Nat) : Option Nat :=
  some (counter.getD 0 + amount)

def ingested (m : Metrics) (written skipped blank : Nat) : Metrics :=
  { m with
    recordsWritten := grow m.recordsWritten written
    recordsSkipped := grow m.recordsSkipped skipped
    blankLines := grow m.blankLines blank }

def sourceRead (m : Metrics) (bytes : Nat) : Metrics :=
  { m with bytesRead := grow m.bytesRead bytes }

def chunksEnded (m : Metrics) (status : ChunkStatus) (amount : Nat) : Metrics :=
  match amount, status with
  | 0, _ => m
  | amount, .success => { m with chunksSucceeded := grow m.chunksSucceeded amount }
  | amount, .failed => { m with chunksFailed := grow m.chunksFailed amount }
  | amount, .cancelled => { m with chunksCancelled := grow m.chunksCancelled amount }

def chunkDecoded (m : Metrics) : Metrics :=
  { m with chunkDecodes := grow m.chunkDecodes 1 }

def setActive (m : Metrics) (amount : Nat) : Metrics :=
  { m with activeChunks := some amount }

def setPending (m : Metrics) (amount : Nat) : Metrics :=
  { m with pendingBuffers := some amount }

def named (m : Metrics) : List (String × Option Nat) :=
  [("sleet_records_written_total", m.recordsWritten),
   ("sleet_records_skipped_total", m.recordsSkipped),
   ("sleet_blank_lines_total", m.blankLines),
   ("sleet_bytes_read_total", m.bytesRead),
   ("sleet_chunks_processed_total,status=success", m.chunksSucceeded),
   ("sleet_chunks_processed_total,status=failed", m.chunksFailed),
   ("sleet_chunks_processed_total,status=cancelled", m.chunksCancelled),
   ("sleet_chunk_decode_duration_seconds", m.chunkDecodes),
   ("sleet_active_chunks", m.activeChunks),
   ("sleet_pending_chunk_buffers", m.pendingBuffers)]

/-- The metrics that were touched, under their published names. -/
def touched (m : Metrics) : List (String × Nat) :=
  m.named.filterMap fun (name, value) => value.map (name, ·)

end Metrics

end CsvImport

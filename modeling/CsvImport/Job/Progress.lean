import CsvImport.Job.Schedule
import CsvImport.Job.Summary
import CsvImport.Output
import CsvImport.ReorderBuffer
import CsvImport.Source

/-!
# The progress of a job

A run is the state of a job between two steps, and a flight the state of the source
that is being imported: chunks wait in a queue, are in flight, or have ended and wait
in the reorder buffer for an earlier chunk.
-/

namespace CsvImport

structure Run where
  output : Output
  session : Session := {}
  tracker : FailureTracker := {}
  summary : Summary := {}
  /-- How many questions the schedule was asked. -/
  asked : Nat := 0
  /-- Whether a shutdown has been asked for. -/
  stopping : Bool := false
deriving DecidableEq, Repr, Inhabited

namespace Run

def ask (run : Run) (schedule : Schedule) : Turn × Run :=
  (schedule.turn run.asked,
    { run with
      asked := run.asked + 1
      stopping := run.stopping || schedule.stops run.asked run.output.writes })

def tell (run : Run) (level : NoticeLevel) (text : String) : Run :=
  { run with session := run.session.tell .job level text }

def count (run : Run) (change : Metrics → Metrics) : Run :=
  { run with session := run.session.count change }

def addCancelled (run : Run) (amount : Nat) : Run :=
  { run.count (·.chunksEnded .cancelled amount) with
    summary := run.summary.addCancelled amount }

/-- Write outputs in order and count their chunks, up to the first that cannot be written. -/
def write (run : Run) (path : String) : List ChunkOutput → Except FatalError Unit × Run
  | [] => (.ok (), run)
  | ready :: more =>
      match run.output.writeAll run.session ready.bytes with
      | (.error cause, output, session) =>
          (.error (.outputWrite path (some cause)), { run with output, session })
      | (.ok (), output, session) =>
          let run := { run with output, session }.count (·.chunksEnded .success 1)
          { run with summary := run.summary.addWritten ready.counts ready.bytes.length }.write
            path more

def fail (run : Run) (failure : Failure) (now : Timestamp) : Option FailureExcess × Run :=
  let summary := { run.summary with chunksFailed := run.summary.chunksFailed + 1 }
  let (excess, tracker, session) := run.tracker.record failure now run.session
  (excess, { run with summary, tracker, session })

end Run

/-- The state of a source that is being imported. -/
structure Flight where
  queued : List Chunk
  inFlight : List Chunk := []
  reorder : ReorderBuffer := {}
deriving DecidableEq, Repr, Inhabited

namespace Flight

def size (flight : Flight) : Nat :=
  flight.queued.length + flight.inFlight.length

/-- Start chunks from the queue while fewer than `limit` are in flight. -/
def fill (flight : Flight) (limit : Nat) : Flight :=
  let room := limit - flight.inFlight.length
  { flight with
    queued := flight.queued.drop room
    inFlight := flight.inFlight ++ flight.queued.take room }

def take? (flight : Flight) (pick : Nat) : Option (Chunk × Flight) :=
  let index := pick % flight.inFlight.length
  flight.inFlight[index]?.map fun chunk =>
    (chunk, { flight with inFlight := flight.inFlight.eraseIdx index })

def abandoned (flight : Flight) : Nat :=
  flight.inFlight.length + flight.queued.length + flight.reorder.waiting

theorem size_fill (flight : Flight) (limit : Nat) : (flight.fill limit).size = flight.size := by
  simp only [fill, size, List.length_drop, List.length_append, List.length_take]
  omega

/-- Taking a chunk leaves one less. -/
theorem size_take? {flight after : Flight} {pick : Nat} {chunk : Chunk}
    (taken : flight.take? pick = some (chunk, after)) : after.size + 1 = flight.size := by
  unfold take? at taken
  obtain ⟨found, present, same⟩ := Option.map_eq_some_iff.mp taken
  cases same
  obtain ⟨bound, _⟩ := List.getElem?_eq_some_iff.mp present
  simp only [size, List.length_eraseIdx, bound, ↓reduceIte]
  omega

end Flight

end CsvImport

import CsvImport.Job.Progress

/-!
# Jobs

A job reads its sources one after the other, decodes the chunks of each, several at
a time, and writes their outputs in order.  Everything it does is a function of the
configuration, the session, the output and the schedule.
-/

namespace CsvImport

structure Job where
  config : Config
  dialect : Dialect
  /-- The header of sources that hold none themselves. -/
  header : Option Header
deriving DecidableEq, Repr

namespace Job

def ofConfig (config : Config) : Except ConfigError Job := do
  let dialect ← config.csv.dialect
  let header ← config.csv.configuredHeader
  return { config, dialect, header }

/-! ## Sources -/

def load (path : String) (session : Session) : Except StorageError Bytes × Session :=
  match Provider.ofUrl session.store path true with
  | (.error e, store) => (.error e, { session with store })
  | (.ok provider, store) =>
      match provider.getObject store with
      | (.error e, store) => (.error e, { session with store })
      | (.ok bytes, store) =>
          (.ok bytes, ({ session with store }.count (·.sourceRead bytes.length)).tell .source .debug
            ("Read " ++ toString bytes.length ++ " bytes from " ++ provider.location.url))

/-- Read a source and plan its chunks; a source without records has none. -/
def prepare (job : Job) (path : String) (session : Session) :
    Except FatalError (Option Source) × Session :=
  match load path session with
  | (.error e, session) => (.error (.sourceRead path e), session)
  | (.ok bytes, session) =>
      match Source.prepare job.dialect job.header job.config.source.chunkSize path bytes with
      | .error e => (.error (.header path e), session)
      | .ok none => (.ok none, session)
      | .ok (some source) =>
          (.ok (some source), session.tell .source .debug
            ("Planned " ++ toString source.chunks.length ++ " chunks for " ++ path ++ " (" ++
              toString source.header.size ++ " fields, " ++ toString source.size ++ " bytes)"))

/-! ## Chunks -/

def ingester (job : Job) (source : Source) : Ingester :=
  { header := source.header, dialect := job.dialect, policy := job.config.csv.policy }

def ingest (job : Job) (source : Source) (chunk : Chunk) :
    Except IngestError ChunkOutput × Ingestion :=
  let (result, run) := (job.ingester source).ingest (source.chunkDecoder chunk) {}
  (result.map fun counts => ⟨run.writer.sink.contents, counts⟩, run)

/--
End a chunk: its output, if it has one, goes to the reorder buffer, and what is then in
order is written.
-/
def release (job : Job) (run : Run) (flight : Flight) (index : Nat)
    (output : Option ChunkOutput) : Except FatalError Unit × Run × Flight :=
  let (ready, reorder) := (flight.reorder.insert index output).drain
  let run := run.count (·.setPending reorder.pending.length)
  let (result, run) := run.write job.config.output.path ready
  (result, run, { flight with reorder })

def finish (job : Job) (source : Source) (turn : Turn) (chunk : Chunk) (run : Run)
    (flight : Flight) : Except FatalError Unit × Run × Flight :=
  if turn.unstarted then
    let run := { run with stopping := true }.addCancelled 1
    job.release run flight chunk.id.index none
  else
    let (result, ingestion) := job.ingest source chunk
    let run := run.count ingestion.record
    match result with
    | .ok output => job.release (run.count (·.chunkDecoded)) flight chunk.id.index (some output)
    | .error e =>
        match run.fail (.ofError chunk.id e) turn.now with
        | (some excess, run) => (.error (.tooManyFailures excess), run, flight)
        | (none, run) => job.release run flight chunk.id.index none

def abandon (source : Source) (run : Run) (flight : Flight) : Run :=
  (run.tell .info ("Shutdown requested, abandoning " ++ toString flight.abandoned ++
    " chunks of " ++ source.path)).addCancelled flight.abandoned

/-- What a step of the import of a source leads to. -/
inductive Step where
  /-- There is more to do. -/
  | again (run : Run) (flight : Flight)
  /-- The source is done with. -/
  | done (result : Except FatalError Unit) (run : Run)

/--
One step of the import of a source: start chunks and end one of them, or give up when a
shutdown has been asked for.
-/
def advance (job : Job) (schedule : Schedule) (source : Source) (run : Run) (flight : Flight) :
    Step :=
  let (_, run) := run.ask schedule
  if run.stopping then .done (.ok ()) (abandon source run flight)
  else
    let flight := flight.fill job.config.source.maxConcurrent
    let run := run.count (·.setActive flight.inFlight.length)
    if flight.inFlight.isEmpty then .done (.ok ()) run
    else
      let (turn, run) := run.ask schedule
      if run.stopping then .done (.ok ()) (abandon source run flight)
      else
        match flight.take? turn.pick with
        | none => .done (.ok ()) run
        | some (chunk, flight) =>
            match job.finish source turn chunk run flight with
            | (.ok (), run, flight) => .again run flight
            | (.error e, run, _) => .done (.error e) run

theorem size_release (job : Job) (run : Run) (flight : Flight) (index : Nat)
    (output : Option ChunkOutput) :
    (job.release run flight index output).2.2.size = flight.size := rfl

theorem size_finish (job : Job) (source : Source) (turn : Turn) (chunk : Chunk) (run : Run)
    (flight : Flight) : (job.finish source turn chunk run flight).2.2.size = flight.size := by
  unfold finish
  split
  · exact size_release ..
  · simp only
    split
    · exact size_release ..
    · split
      · rfl
      · exact size_release ..

/-- Every step but the last ends a chunk. -/
theorem size_advance {job : Job} {schedule : Schedule} {source : Source} {run after : Run}
    {flight left : Flight} (step : job.advance schedule source run flight = .again after left) :
    left.size + 1 = flight.size := by
  unfold advance at step
  simp only at step
  split at step
  · cases step
  · split at step
    · cases step
    · split at step
      · cases step
      · split at step
        · cases step
        · rename_i chunk rest taken
          have before := Flight.size_take? taken
          rw [Flight.size_fill] at before
          split at step
          · rename_i ended
            cases step
            have same := congrArg (fun parts => parts.2.2.size) ended
            simp only [size_finish] at same
            omega
          · cases step

def importChunks (job : Job) (schedule : Schedule) (source : Source) (run : Run)
    (flight : Flight) : Except FatalError Unit × Run :=
  match _ : job.advance schedule source run flight with
  | .done result run => (result, run)
  | .again run flight => job.importChunks schedule source run flight
termination_by flight.size
decreasing_by
  have := size_advance ‹_›
  omega

/-! ## The whole job -/

/-- The notice about a source that was imported, given the counts before it. -/
def sourceNotice (source : Source) (before after : Counts) : String :=
  source.path ++ ": " ++ toString (after.written - before.written) ++ " written, " ++
    toString (after.skipped - before.skipped) ++ " skipped across " ++
    toString source.chunks.length ++ " chunks"

def importSource (job : Job) (schedule : Schedule) (source : Source) (run : Run) :
    Except FatalError Unit × Run :=
  let run := { run with summary := { run.summary with sources := run.summary.sources + 1 } }
  if source.chunks.isEmpty then
    (.ok (), run.tell .info (source.path ++ ": no data rows after the header"))
  else
    match job.importChunks schedule source run { queued := source.chunks } with
    | (.error e, after) => (.error e, after)
    | (.ok (), after) =>
        (.ok (), after.tell .info (sourceNotice source run.summary.counts after.summary.counts))

/-- Import the sources at the paths, until an error or a shutdown. -/
def importSources (job : Job) (schedule : Schedule) (run : Run) :
    List String → Except FatalError Unit × Run
  | [] => (.ok (), run)
  | path :: more =>
      let (_, run) := run.ask schedule
      if run.stopping then
        (.ok (), { run.tell .info "Shutdown requested, skipping remaining sources" with
          summary := { run.summary with cancelled := true } })
      else
        match job.prepare path run.session with
        | (.error e, session) => (.error e, { run with session })
        | (.ok none, session) =>
            let run := { run with session }.tell .info
              (path ++ ": source is empty, nothing to import")
            job.importSources schedule
              { run with
                summary := { run.summary with emptySources := run.summary.emptySources + 1 } }
              more
        | (.ok (some source), session) =>
            match job.importSource schedule source { run with session } with
            | (.error e, run) => (.error e, run)
            | (.ok (), run) =>
                if run.summary.cancelled then (.ok (), run) else job.importSources schedule run more

def startNotice (job : Job) : String :=
  "Starting import of " ++ toString job.config.source.paths.length ++ " sources (policy=" ++
    job.config.csv.policy.code ++ ", chunk_size=" ++ toString job.config.source.chunkSize ++
    ", concurrency=" ++ toString job.config.source.maxConcurrent ++ ")"

def openLog (job : Job) (now : Timestamp) (session : Session) :
    Except FailureLogError (Option FailureLog) × Session :=
  match job.config.errors.logPath with
  | none => (.ok none, session)
  | some url =>
      let (result, session) := FailureLog.open? now url session
      (result.map some, session)

/-- Flush the output; an error of that counts only if there was none before. -/
def deliver (job : Job) (result : Except FatalError Unit) (run : Run) :
    Except FatalError Unit × Run :=
  let (flushed, output, session) := run.output.flush run.session
  let flushed := flushed.mapError fun cause =>
    FatalError.outputWrite job.config.output.path (some cause)
  (match result with
    | .error e => .error e
    | .ok () => flushed,
    { run with output, session })

/-- Finish the failure log, unless too many failures have finished it already. -/
def closeLog (result : Except FatalError Unit) (run : Run) : Run :=
  match result with
  | .error (.tooManyFailures _) => run
  | _ =>
      let (tracker, session) := run.tracker.finalizeLog run.session
      { run with tracker, session }

def conclude (result : Except FatalError Unit) (run : Run) : Except JobError Summary × Run :=
  let summary := { run.summary with failures := run.tracker.failures }
  match result with
  | .error e =>
      (.error (.aborted e summary), run.tell .error ("Import aborted: " ++ summary.brief))
  | .ok () =>
      (.ok summary,
        run.tell .info ("Import complete: " ++ summary.brief ++ summary.cancelledSuffix))

def runWith (job : Job) (schedule : Schedule) (now : Timestamp) (output : Output)
    (session : Session) : Except JobError Summary × Run :=
  let session := session.tell .job .info job.startNotice
  match job.openLog now session with
  | (.error e, session) => (.error (.failureLog e), { output, session })
  | (.ok log, session) =>
      let tracker := { limit := job.config.errors.maxFailures, log }
      let (result, run) :=
        job.importSources schedule { output, session, tracker } job.config.source.paths
      let (result, run) := job.deliver result run
      conclude result (closeLog result run)

/-- Open the configured output; documents for standard output go to a sink. -/
def openOutput (job : Job) (session : Session) : Option Output × Session :=
  if job.config.output.isStandard then (some (.sink {}), session)
  else
    let (output, store) := Output.create? session.store job.config.output.path
    (output, { session with store })

def run (job : Job) (schedule : Schedule) (now : Timestamp) (session : Session) :
    Except JobError Summary × Run :=
  match job.openOutput session with
  | (none, session) =>
      (.error (.fatal (.outputWrite job.config.output.path none)), { output := .sink {}, session })
  | (some output, session) => job.runWith schedule now output session

end Job

end CsvImport

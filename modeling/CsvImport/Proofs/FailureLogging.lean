import CsvImport.Proofs.Aborting
import CsvImport.Proofs.FailureRecords
import CsvImport.Proofs.Keeping

/-!
# The failure log of a job

However a job ends, the batches of its failure log hold one record for every failure that
it reports, in order, as long as the log can be written.
-/

namespace CsvImport

namespace FailureTracker

/-- The failures of the tracker are in its log, which is of this shape. -/
def Logs (tracker : FailureTracker) (first : FailureLog) (store : Store)
    (Shape : FailureLog → List (List FailureRecord) → Prop) : Prop :=
  ∃ log batches, tracker.log = some log ∧ first.Tracks log store batches tracker.failures ∧
    Shape log batches

section

variable {tracker : FailureTracker} {first : FailureLog} {session : Session}

theorem putErrors_finalizeLog (tracker : FailureTracker) (session : Session) :
    session.store.requests.putErrors ≤
      (tracker.finalizeLog session).2.store.requests.putErrors := by
  unfold finalizeLog
  split
  · exact Nat.le_refl _
  · rename_i log _
    have finished := log.putErrors_finalize session
    generalize log.finalize session = ended at finished ⊢
    rcases ended with ⟨_ | _, after, later⟩ <;> exact finished

/-- Errors of the store are counted while failures are recorded, never forgotten. -/
theorem putErrors_record (tracker : FailureTracker) (failure : Failure) (now : Timestamp)
    (session : Session) :
    session.store.requests.putErrors ≤
      (tracker.record failure now session).2.2.store.requests.putErrors := by
  let noticed := (session.tell .failures .warn (notice failure)).count (·.chunksEnded .failed 1)
  have written : session.store.requests.putErrors ≤
      (tracker.writeLog failure now noticed).2.store.requests.putErrors := by
    unfold writeLog
    split
    · exact Nat.le_refl _
    · rename_i log _
      exact log.putErrors_record failure now noticed
  unfold record
  simp only
  split
  · exact written
  · refine Nat.le_trans written ?_
    change _ ≤ (finalizeLog _ _).2.store.requests.putErrors
    exact putErrors_finalizeLog _ (Session.tell _ _ _ _)

theorem Logs.finalizeLog (logs : tracker.Logs first session.store FailureLog.Filling)
    (plain : ∀ batch, Key.Plain (first.batchName batch))
    (same : (tracker.finalizeLog session).2.store.requests.putErrors =
      session.store.requests.putErrors) :
    (tracker.finalizeLog session).1.Logs first (tracker.finalizeLog session).2.store
      FailureLog.Complete := by
  obtain ⟨log, batches, isLog, tracks, filling⟩ := logs
  have finished := tracks.finalize session plain filling
  unfold FailureTracker.finalizeLog at same ⊢
  rw [isLog] at same ⊢
  simp only at same ⊢
  generalize log.finalize session = ended at finished same ⊢
  rcases ended with ⟨_ | _, after, later⟩
  · obtain ⟨batches, tracks, complete⟩ := finished same
    exact ⟨after, batches, rfl, tracks, complete⟩
  · obtain ⟨batches, tracks, complete⟩ := finished same
    exact ⟨after, batches, rfl, tracks, complete⟩

/-- A failure is recorded in the log as well; one failure too many finishes the log. -/
theorem Logs.record (logs : tracker.Logs first session.store FailureLog.Filling)
    (plain : ∀ batch, Key.Plain (first.batchName batch)) (failure : Failure) (now : Timestamp)
    (same : (tracker.record failure now session).2.2.store.requests.putErrors =
      session.store.requests.putErrors) :
    let recorded := tracker.record failure now session
    recorded.2.1.Logs first recorded.2.2.store
      (if recorded.1.isSome then FailureLog.Complete else FailureLog.Filling) := by
  obtain ⟨log, batches, isLog, tracks, filling⟩ := logs
  have written : ∀ session, tracker.writeLog failure now session =
      ({ tracker with log := some (log.record failure now session).1 },
        (log.record failure now session).2) := by
    intro session
    unfold writeLog
    rw [isLog]
  let noticed := (session.tell .failures .warn (notice failure)).count (·.chunksEnded .failed 1)
  have logged := tracks.record noticed plain filling failure now
  have most := log.putErrors_record failure now noticed
  unfold FailureTracker.record at same ⊢
  simp only [written] at same ⊢
  -- The tracker is split by what becomes of it, so the log is held apart as a variable.
  generalize hrecorded : log.record failure now _ = recorded at same ⊢
  change log.record failure now noticed = recorded at hrecorded
  rw [hrecorded] at logged most
  split at same
  · obtain ⟨batches, tracks, filling⟩ := logged same
    exact ⟨recorded.1, batches, rfl, tracks, filling⟩
  · rename_i excess _
    let kept : FailureTracker :=
      { tracker with failures := tracker.failures ++ [failure], log := some recorded.1 }
    let told := recorded.2.tell .failures .error
      ("Max failures (" ++ toString excess.count ++ ") reached, stopping import")
    have ended : recorded.2.store.requests.putErrors ≤
        (kept.finalizeLog told).2.store.requests.putErrors := kept.putErrors_finalizeLog told
    change (kept.finalizeLog told).2.store.requests.putErrors = _ at same
    -- No error was counted by both writes together, hence none by either.
    have unchanged : recorded.2.store.requests.putErrors = session.store.requests.putErrors :=
      Nat.le_antisymm (Nat.le_trans ended (Nat.le_of_eq same)) most
    obtain ⟨batches, tracks, filling⟩ := logged unchanged
    have logs : kept.Logs first told.store FailureLog.Filling :=
      ⟨recorded.1, batches, rfl, tracks, filling⟩
    exact logs.finalizeLog plain (same.trans unchanged.symm)

end

end FailureTracker

namespace Job

/-- The failures of a run are in its log, unless the store has counted another error. -/
structure Logging (first : FailureLog) (errors : Nat)
    (Shape : FailureLog → List (List FailureRecord) → Prop) (run : Run) : Prop where
  apart : ∀ batch, run.output.Apart first.provider (first.batchName batch)
  counted : errors ≤ run.session.store.requests.putErrors
  logs : run.session.store.requests.putErrors = errors →
    run.tracker.Logs first run.session.store Shape

section

variable {first : FailureLog} {errors : Nat}
  {Shape : FailureLog → List (List FailureRecord) → Prop} {run : Run}

/-- Errors are never forgotten, so what an operation leaves logged need only be known for the
case that it counts none. -/
theorem Logging.next {Next : FailureLog → List (List FailureRecord) → Prop}
    (logging : Logging first errors Shape run) {other : Run}
    (apart : ∀ batch, other.output.Apart first.provider (first.batchName batch))
    (most : run.session.store.requests.putErrors ≤ other.session.store.requests.putErrors)
    (logs : other.session.store.requests.putErrors = run.session.store.requests.putErrors →
      run.tracker.Logs first run.session.store Shape →
        other.tracker.Logs first other.session.store Next) :
    Logging first errors Next other where
  apart := apart
  counted := Nat.le_trans logging.counted most
  logs same := by
    have unchanged : run.session.store.requests.putErrors = errors :=
      Nat.le_antisymm (Nat.le_trans most (Nat.le_of_eq same)) logging.counted
    exact logs (same.trans unchanged.symm) (logging.logs unchanged)

/-- Where the batches are spared, the log is kept. -/
theorem Logging.spared (logging : Logging first errors Shape run) {other : Run}
    (apart : ∀ batch, other.output.Apart first.provider (first.batchName batch))
    (tracker : other.tracker = run.tracker)
    (spares : ∀ batch, first.provider.Spares (first.batchName batch) run.session.store
      other.session.store) : Logging first errors Shape other := by
  refine logging.next apart (Nat.le_of_eq (spares 0).putErrors.symm) fun _ logs => ?_
  obtain ⟨log, batches, isLog, tracks, shape⟩ := logs
  exact ⟨log, batches, tracker ▸ isLog, tracker ▸ tracks.spared spares, shape⟩

/-- A failed chunk is logged; one failure too many finishes the log. -/
theorem Logging.fail (logging : Logging first errors FailureLog.Filling run)
    (plain : ∀ batch, Key.Plain (first.batchName batch)) (failure : Failure) (now : Timestamp) :
    Logging first errors
      (if (run.fail failure now).1.isSome then FailureLog.Complete else FailureLog.Filling)
      (run.fail failure now).2 :=
  logging.next logging.apart (run.tracker.putErrors_record failure now run.session)
    fun same logs => logs.record plain failure now same

theorem keeps_logging (plain : ∀ batch, Key.Plain (first.batchName batch)) (errors : Nat)
    (schedule : Schedule) :
    Keeps schedule (Logging first errors FailureLog.Filling)
      (fun _ => Logging first errors FailureLog.Complete) where
  quiet holds output tracker store := by
    refine holds.spared (fun batch => output ▸ holds.apart batch) tracker fun batch => ?_
    rw [store]
    exact ⟨id, fun _ => rfl, rfl⟩
  load {run} holds path :=
    holds.spared holds.apart rfl fun batch => Provider.spares_load (plain batch) path run.session
  write {run} holds bytes :=
    have writes := fun batch => (holds.apart batch).writeAll (plain batch) run.session bytes
    holds.spared (fun batch => (writes batch).2) rfl fun batch => (writes batch).1
  fail holds failure question fine := by
    have logging := holds.fail plain failure (schedule.turn question).now
    rwa [fine] at logging
  exceed holds failure question excess tooMany := by
    have logging := holds.fail plain failure (schedule.turn question).now
    rwa [tooMany] at logging

theorem Logging.deliver (plain : ∀ batch, Key.Plain (first.batchName batch)) (job : Job)
    {result : Except FatalError Unit}
    (kept : Kept (Logging first errors FailureLog.Filling)
      (fun _ => Logging first errors FailureLog.Complete) result run) :
    Kept (Logging first errors FailureLog.Filling)
      (fun _ => Logging first errors FailureLog.Complete)
      (job.deliver result run).1 (job.deliver result run).2 := by
  have flushed : ∀ Shape, Logging first errors Shape run →
      Logging first errors Shape (job.deliver result run).2 := by
    intro Shape logging
    have flushes := fun batch => (logging.apart batch).flush (plain batch) run.session
    exact logging.spared (fun batch => (flushes batch).2) rfl fun batch => (flushes batch).1
  cases result with
  | ok =>
      have logging := flushed _ kept
      unfold Job.deliver at logging ⊢
      generalize run.output.flush run.session = ended at logging ⊢
      obtain ⟨_ | _, output, session⟩ := ended
      · exact logging
      · exact logging
  | error e => cases e <;> exact flushed _ kept

/-- The log is finished at the end of a job, unless it already is. -/
theorem Logging.closeLog (plain : ∀ batch, Key.Plain (first.batchName batch))
    {result : Except FatalError Unit}
    (kept : Kept (Logging first errors FailureLog.Filling)
      (fun _ => Logging first errors FailureLog.Complete) result run) :
    Logging first errors FailureLog.Complete (Job.closeLog result run) := by
  have finished : Logging first errors FailureLog.Filling run →
      Logging first errors FailureLog.Complete { run with
        tracker := (run.tracker.finalizeLog run.session).1
        session := (run.tracker.finalizeLog run.session).2 } := by
    intro logging
    exact logging.next logging.apart (run.tracker.putErrors_finalizeLog run.session)
      fun same logs => logs.finalizeLog plain same
  cases result with
  | ok => exact finished kept
  | error e =>
      cases e with
      | tooManyFailures excess => exact kept
      | _ => exact finished kept

/-- A log that was opened holds nothing, and its place is there. -/
theorem openLog_fresh {job : Job} {now : Timestamp} {session opened : Session}
    {log : FailureLog} (isOpen : job.openLog now session = (.ok (some log), opened)) :
    log.stem = FailureLog.stemAt now ∧ log.pending = [] ∧ log.batches = 0 ∧
      log.provider.Stands opened.store := by
  unfold openLog at isOpen
  split at isOpen
  · cases isOpen
  · rename_i url _
    rcases opening : FailureLog.open? now url session with ⟨_ | fresh, after⟩
    · simp only [opening] at isOpen
      cases isOpen
    · simp only [opening] at isOpen
      cases isOpen
      obtain ⟨provider, rfl, stands⟩ := FailureLog.open?_cases opening
      exact ⟨rfl, rfl, rfl, stands⟩

/-- A log can be opened where there is a provider for its URL. -/
theorem openLog_of_ofUrl {job : Job} {url : String} (isUrl : job.config.errors.logPath = some url)
    (now : Timestamp) (session : Session) {provider : Provider} {store : Store}
    (provided : Provider.ofUrl session.store url false = (.ok provider, store)) :
    ∃ opened, opened.store = store ∧ job.openLog now session =
      (.ok (some { provider, stem := FailureLog.stemAt now }), opened) := by
  unfold openLog FailureLog.open?
  simp only [isUrl, provided]
  exact ⟨_, rfl, rfl⟩

/-- A job that begins with a log logs every failure until it ends. -/
theorem Begins.logging {job : Job} {now : Timestamp} {output : Output} {session opened : Session}
    {log : FailureLog}
    (isOpen : job.openLog now (session.tell .job .info job.startNotice) = (.ok (some log), opened))
    (vacant : ∀ batch, log.object? opened.store batch = none)
    (apart : ∀ batch, output.Apart log.provider (log.batchName batch)) :
    Logging log opened.store.requests.putErrors FailureLog.Filling {
      output, session := opened
      tracker := { limit := job.config.errors.maxFailures, log := some log } } := by
  obtain ⟨stem, none, zero, stands⟩ := openLog_fresh isOpen
  refine ⟨apart, Nat.le_refl _, fun _ => ⟨log, [], rfl, ?_, ?_⟩⟩
  · exact {
      provider := rfl
      stem := rfl
      stands := stands
      number := zero
      objects := vacant
      records := by
        rw [none]
        exact .nil }
  · refine ⟨fun batch listed => absurd listed List.not_mem_nil, ?_⟩
    rw [none]
    decide

/-- A job ends with its summary, whether it is aborted or not. -/
theorem conclude_cases (result : Except FatalError Unit) (run : Run) :
    let summary := { run.summary with failures := run.tracker.failures }
    let concluded := conclude result run
    (concluded.1 = .ok summary ∨ ∃ cause, concluded.1 = .error (.aborted cause summary)) ∧
      concluded.2.tracker = run.tracker ∧ concluded.2.session.store = run.session.store := by
  cases result with
  | error e => exact ⟨.inr ⟨e, rfl⟩, rfl, rfl⟩
  | ok => exact ⟨.inl rfl, rfl, rfl⟩

end

/-- However a job ends, its failure log holds one record for every failure that it reports.  Its
batches read as JSON values, line by line, and these are records that tell of the failures. -/
theorem runWith_logsFailures {job : Job} {now : Timestamp} {output : Output}
    {session opened : Session} {log : FailureLog}
    (isOpen : job.openLog now (session.tell .job .info job.startNotice) = (.ok (some log), opened))
    (vacant : ∀ batch, log.object? opened.store batch = none)
    (apart : ∀ batch, output.Apart log.provider (log.batchName batch)) (schedule : Schedule)
    {result : Except JobError Summary} {run : Run}
    (ends : job.runWith schedule now output session = (result, run))
    (written : run.session.store.requests.putErrors = opened.store.requests.putErrors) :
    ∃ (summary : Summary) (last : FailureLog) (batches : List (List Json.Value)),
      (result = .ok summary ∨ ∃ cause, result = .error (.aborted cause summary)) ∧
      run.tracker.log = some last ∧ last.pending = [] ∧
      (∀ batch, (log.object? run.session.store batch).map Json.parseLines? =
        batches[batch]?.map some) ∧
      List.Forall₂ (fun value failure =>
        ∃ record : FailureRecord, record.ReadsAs value ∧ record.Tells failure)
        batches.flatten summary.failures ∧
      (∀ batch ∈ batches.dropLast, batch.length = 100) ∧
      ∀ batch ∈ batches.getLast?, 1 ≤ batch.length ∧ batch.length ≤ 100 := by
  have plain : ∀ batch, Key.Plain (log.batchName batch) :=
    FailureLog.plain_batchName (openLog_fresh isOpen).1
  have begins : job.Begins now output session _ := ⟨some log, opened, isOpen, rfl⟩
  have imported := (keeps_logging plain opened.store.requests.putErrors schedule).importSources job
    job.config.source.paths (Begins.logging isOpen vacant apart)
  have closed := Logging.closeLog plain (Logging.deliver plain job imported)
  rw [runWith_of_begins begins, ended] at ends
  obtain ⟨reported, tracker, store⟩ := conclude_cases
    (job.deliver (job.importSources schedule _ job.config.source.paths).1
      (job.importSources schedule _ job.config.source.paths).2).1 (Job.closeLog _ _)
  rw [ends] at reported tracker store
  simp only at reported tracker store
  rw [store] at written ⊢
  obtain ⟨last, batches, isLast, tracks, complete⟩ := closed.logs written
  have records := tracks.records
  rw [complete.waiting, List.append_nil] at records
  refine ⟨_, last, batches.map (·.map FailureRecord.toJson), reported, tracker ▸ isLast,
    complete.waiting, ?_, ?_, ?_, ?_⟩
  · intro batch
    rw [tracks.objects batch, Option.map_map, List.getElem?_map, Option.map_map]
    simp only [Function.comp_def, FailureRecord.parseLines?_bytes]
  · rw [← List.map_flatten, List.forall₂_map_left_iff]
    exact records.imp fun record _ tells => ⟨record, record.readsAs_toJson, tells⟩
  · rw [← List.map_dropLast]
    exact List.forall_mem_map.mpr fun batch listed =>
      (List.length_map _).trans (complete.whole batch listed)
  · rw [List.getLast?_map]
    intro values isValues
    obtain ⟨batch, isBatch, rfl⟩ := Option.map_eq_some_iff.mp isValues
    rw [List.length_map]
    exact complete.last batch isBatch

/-- The one failure of a job that it stops is in the first batch of its log. -/
theorem runWith_logsFailures_openQuote :
    let job : Job := {
      config := {
        source := { paths := ["memory://open.csv"], chunkSize := 1, maxConcurrent := 1 }
        errors := { logPath := some "memory://log", maxFailures := 1 } }
      dialect := {}
      header := none }
    let session : Session := { store := { memory := [(⟨["open.csv"]⟩, [97, 10, 34])] } }
    let failure : Failure := {
      chunk := ⟨"memory://open.csv", 0, ⟨2, 3⟩⟩, kind := .unterminatedQuote, line := 2
      message := "Unterminated quoted field starting at line 2 (byte offset 0) " ++
        "(0 written, 0 skipped before failure)" }
    ∃ (log : FailureLog) (opened : Session) (summary : Summary) (run : Run)
      (value : Json.Value) (record : FailureRecord),
      job.openLog {} (session.tell .job .info job.startNotice) = (.ok (some log), opened) ∧
      job.runWith {} {} (.sink {}) session =
        (.error (.aborted (.tooManyFailures ⟨1, failure⟩) summary), run) ∧
      summary.failures = [failure] ∧
      (log.object? run.session.store 0).map Json.parseLines? = some (some [value]) ∧
      record.ReadsAs value ∧ record.Tells failure := by
  intro job session failure
  let log : FailureLog := {
    provider := { location := .memory (some ⟨["log"]⟩) }
    stem := FailureLog.stemAt {} }
  let started := session.tell .job .info job.startNotice
  have isOpen : job.openLog {} started = (.ok (some log), (job.openLog {} started).2) := by
    refine Prod.ext ?_ rfl
    decide +kernel
  have vacant : ∀ batch, log.object? (job.openLog {} started).2.store batch = none := by
    intro batch
    have plain : Key.Plain (log.batchName batch) :=
      FailureLog.plain_batchName (openLog_fresh isOpen).1 batch
    have store : (job.openLog {} started).2.store = session.store := by decide +kernel
    unfold FailureLog.object? Provider.object? Provider.fetch
    rw [store, plain.key]
    rfl
  have result : (job.runWith {} {} (.sink {}) session).1 =
      .error (.aborted (.tooManyFailures ⟨1, failure⟩)
        { sources := 1, chunksFailed := 1, failures := [failure] }) := by
    decide +kernel
  have ran : job.runWith {} {} (.sink {}) session =
      (_, (job.runWith {} {} (.sink {}) session).2) := Prod.ext result rfl
  have written : (job.runWith {} {} (.sink {}) session).2.session.store.requests.putErrors =
      (job.openLog {} started).2.store.requests.putErrors := by
    decide +kernel
  have apart : ∀ batch, Output.Apart (.sink {}) log.provider (log.batchName batch) :=
    fun _ => trivial
  obtain ⟨summary, last, batches, reported, -, -, read, records, whole, -⟩ :=
    runWith_logsFailures isOpen vacant apart {} ran written
  have failures : summary.failures = [failure] := by
    rcases reported with same | ⟨cause, same⟩ <;> cases same
    rfl
  rw [failures] at records
  obtain ⟨value, none, ⟨record, reads, tells⟩, rest, flat⟩ := List.forall₂_cons_right_iff.mp records
  cases rest
  -- A batch that another one follows is full, so the one record is in the last batch.
  have single : batches[0]? = some [value] := by
    rcases batches with _ | ⟨batch, _ | ⟨next, more⟩⟩
    · cases flat
    · exact congrArg some ((List.flatten_singleton).symm.trans flat)
    · have full : batch.length = 100 := whole batch (List.mem_cons_self ..)
      have count := congrArg List.length flat
      rw [List.flatten_cons, List.length_append, full, List.length_singleton] at count
      omega
  have first := read 0
  rw [single] at first
  exact ⟨log, _, _, _, value, record, isOpen, ran, rfl, first, reads, tells⟩

end Job

end CsvImport

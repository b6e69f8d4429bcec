import CsvImport.Proofs.Importing
import CsvImport.Proofs.Ingestion
import CsvImport.Proofs.Loading

/-!
# Undisturbed runs

When no shutdown is asked for, the output takes everything and failures are not limited
or there are none, then nothing stops an import: every step succeeds and leaves all this as
it was.
-/

namespace CsvImport

/-- A job that nothing stops.  Its output takes everything, no shutdown was asked for, and
where chunks may fail, failures are neither limited nor logged. -/
structure Run.Undisturbed (run : Run) (store : Store) (failing : Prop) : Prop where
  isSink : run.output.isSink
  accepting : run.output.Accepting
  limit : failing → run.tracker.limit = 0
  log : failing → run.tracker.log = none
  going : run.stopping = false
  whole : run.summary.cancelled = false
  store : run.session.store = store

namespace Run

variable {run : Run} {store : Store} {failing : Prop} {schedule : Schedule}

theorem Undisturbed.asks {asked : Run} (undisturbed : run.Undisturbed store failing)
    (asks : run.Asks schedule asked) (calm : schedule.Calm) :
    asked.Undisturbed store failing where
  isSink := by rw [asks.output]; exact undisturbed.isSink
  accepting := by rw [asks.output]; exact undisturbed.accepting
  limit := by rw [asks.tracker]; exact undisturbed.limit
  log := by rw [asks.tracker]; exact undisturbed.log
  going := (asks.stopping calm).trans undisturbed.going
  whole := by rw [asks.summary]; exact undisturbed.whole
  store := asks.store.trans undisturbed.store

theorem Undisturbed.count (undisturbed : run.Undisturbed store failing)
    (change : Metrics → Metrics) : (run.count change).Undisturbed store failing :=
  { undisturbed with }

theorem Undisturbed.tell (undisturbed : run.Undisturbed store failing) (level : NoticeLevel)
    (text : String) : (run.tell level text).Undisturbed store failing :=
  { undisturbed with }

/-- Sources are counted, and nothing else changes. -/
theorem Undisturbed.sources (undisturbed : run.Undisturbed store failing)
    (sources emptySources : Nat) :
    Undisturbed { run with summary := { run.summary with sources, emptySources } } store
      failing :=
  { undisturbed with }

theorem Undisturbed.write (undisturbed : run.Undisturbed store failing) (path : String)
    (ready : List ChunkOutput) :
    (run.write path ready).1 = .ok () ∧ (run.write path ready).2.Undisturbed store failing := by
  constructor
  · exact write_of_accepting undisturbed.accepting path ready
  · induction ready generalizing run with
    | nil => exact undisturbed
    | cons first more ih =>
        obtain ⟨whole, still⟩ := undisturbed.accepting.writeAll run.session first.bytes
        have sink := run.output.isSink_writeAll run.session first.bytes
        have alone := Output.session_writeAll undisturbed.isSink run.session first.bytes
        unfold Run.write
        rcases written : run.output.writeAll run.session first.bytes with ⟨outcome, output, session⟩
        rw [written] at whole still sink alone
        obtain rfl : outcome = .ok () := whole
        obtain rfl : session = run.session := alone
        exact ih { undisturbed with
          isSink := sink.trans undisturbed.isSink
          accepting := still }

/-- A chunk that may fail does so without consequences. -/
theorem Undisturbed.fail (undisturbed : run.Undisturbed store failing) (may : failing)
    (failure : Failure) (now : Timestamp) :
    (run.fail failure now).1 = none ∧ (run.fail failure now).2.Undisturbed store failing := by
  obtain ⟨log, same⟩ :=
    run.tracker.record_of_no_log failure now run.session (undisturbed.log may)
  obtain ⟨_, limit⟩ := run.tracker.failures_record failure now run.session
  constructor
  · cases recorded : (run.tracker.record failure now run.session).1 with
    | none => exact recorded
    | some excess =>
        have limited := run.tracker.limit_ne_zero_of_record failure now run.session recorded
        exact absurd (undisturbed.limit may) limited
  · exact { undisturbed with
      limit := fun _ => limit.trans (undisturbed.limit may)
      log := fun _ => log
      store := same.trans undisturbed.store }

end Run

namespace Flight

variable {job : Job} {source : Source} {failing : Prop} {flight : Flight}

/-- Every chunk that has not ended can be ingested, unless chunks may fail. -/
def Sound (job : Job) (source : Source) (failing : Prop) (flight : Flight) : Prop :=
  ∀ chunk ∈ flight.inFlight ++ flight.queued, failing ∨ (job.output? source chunk).isSome

theorem Sound.fill (sound : flight.Sound job source failing) (limit : Nat) :
    (flight.fill limit).Sound job source failing := by
  unfold Sound
  rw [flight.left_fill]
  exact sound

theorem Sound.take? (sound : flight.Sound job source failing) {pick : Nat} {chunk : Chunk}
    {rest : Flight} (taken : flight.take? pick = some (chunk, rest)) :
    (failing ∨ (job.output? source chunk).isSome) ∧ rest.Sound job source failing := by
  obtain ⟨perm, queue, _⟩ := perm_take? taken
  have inside := (perm.append_right flight.queued).symm.subset
  refine ⟨sound chunk (inside (List.mem_cons_self ..)), fun other member => ?_⟩
  rw [queue] at member
  exact sound other (inside (List.mem_cons_of_mem chunk member))

end Flight

namespace Job

variable {run : Run} {store : Store} {failing : Prop} {schedule : Schedule}

theorem undisturbed_release (undisturbed : run.Undisturbed store failing) (job : Job)
    (flight : Flight) (index : Nat) (output : Option ChunkOutput) :
    (job.release run flight index output).1 = .ok () ∧
      (job.release run flight index output).2.1.Undisturbed store failing :=
  (undisturbed.count _).write ..

/-- The end of a chunk leaves the others where they are. -/
theorem flight_finish (job : Job) (source : Source) (turn : Turn) (chunk : Chunk) (run : Run)
    (flight : Flight) :
    (job.finish source turn chunk run flight).2.2.inFlight = flight.inFlight ∧
      (job.finish source turn chunk run flight).2.2.queued = flight.queued := by
  obtain ⟨fate, ended, _, _, _, same | ⟨excess, _, _, same⟩⟩ :=
    job.finish_cases source turn chunk run flight
  · rw [same]
    exact ⟨rfl, rfl⟩
  · rw [same]
    exact ⟨rfl, rfl⟩

/-- A chunk that had begun ends without an error. -/
theorem undisturbed_finish (undisturbed : run.Undisturbed store failing) (job : Job)
    (source : Source) {turn : Turn} (begun : turn.unstarted = false) {chunk : Chunk}
    (sound : failing ∨ (job.output? source chunk).isSome) (flight : Flight) :
    (job.finish source turn chunk run flight).1 = .ok () ∧
      (job.finish source turn chunk run flight).2.1.Undisturbed store failing := by
  unfold finish
  rw [if_neg (by rw [begun]; exact Bool.false_ne_true)]
  unfold output? at sound
  generalize job.ingest source chunk = ingested at sound ⊢
  rcases ingested with ⟨e | output, ingestion⟩
  · have may : failing := sound.resolve_right Bool.false_ne_true
    obtain ⟨none, still⟩ :=
      (undisturbed.count ingestion.record).fail may (.ofError chunk.id e) turn.now
    simp only
    rcases failed : (run.count ingestion.record).fail (.ofError chunk.id e) turn.now with
      ⟨excess, after⟩
    rw [failed] at none still
    cases none
    exact undisturbed_release still ..
  · exact undisturbed_release ((undisturbed.count _).count _) ..

def Step.Undisturbed (job : Job) (source : Source) (store : Store) (failing : Prop) :
    Step → Prop
  | .again after left => after.Undisturbed store failing ∧ left.Sound job source failing
  | .done result after => result = .ok () ∧ after.Undisturbed store failing

theorem undisturbed_advance (undisturbed : run.Undisturbed store failing) (calm : schedule.Calm)
    (job : Job) (source : Source) {flight : Flight}
    (sound : flight.Sound job source failing) :
    (job.advance schedule source run flight).Undisturbed job source store failing := by
  have advances := job.advances_advance schedule source run flight
  have filled := sound.fill job.config.source.maxConcurrent
  generalize job.advance schedule source run flight = step at advances
  cases advances with
  | leave asks stopping =>
      have going := (undisturbed.asks asks calm).going
      rw [stopping] at going
      cases going
  | idle asks => exact ⟨rfl, undisturbed.asks asks calm⟩
  | @again asked after question chunk rest left asks taken finished =>
      obtain ⟨fine, others⟩ := filled.take? taken
      have still := (undisturbed_finish (undisturbed.asks asks calm) job source
        (calm.unstarted question) fine rest).2
      obtain ⟨inFlight, queued⟩ :=
        job.flight_finish source (schedule.turn question) chunk asked rest
      rw [finished] at still inFlight queued
      refine ⟨still, ?_⟩
      unfold Flight.Sound at others ⊢
      rwa [inFlight, queued]
  | @fail asked after question chunk rest left e asks taken finished =>
      have fine := (undisturbed_finish (undisturbed.asks asks calm) job source
        (calm.unstarted question) (filled.take? taken).1 rest).1
      rw [finished] at fine
      cases fine

theorem undisturbed_importChunks (undisturbed : run.Undisturbed store failing)
    (calm : schedule.Calm) (job : Job) (source : Source) {flight : Flight}
    (sound : flight.Sound job source failing) :
    (job.importChunks schedule source run flight).1 = .ok () ∧
      (job.importChunks schedule source run flight).2.Undisturbed store failing := by
  fun_induction Job.importChunks job schedule source run flight with
  | case1 run flight result after step =>
      have ends := undisturbed_advance undisturbed calm job source sound
      rw [step] at ends
      exact ends
  | case2 run flight after left step ih =>
      have goes := undisturbed_advance undisturbed calm job source sound
      rw [step] at goes
      exact ih goes.1 goes.2

/-- A source is imported to its end. -/
theorem undisturbed_importSource (undisturbed : run.Undisturbed store failing)
    (calm : schedule.Calm) (job : Job) {source : Source}
    (sound : ∀ chunk ∈ source.chunks, failing ∨ (job.output? source chunk).isSome) :
    (job.importSource schedule source run).1 = .ok () ∧
      (job.importSource schedule source run).2.Undisturbed store failing := by
  unfold importSource
  simp only
  split
  · exact ⟨rfl, (undisturbed.sources ..).tell ..⟩
  · have begun := undisturbed.sources (run.summary.sources + 1) run.summary.emptySources
    have queued : Flight.Sound job source failing { queued := source.chunks } := sound
    obtain ⟨fine, still⟩ := undisturbed_importChunks begun calm job source queued
    split
    · rename_i ended
      rw [ended] at fine
      cases fine
    · rename_i ended
      rw [ended] at still
      exact ⟨rfl, still.tell ..⟩

end Job

end CsvImport

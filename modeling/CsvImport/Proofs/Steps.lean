import CsvImport.Proofs.Flights
import CsvImport.Proofs.Totals

/-!
# Steps

What one step of the import of a source can do: ask the schedule, give up the chunks
that are left, or end one of the chunks in flight and write what is then in order.
-/

namespace CsvImport

structure Schedule.Calm (schedule : Schedule) : Prop where
  stops : ∀ question writes, schedule.stops question writes = false
  unstarted : ∀ question, (schedule.turn question).unstarted = false

namespace Run

/-- The job has only asked and counted between its two states. -/
structure Asks (schedule : Schedule) (before after : Run) : Prop where
  output : after.output = before.output
  tracker : after.tracker = before.tracker
  summary : after.summary = before.summary
  store : after.session.store = before.session.store
  totals : after.session.totals = before.session.totals
  stopping : schedule.Calm → after.stopping = before.stopping

variable {schedule : Schedule} {before between after : Run}

theorem Asks.gains (asks : Asks schedule before after) : before.Gains after {} :=
  gains_nothing asks.output asks.tracker asks.summary (.inr asks.store)

theorem Asks.trans (former : Asks schedule before between) (latter : Asks schedule between after) :
    Asks schedule before after where
  output := latter.output.trans former.output
  tracker := latter.tracker.trans former.tracker
  summary := latter.summary.trans former.summary
  store := latter.store.trans former.store
  totals := latter.totals.trans former.totals
  stopping calm := (latter.stopping calm).trans (former.stopping calm)

theorem asks_ask (run : Run) (schedule : Schedule) : Asks schedule run (run.ask schedule).2 where
  output := rfl
  tracker := rfl
  summary := rfl
  store := rfl
  totals := rfl
  stopping calm := by
    change (run.stopping || schedule.stops run.asked run.output.writes) = run.stopping
    rw [calm.stops, Bool.or_false]

theorem asks_setActive (run : Run) (schedule : Schedule) (amount : Nat) :
    Asks schedule run (run.count (·.setActive amount)) where
  output := rfl
  tracker := rfl
  summary := rfl
  store := rfl
  totals := rfl
  stopping _ := rfl

end Run

namespace Job

/-- The chunk can have ended like this: as its ingestion did, unless it had not begun. -/
inductive Ends (job : Job) (source : Source) (chunk : Chunk) : Fate → Prop where
  | succeeded {output : ChunkOutput} (ingested : (job.ingest source chunk).1 = .ok output) :
      Ends job source chunk (.succeeded output)
  | failed {e : IngestError} (ingested : (job.ingest source chunk).1 = .error e) :
      Ends job source chunk (.failed (.ofError chunk.id e))
  | cancelled : Ends job source chunk .cancelled

/-- What a step of an import can do. -/
inductive Advances (job : Job) (schedule : Schedule) (source : Source) (run : Run)
    (flight : Flight) : Step → Prop where
  /-- A shutdown was asked for. -/
  | leave {asked : Run} {left : Flight} (asks : run.Asks schedule asked)
      (stopping : asked.stopping = true)
      (same : left = flight ∨ left = flight.fill job.config.source.maxConcurrent) :
      Advances job schedule source run flight (.done (.ok ()) (abandon source asked left))
  /-- Nothing is in flight. -/
  | idle {asked : Run} (asks : run.Asks schedule asked)
      (none : (flight.fill job.config.source.maxConcurrent).inFlight = []) :
      Advances job schedule source run flight (.done (.ok ()) asked)
  /-- A chunk ends. -/
  | again {asked after : Run} {question : Nat} {chunk : Chunk} {rest left : Flight}
      (asks : run.Asks schedule asked)
      (taken : (flight.fill job.config.source.maxConcurrent).take? (schedule.turn question).pick =
        some (chunk, rest))
      (finished : job.finish source (schedule.turn question) chunk asked rest =
        (.ok (), after, left)) :
      Advances job schedule source run flight (.again after left)
  /-- A chunk ends, and the import with it. -/
  | fail {asked after : Run} {question : Nat} {chunk : Chunk} {rest left : Flight}
      {e : FatalError} (asks : run.Asks schedule asked)
      (taken : (flight.fill job.config.source.maxConcurrent).take? (schedule.turn question).pick =
        some (chunk, rest))
      (finished : job.finish source (schedule.turn question) chunk asked rest =
        (.error e, after, left)) :
      Advances job schedule source run flight (.done (.error e) after)

theorem inFlight_eq_nil_of_take? {flight : Flight} {pick : Nat}
    (none : flight.take? pick = none) : flight.inFlight = [] := by
  by_contra some
  have bound := Nat.mod_lt pick (List.length_pos_iff.mpr some)
  have absent := Option.map_eq_none_iff.mp none
  rw [List.getElem?_eq_none_iff] at absent
  omega

theorem advances_advance (job : Job) (schedule : Schedule) (source : Source) (run : Run)
    (flight : Flight) :
    Advances job schedule source run flight (job.advance schedule source run flight) := by
  have asks := run.asks_ask schedule
  have counts := fun amount => asks.trans (Run.asks_setActive _ schedule amount)
  have asksAgain := fun amount => (counts amount).trans (Run.asks_ask _ schedule)
  unfold advance
  simp only
  split
  · rename_i stopping
    exact .leave asks stopping (.inl rfl)
  · split
    · rename_i none
      exact .idle (counts _) (List.isEmpty_iff.mp none)
    · split
      · rename_i stopping
        exact .leave (asksAgain _) stopping (.inr rfl)
      · split
        · rename_i none
          exact .idle (asksAgain _) (inFlight_eq_nil_of_take? none)
        · rename_i chunk rest taken
          split
          · rename_i finished
            exact .again (asksAgain _) taken finished
          · rename_i finished
            exact .fail (asksAgain _) taken finished

theorem gains_abandon (source : Source) (run : Run) (flight : Flight) :
    run.Gains (abandon source run flight) { cancelled := flight.abandoned, stopped := true } := by
  have told := run.gains_tell .info ("Shutdown requested, abandoning " ++
    toString flight.abandoned ++ " chunks of " ++ source.path)
  have both := told.trans rfl (Run.gains_addCancelled _ flight.abandoned)
  rw [Gain.empty_andThen] at both
  exact both

/-- What releasing a chunk's output does. -/
theorem release_cases (job : Job) (run : Run) (flight : Flight) (index : Nat)
    (output : Option ChunkOutput) {ready : List ChunkOutput} {reorder : ReorderBuffer}
    (drained : (flight.reorder.insert index output).drain = (ready, reorder)) :
    (job.release run flight index output).2.2 = { flight with reorder } ∧
      ∃ gain, run.Gains (job.release run flight index output).2.1 gain ∧
        Run.Writes job.config.output.path ready (job.release run flight index output).1 gain := by
  unfold release
  rw [drained]
  refine ⟨rfl, ?_⟩
  obtain ⟨gain, gains, writes⟩ :=
    (run.count (·.setPending reorder.pending.length)).writes_write job.config.output.path ready
  have both := (run.gains_count (·.setPending reorder.pending.length)).trans rfl gains
  rw [Gain.empty_andThen] at both
  exact ⟨gain, both, writes⟩

/-- How a chunk that was in flight ends: its output is released, unless it is one failure
too many. -/
theorem finish_cases (job : Job) (source : Source) (turn : Turn) (chunk : Chunk) (run : Run)
    (flight : Flight) :
    ∃ fate ended, job.Ends source chunk fate ∧ run.Gains ended fate.gain ∧
      (fate = .cancelled → turn.unstarted = true) ∧
      (job.finish source turn chunk run flight =
          job.release ended flight chunk.id.index fate.output? ∨
        ∃ excess, fate.output? = none ∧ run.tracker.limit ≠ 0 ∧
          job.finish source turn chunk run flight =
            (.error (.tooManyFailures excess), ended, flight)) := by
  unfold finish
  by_cases unstarted : turn.unstarted = true
  · rw [if_pos unstarted]
    have stopped : run.Gains { run with stopping := true } {} :=
      Run.gains_nothing rfl rfl rfl (.inr rfl)
    have both := stopped.trans rfl (Run.gains_addCancelled _ 1)
    rw [Gain.empty_andThen] at both
    exact ⟨.cancelled, _, .cancelled, both, fun _ => unstarted, .inl rfl⟩
  · rw [if_neg unstarted]
    rcases ingested : job.ingest source chunk with ⟨result, ingestion⟩
    have same : (job.ingest source chunk).1 = result := by rw [ingested]
    cases result with
    | ok output =>
        have counted := (run.gains_count ingestion.record).trans rfl
          (Run.gains_count _ (·.chunkDecoded))
        rw [Gain.empty_andThen] at counted
        exact ⟨.succeeded output, _, .succeeded same, counted, fun no => (by cases no), .inl rfl⟩
    | error e =>
        have failed := (run.gains_count ingestion.record).trans rfl
          (Run.gains_fail _ (.ofError chunk.id e) turn.now)
        rw [Gain.empty_andThen] at failed
        refine ⟨.failed (.ofError chunk.id e), _, .failed same, failed,
          fun no => (by cases no), ?_⟩
        simp only
        rcases recorded : (run.count ingestion.record).fail (.ofError chunk.id e) turn.now with
          ⟨_ | excess, ended⟩
        · exact .inl rfl
        · refine .inr ⟨excess, rfl, ?_, rfl⟩
          exact run.tracker.limit_ne_zero_of_record _ _ _ (congrArg Prod.fst recorded)

end Job

end CsvImport

import CsvImport.Proofs.Keeping
import CsvImport.Proofs.Metering

/-!
# The gauge of chunks in flight

The gauge is set by every step of the import of a source, when chunks have been started.  The step
that finds nothing in flight sets it to zero.  A step that ends the import of a source in another
way leaves the number of chunks that were in flight.
-/

namespace CsvImport

namespace Session

def gauge (session : Session) : Option Nat :=
  session.metrics.activeChunks

end Session

/-- A gauge is where it was at first, or shows that nothing is in flight. -/
def Rests (start gauge : Option Nat) : Prop :=
  gauge = start ∨ gauge = some 0

/-- A gauge shows that chunks are in flight, and no more than the limit. -/
def Busy (limit : Nat) (gauge : Option Nat) : Prop :=
  ∃ amount, gauge = some amount ∧ 0 < amount ∧ amount ≤ limit

/-! ## What does not set the gauge -/

namespace Run

theorem gauge_addCancelled (run : Run) (amount : Nat) :
    (run.addCancelled amount).session.gauge = run.session.gauge := by
  cases amount <;> rfl

theorem gauge_write (run : Run) (path : String) (ready : List ChunkOutput) :
    (run.write path ready).2.session.gauge = run.session.gauge := by
  induction ready generalizing run with
  | nil => rfl
  | cons first ready ih =>
      have metrics := run.output.metrics_writeAll run.session first.bytes
      unfold write
      rcases written : run.output.writeAll run.session first.bytes with ⟨_ | _, output, session⟩
      · rw [written] at metrics
        exact congrArg Metrics.activeChunks metrics
      · rw [written] at metrics
        have same : session.gauge = run.session.gauge := congrArg Metrics.activeChunks metrics
        exact (ih _).trans same

theorem gauge_fail (run : Run) (failure : Failure) (now : Timestamp) :
    (run.fail failure now).2.session.gauge = run.session.gauge := by
  have recorded : (run.fail failure now).2.session.metrics =
      run.session.metrics.chunksEnded .failed 1 :=
    run.tracker.metrics_record failure now run.session
  have same := congrArg Metrics.activeChunks recorded
  exact same

end Run

namespace Job

section

variable {job : Job} {schedule : Schedule} {source : Source} {run : Run} {flight : Flight}

theorem gauge_prepare (job : Job) (path : String) (session : Session) :
    (job.prepare path session).2.gauge = session.gauge :=
  prepare_kept Session.gauge (fun _ _ => rfl) (fun _ _ => rfl) (fun _ _ => rfl) job path session

theorem gauge_release (job : Job) (run : Run) (flight : Flight) (index : Nat)
    (output : Option ChunkOutput) :
    (job.release run flight index output).2.1.session.gauge = run.session.gauge :=
  Run.gauge_write ..

/-- The end of a chunk does not set the gauge. -/
theorem gauge_finish (job : Job) (source : Source) (turn : Turn) (chunk : Chunk) (run : Run)
    (flight : Flight) :
    (job.finish source turn chunk run flight).2.1.session.gauge = run.session.gauge := by
  unfold finish
  split
  · exact job.gauge_release ..
  · rcases job.ingest source chunk with ⟨e | output, ingestion⟩
    · have failed := (run.count ingestion.record).gauge_fail (.ofError chunk.id e) turn.now
      simp only
      generalize (run.count ingestion.record).fail (.ofError chunk.id e) turn.now = ended
        at failed ⊢
      rcases ended with ⟨_ | excess, ended⟩
      · exact (job.gauge_release ..).trans failed
      · exact failed
    · exact job.gauge_release ..

theorem inFlight_finish (job : Job) (source : Source) (turn : Turn) (chunk : Chunk) (run : Run)
    (flight : Flight) :
    (job.finish source turn chunk run flight).2.2.inFlight = flight.inFlight := by
  unfold finish
  split
  · rfl
  · simp only
    split
    · rfl
    · split <;> rfl

/-- The end of a chunk ends an import only with a failure too many, or if an output cannot be
written. -/
theorem error_finish {turn : Turn} {chunk : Chunk} {e : FatalError} {after : Run} {left : Flight}
    (finished : job.finish source turn chunk run flight = (.error e, after, left)) :
    (∃ excess, e = .tooManyFailures excess) ∨ ∃ path cause, e = .outputWrite path cause := by
  obtain ⟨fate, ended, -, -, -, released | ⟨excess, -, -, stopped⟩⟩ :=
    job.finish_cases source turn chunk run flight
  · obtain ⟨-, gain, -, writes⟩ := job.release_cases ended flight chunk.id.index fate.output? rfl
    rw [← released, finished] at writes
    cases writes
    exact .inr ⟨_, _, rfl⟩
  · cases finished.symm.trans stopped
    exact .inl ⟨excess, rfl⟩

end

/-! ## What a step leaves -/

inductive Step.Leaves (limit : Nat) (run : Run) : Step → Prop where
  /-- A chunk has ended. -/
  | again {after : Run} {left : Flight} (busy : Busy limit after.session.gauge)
      (within : left.inFlight.length ≤ limit) : Leaves limit run (.again after left)
  /-- Nothing is in flight. -/
  | idle {after : Run} (zero : after.session.gauge = some 0) : Leaves limit run (.done (.ok ()) after)
  /-- A shutdown was asked for, before the gauge was set or behind it. -/
  | stopped {after : Run} (cancelled : after.summary.cancelled = true)
      (gauge : after.session.gauge = run.session.gauge ∨ Busy limit after.session.gauge) :
      Leaves limit run (.done (.ok ()) after)
  | failed {after : Run} {e : FatalError} (busy : Busy limit after.session.gauge)
      (cause : (∃ excess, e = .tooManyFailures excess) ∨ ∃ path cause, e = .outputWrite path cause) :
      Leaves limit run (.done (.error e) after)

/-- Behind a shutdown the gauge shows what it did. -/
theorem gauge_abandon (source : Source) (run : Run) (flight : Flight) :
    (abandon source run flight).session.gauge = run.session.gauge :=
  Run.gauge_addCancelled ..

theorem leaves_advance (job : Job) (schedule : Schedule) (source : Source) (run : Run)
    {flight : Flight} (within : flight.inFlight.length ≤ job.config.source.maxConcurrent) :
    (job.advance schedule source run flight).Leaves job.config.source.maxConcurrent run := by
  unfold advance
  simp only
  split
  · exact .stopped rfl (.inl (gauge_abandon ..))
  · split
    · rename_i none
      refine .idle ?_
      exact congrArg (some ·.length) (List.isEmpty_iff.mp none)
    · rename_i some
      have busy : Busy job.config.source.maxConcurrent
          (Option.some (flight.fill job.config.source.maxConcurrent).inFlight.length) :=
        ⟨_, rfl, List.length_pos_iff.mpr (mt List.isEmpty_iff.mpr some),
          Flight.length_fill_le within⟩
      split
      · refine .stopped rfl (.inr ?_)
        rw [gauge_abandon]
        exact busy
      · split
        · rename_i none
          exact absurd (List.isEmpty_iff.mpr (inFlight_eq_nil_of_take? none)) some
        · rename_i chunk rest taken
          have shorter := (Flight.perm_take? taken).1.length_eq
          rw [List.length_cons] at shorter
          split
          · rename_i after left finished
            have gauge := congrArg (·.2.1.session.gauge) finished
            have inFlight := congrArg (·.2.2.inFlight) finished
            rw [gauge_finish] at gauge
            rw [inFlight_finish] at inFlight
            refine .again (gauge ▸ busy) ?_
            have few := Flight.length_fill_le within
            rw [← inFlight]
            omega
          · rename_i e after left finished
            have gauge := congrArg (·.2.1.session.gauge) finished
            rw [gauge_finish] at gauge
            exact .failed (gauge ▸ busy) (error_finish finished)

/-! ## What an import leaves -/

/-- Whether an import was stopped while chunks may have been in flight. -/
inductive Interrupted (cancelled : Bool) : Except FatalError Unit → Prop where
  | shutdown {result : Except FatalError Unit} (stopped : cancelled = true) :
      Interrupted cancelled result
  | tooMany (excess : FailureExcess) : Interrupted cancelled (.error (.tooManyFailures excess))
  | unwritten (path : String) (cause : Option String) :
      Interrupted cancelled (.error (.outputWrite path cause))

/-- What the gauge shows where an import stands, if it showed `start` at first. -/
def Stage.Gauged (limit : Nat) (start : Option Nat) : Stage → Prop
  | .between run _ => Rests start run.session.gauge
  | .within run _ _ flight _ =>
      (Rests start run.session.gauge ∨ Busy limit run.session.gauge) ∧
        flight.inFlight.length ≤ limit
  | .done result run =>
      (Rests start run.session.gauge ∨
        Busy limit run.session.gauge ∧ Interrupted run.summary.cancelled result) ∧
      ∀ excess, result = .error (.tooManyFailures excess) → Busy limit run.session.gauge

section

variable {limit : Nat} {start : Option Nat} {run : Run}

theorem gauged_leave (rests : Rests start run.session.gauge) (paths : List String) :
    (Stage.leave run paths).Gauged limit start := by
  unfold Stage.leave
  split
  · exact ⟨.inl rests, nofun⟩
  · exact rests

theorem gauged_enter (rests : Rests start run.session.gauge) (source : Source)
    (paths : List String) : (Stage.enter run source paths).Gauged limit start := by
  unfold Stage.enter
  simp only
  split
  · apply gauged_leave
    exact rests
  · exact ⟨.inl rests, Nat.zero_le _⟩

/-- In front of a source the gauge does not change. -/
theorem gauged_takeUp (job : Job) (schedule : Schedule) (rests : Rests start run.session.gauge)
    (path : String) (more : List String) :
    (job.takeUp schedule run path more).Gauged limit start := by
  unfold takeUp
  simp only
  split
  · exact ⟨.inl rests, nofun⟩
  · have read := job.gauge_prepare path (run.ask schedule).2.session
    rcases prepared : job.prepare path (run.ask schedule).2.session with
      ⟨e | _ | source, session⟩ <;> rw [prepared] at read
    · refine ⟨.inl ?_, fun excess same => ?_⟩
      · change Rests start session.gauge
        rw [read]
        exact rests
      · obtain rfl := Except.error.inj same
        rcases prepare_error_cases prepared with ⟨_, other⟩ | ⟨_, other⟩ <;> cases other
    · change Rests start session.gauge
      rw [read]
      exact rests
    · refine gauged_enter ?_ source more
      change Rests start session.gauge
      rw [read]
      exact rests

/-- Every move leaves the gauge as it should be. -/
theorem gauged_move (job : Job) (schedule : Schedule) {stage : Stage}
    (gauged : stage.Gauged job.config.source.maxConcurrent start) :
    (job.move schedule stage).Gauged job.config.source.maxConcurrent start := by
  cases stage with
  | between run paths =>
      cases paths with
      | nil => exact ⟨.inl gauged, nofun⟩
      | cons path more => exact job.gauged_takeUp schedule gauged path more
  | within run source before flight paths =>
      obtain ⟨shown, within⟩ := gauged
      have leaves := job.leaves_advance schedule source run within
      unfold move
      simp only
      generalize job.advance schedule source run flight = step at leaves ⊢
      cases leaves with
      | again busy within => exact ⟨.inr busy, within⟩
      | idle zero =>
          apply gauged_leave
          exact .inr zero
      | @stopped after cancelled gauge =>
          have shows : Rests start after.session.gauge ∨
              Busy job.config.source.maxConcurrent after.session.gauge := by
            rcases gauge with same | busy
            · rwa [same]
            · exact .inr busy
          unfold Stage.finished Stage.leave
          simp only
          rw [if_pos (show (after.tell ..).summary.cancelled = true from cancelled)]
          exact ⟨shows.imp_right fun busy => ⟨busy, .shutdown cancelled⟩, nofun⟩
      | failed busy cause =>
          refine ⟨.inr ⟨busy, ?_⟩, fun _ _ => busy⟩
          rcases cause with ⟨excess, rfl⟩ | ⟨path, cause, rfl⟩
          · exact .tooMany excess
          · exact .unwritten path cause
  | done result run => exact gauged

theorem gauged_importSources (job : Job) (schedule : Schedule) (start : Run)
    (paths : List String) :
    (Stage.done (job.importSources schedule start paths).1
      (job.importSources schedule start paths).2).Gauged job.config.source.maxConcurrent
        start.session.gauge := by
  obtain ⟨moves, reached⟩ := job.stage_importSources schedule start paths
  rw [← reached]
  have initial : (Stage.between start paths).Gauged job.config.source.maxConcurrent
      start.session.gauge := .inl rfl
  exact stage_induction initial (fun _ gauged => job.gauged_move schedule gauged) moves

end

/-! ## Whole jobs -/

/-- Whether the result of a job tells that it was stopped while chunks may have been in flight. -/
inductive CutShort : Except JobError Summary → Prop where
  | shutdown {summary : Summary} (cancelled : summary.cancelled = true) : CutShort (.ok summary)
  | aborted {cause : FatalError} {summary : Summary}
      (interrupted : Interrupted summary.cancelled (.error cause)) :
      CutShort (.error (.aborted cause summary))

theorem Begins.gauged {job : Job} {now : Timestamp} {output : Output} {session : Session}
    {start : Run} (begins : job.Begins now output session start) (schedule : Schedule) :
    let ended := job.runWith schedule now output session
    let after := ended.2.session.gauge
    (Rests session.gauge after ∨ Busy job.config.source.maxConcurrent after ∧ CutShort ended.1) ∧
      ∀ excess summary, ended.1 = .error (.aborted (.tooManyFailures excess) summary) →
        Busy job.config.source.maxConcurrent after := by
  intro ended after
  have before : start.session.gauge = session.gauge :=
    congrArg Metrics.activeChunks begins.metrics
  obtain ⟨shown, tooMany⟩ :=
    job.gauged_importSources schedule start job.config.source.paths
  rw [before] at shown
  have ends : ended = job.ended (job.importSources schedule start job.config.source.paths).1
      (job.importSources schedule start job.config.source.paths).2 :=
    runWith_of_begins begins schedule
  generalize job.importSources schedule start job.config.source.paths = imported
    at shown tooMany ends
  obtain ⟨result, run⟩ := imported
  have same : after = run.session.gauge := by
    change ended.2.session.gauge = _
    rw [ends]
    exact congrArg Metrics.activeChunks (job.metrics_ended result run)
  rw [same]
  rcases job.ended_cases result run with ⟨rfl, completed⟩ | ⟨cause, aborted, known⟩
  · rw [ends, completed]
    refine ⟨?_, nofun⟩
    rcases shown with rests | ⟨busy, interrupted⟩
    · exact .inl rests
    · cases interrupted with
      | shutdown stopped => exact .inr ⟨busy, .shutdown stopped⟩
  · rw [ends, aborted]
    constructor
    · rcases shown with rests | ⟨busy, interrupted⟩
      · exact .inl rests
      · refine .inr ⟨busy, .aborted ?_⟩
        rcases known with rfl | ⟨-, text, rfl⟩
        · exact interrupted
        · exact .unwritten ..
    · intro excess summary stopped
      obtain ⟨rfl, -⟩ := JobError.aborted.inj (Except.error.inj stopped)
      rcases known with rfl | ⟨-, text, other⟩
      · exact tooMany excess rfl
      · cases other

/-- However a job ends, the gauge is where it was before or shows that nothing is in flight, unless
the result tells that the job was stopped by a shutdown, by a failure too many or by an output that
could not be written.  Then it may show the chunks that were in flight, and does so if there was a
failure too many. -/
theorem gauge_atEnd {job : Job} {schedule : Schedule} {now : Timestamp} {session : Session}
    {result : Except JobError Summary} {run : Run}
    (ends : (∃ output, job.runWith schedule now output session = (result, run)) ∨
      job.run schedule now session = (result, run)) :
    let before := session.gauge
    let after := run.session.gauge
    (Rests before after ∨ Busy job.config.source.maxConcurrent after ∧ CutShort result) ∧
      ∀ excess summary, result = .error (.aborted (.tooManyFailures excess) summary) →
        Busy job.config.source.maxConcurrent after := by
  -- A job with its configured output is one with an open output, if that can be opened.
  have withOutput {opened : Session} {output : Output} (same : opened.gauge = session.gauge)
      (ran : job.runWith schedule now output opened = (result, run)) :
      (Rests session.gauge run.session.gauge ∨
        Busy job.config.source.maxConcurrent run.session.gauge ∧ CutShort result) ∧
        ∀ excess summary, result = .error (.aborted (.tooManyFailures excess) summary) →
          Busy job.config.source.maxConcurrent run.session.gauge := by
    rw [← same]
    rcases logged : job.openLog now (opened.tell .job .info job.startNotice) with ⟨e | log, after⟩
    · have metrics := job.metrics_openLog now (opened.tell .job .info job.startNotice)
      rw [logged] at metrics
      unfold runWith at ran
      simp only [logged] at ran
      cases ran
      exact ⟨.inl (.inl (congrArg Metrics.activeChunks metrics)), nofun⟩
    · have begins : job.Begins now output opened _ := ⟨log, after, logged, rfl⟩
      have gauged := begins.gauged schedule
      rwa [ran] at gauged
  rcases ends with ⟨output, ran⟩ | ran
  · exact withOutput rfl ran
  · have kept : (job.openOutput session).2.gauge = session.gauge := by
      unfold openOutput
      split
      · rfl
      · rcases Output.create? session.store job.config.output.path with ⟨output, store⟩
        rfl
    unfold Job.run at ran
    rcases opened : job.openOutput session with ⟨_ | output, after⟩ <;> rw [opened] at ran kept
    · cases ran
      exact ⟨.inl (.inl kept), nofun⟩
    · exact withOutput kept ran

/-- Two rows, each in a chunk of its own. -/
theorem gauge_atEnd_twoRows :
    let job : Job := {
      config := { source := { paths := ["memory://rows.csv"], chunkSize := 1, maxConcurrent := 1 } }
      dialect := {}
      header := none }
    let session : Session := {
      store := { memory := [(⟨["rows.csv"]⟩, [97, 10, 49, 10, 50, 10])] } }
    ∃ summary run, job.runWith {} {} (.sink {}) session = (.ok summary, run) ∧
      summary.cancelled = false ∧ (run.session.gauge = none ∨ run.session.gauge = some 0) := by
  intro job session
  have result : (job.runWith {} {} (.sink {}) session).1 = .ok {
      counts := ⟨2, 0⟩, sources := 1, chunksSucceeded := 2, bytesWritten := 20 } := by
    decide +kernel
  have ran : job.runWith {} {} (.sink {}) session =
      (_, (job.runWith {} {} (.sink {}) session).2) := Prod.ext result rfl
  obtain ⟨rests | ⟨-, cut⟩, -⟩ := gauge_atEnd (.inl ⟨_, ran⟩)
  · exact ⟨_, _, ran, rfl, rests⟩
  · cases cut with
    | shutdown cancelled => cases cancelled

/-- A failure too many stops a job while the gauge shows the chunk that has failed, and nothing sets
it to zero. -/
theorem gauge_atEnd_openQuote :
    let job : Job := {
      config := {
        source := { paths := ["memory://open.csv"], maxConcurrent := 1 }
        errors := { maxFailures := 1 } }
      dialect := {}
      header := none }
    let session : Session := { store := { memory := [(⟨["open.csv"]⟩, [97, 10, 34, 120])] } }
    session.gauge = none ∧ ∃ excess summary run,
      job.runWith {} {} (.sink {}) session =
        (.error (.aborted (.tooManyFailures excess) summary), run) ∧
      run.session.gauge = some 1 := by
  intro job session
  let failure : Failure := {
    chunk := ⟨"memory://open.csv", 0, ⟨2, 4⟩⟩, kind := .unterminatedQuote, line := 2
    message := "Unterminated quoted field starting at line 2 (byte offset 0) " ++
      "(0 written, 0 skipped before failure)" }
  have result : (job.runWith {} {} (.sink {}) session).1 =
      .error (.aborted (.tooManyFailures ⟨1, failure⟩)
        { sources := 1, chunksFailed := 1, failures := [failure] }) := by decide +kernel
  have gauge : (job.runWith {} {} (.sink {}) session).2.session.gauge = some 1 := by decide +kernel
  exact ⟨rfl, _, _, _, Prod.ext result rfl, gauge⟩

end Job

end CsvImport

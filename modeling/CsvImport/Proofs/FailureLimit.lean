import CsvImport.Proofs.Aborting
import CsvImport.Proofs.Keeping

/-!
# The limit of failures

A job with a limit records at most so many failures, over all of its sources.  The one that
reaches the limit ends the import at once: nothing is written, started or read behind it.
-/

namespace CsvImport

/-- The excess tells of failures that have reached the limit. -/
structure FailureExcess.Tells (excess : FailureExcess) (limit : Nat) (tracker : FailureTracker) :
    Prop where
  size : tracker.size = limit
  count : excess.count = limit
  first : tracker.failures.head? = some excess.first

namespace FailureTracker

structure Below (tracker : FailureTracker) (limit : Nat) : Prop where
  size : tracker.size < limit
  limit : tracker.limit = limit

section

variable {tracker : FailureTracker} {limit : Nat}

/-- Whether there are too many failures is settled by the failures alone. -/
theorem excess?_record (tracker : FailureTracker) (failure : Failure) (now : Timestamp)
    (session : Session) :
    (tracker.record failure now session).1 =
      excess? { tracker with failures := tracker.failures ++ [failure] } := by
  let noticed := (session.tell .failures .warn (notice failure)).count (·.chunksEnded .failed 1)
  let written := (tracker.writeLog failure now noticed).1
  obtain ⟨failures, limit⟩ := failures_writeLog tracker failure now noticed
  have same : excess? { written with failures := written.failures ++ [failure] } =
      excess? { tracker with failures := tracker.failures ++ [failure] } := by
    unfold excess? size
    rw [failures, limit]
  rw [← same]
  unfold record
  simp only
  split
  · rename_i found
    exact found.symm
  · rename_i found
    exact found.symm

/-- Below the limit there are not too many failures, and at the limit there are. -/
theorem Below.excess? (below : tracker.Below limit) (failure : Failure) :
    let recorded := { tracker with failures := tracker.failures ++ [failure] }
    (recorded.excess? = none ∧ recorded.size < limit) ∨
      ∃ first, recorded.excess? = some ⟨limit, first⟩ ∧ recorded.size = limit ∧
        recorded.failures.head? = some first := by
  intro recorded
  have size : recorded.size = tracker.size + 1 := List.length_append
  have same : recorded.limit = limit := below.limit
  have bound := below.size
  unfold FailureTracker.excess?
  by_cases small : recorded.size < limit
  · exact .inl ⟨if_pos (.inr (by rwa [same])), small⟩
  · have reached : recorded.size = limit := by omega
    rw [if_neg (by rw [same]; omega)]
    cases found : recorded.failures.head? with
    | none =>
        have none := congrArg List.length (List.head?_eq_none_iff.mp found)
        have some : recorded.failures.length = tracker.size + 1 := size
        rw [some] at none
        cases none
    | some first => exact .inr ⟨first, by rw [← reached]; rfl, reached, rfl⟩

/-- A failure below the limit leaves its tracker below the limit. -/
theorem Below.record (below : tracker.Below limit) {failure : Failure} {now : Timestamp}
    {session : Session} (fine : (tracker.record failure now session).1 = none) :
    (tracker.record failure now session).2.1.Below limit := by
  obtain ⟨failures, same⟩ := tracker.failures_record failure now session
  rw [excess?_record] at fine
  rcases below.excess? failure with ⟨_, small⟩ | ⟨first, exceeded, _⟩
  · refine ⟨?_, same.trans below.limit⟩
    rw [FailureTracker.size, failures]
    exact small
  · cases fine.symm.trans exceeded

theorem Below.exceed (below : tracker.Below limit) {failure : Failure} {now : Timestamp}
    {session : Session} {excess : FailureExcess}
    (tooMany : (tracker.record failure now session).1 = some excess) :
    excess.Tells limit (tracker.record failure now session).2.1 := by
  obtain ⟨failures, _⟩ := tracker.failures_record failure now session
  rw [excess?_record] at tooMany
  rcases below.excess? failure with ⟨fine, _⟩ | ⟨first, found, reached, isFirst⟩
  · cases tooMany.symm.trans fine
  · obtain rfl := Option.some.inj (tooMany.symm.trans found)
    refine ⟨?_, rfl, ?_⟩
    · rw [FailureTracker.size, failures]
      exact reached
    · rw [failures]
      exact isFirst

end

end FailureTracker

namespace Job

/-- Every operation but a failure leaves the number of failures alone, and a failure stops
the job when it reaches the limit. -/
theorem keeps_limit (schedule : Schedule) (limit : Nat) :
    Keeps schedule (fun run => run.tracker.Below limit)
      (fun excess run => excess.Tells limit run.tracker) where
  quiet holds _ tracker _ := by rwa [tracker]
  load holds _ := holds
  write holds _ := holds
  fail holds _ _ fine := holds.record fine
  exceed holds _ _ _ tooMany := holds.exceed tooMany

theorem release_ne_tooMany (job : Job) (run : Run) (flight : Flight) (index : Nat)
    (output : Option ChunkOutput) (excess : FailureExcess) :
    (job.release run flight index output).1 ≠ .error (.tooManyFailures excess) := by
  obtain ⟨_, gain, _, writes⟩ := job.release_cases run flight index output rfl
  intro same
  rw [same] at writes
  cases writes

/-- The failure that ends a job writes nothing. -/
theorem output_of_finish {job : Job} {source : Source} {turn : Turn} {chunk : Chunk}
    {run : Run} {flight : Flight} {excess : FailureExcess}
    (ended : (job.finish source turn chunk run flight).1 = .error (.tooManyFailures excess)) :
    (job.finish source turn chunk run flight).2.1.output = run.output := by
  revert ended
  unfold finish
  split
  · exact fun ended => absurd ended (job.release_ne_tooMany _ _ _ _ _)
  · rcases job.ingest source chunk with ⟨e | output, ingestion⟩
    · simp only
      split
      · rename_i recorded
        exact fun _ => congrArg (fun ended => ended.2.output) recorded.symm
      · exact fun ended => absurd ended (job.release_ne_tooMany _ _ _ _ _)
    · exact fun ended => absurd ended (job.release_ne_tooMany _ _ _ _ _)

theorem Stage.result_leave (run : Run) (paths : List String) :
    (leave run paths).result = .ok () := by
  unfold leave
  split <;> rfl

theorem Stage.result_enter (run : Run) (source : Source) (paths : List String) :
    (enter run source paths).result = .ok () := by
  unfold enter
  simp only
  split
  · exact result_leave ..
  · rfl

theorem Stage.result_finished (source : Source) (before : Counts) (paths : List String)
    (result : Except FatalError Unit) (run : Run) :
    (finished source before paths result run).result = result := by
  cases result with
  | error e => rfl
  | ok => exact result_leave ..

/-- Taking up a source counts no failures. -/
theorem takeUp_ne_tooMany (job : Job) (schedule : Schedule) (run : Run) (path : String)
    (more : List String) (excess : FailureExcess) :
    (job.takeUp schedule run path more).result ≠ .error (.tooManyFailures excess) := by
  unfold takeUp
  simp only
  split
  · exact fun same => by cases same
  · rcases prepared : job.prepare path (run.ask schedule).2.session with
      ⟨e | _ | source, session⟩
    · rcases prepare_error_cases prepared with ⟨source, rfl⟩ | ⟨source, rfl⟩
      · exact fun same => by cases same
      · exact fun same => by cases same
    · exact fun same => by cases same
    · simp only
      rw [Stage.result_enter]
      exact fun same => by cases same

/-- The move that ends an import with too many failures writes nothing. -/
theorem output_of_move {job : Job} {schedule : Schedule} {stage : Stage} {excess : FailureExcess}
    (reached : (job.move schedule stage).result = .error (.tooManyFailures excess)) :
    (job.move schedule stage).run.output = stage.run.output := by
  cases stage with
  | between run paths =>
      cases paths with
      | nil => rfl
      | cons path more => exact absurd reached (job.takeUp_ne_tooMany schedule run path more excess)
  | done result run => rfl
  | within run source before flight paths =>
      have advances := job.advances_advance schedule source run flight
      unfold move at reached ⊢
      simp only at reached ⊢
      generalize job.advance schedule source run flight = step at advances reached ⊢
      cases advances with
      | leave asks stopping same => cases (Stage.result_finished ..).symm.trans reached
      | idle asks none => cases (Stage.result_finished ..).symm.trans reached
      | again asks taken finished => cases reached
      | @fail asked after question chunk rest left e asks taken finished =>
          obtain rfl : e = .tooManyFailures excess := Except.error.inj reached
          have same := output_of_finish (congrArg Prod.fst finished)
          rw [finished] at same
          exact same.trans asks.output

/-- Either fewer failures were recorded than the limit, or they have ended the import. -/
theorem limit_cases {limit : Nat} {stage : Stage}
    (kept : stage.Kept (fun run => run.tracker.Below limit)
      (fun excess run => excess.Tells limit run.tracker)) :
    (stage.run.tracker.Below limit ∧
        ∀ excess, stage.result ≠ .error (.tooManyFailures excess)) ∨
      ∃ excess, stage = .done (.error (.tooManyFailures excess)) stage.run ∧
        excess.Tells limit stage.run.tracker := by
  cases stage with
  | between => exact .inl ⟨kept, fun _ same => by cases same⟩
  | within => exact .inl ⟨kept, fun _ same => by cases same⟩
  | done result run =>
      cases result with
      | ok => exact .inl ⟨kept, fun _ same => by cases same⟩
      | error e =>
          cases e with
          | tooManyFailures excess => exact .inr ⟨excess, rfl, kept⟩
          | sourceRead => exact .inl ⟨kept, fun _ same => by cases same⟩
          | header => exact .inl ⟨kept, fun _ same => by cases same⟩
          | outputWrite => exact .inl ⟨kept, fun _ same => by cases same⟩

/-- A job with too many failures flushes its sink, and does nothing else. -/
theorem ended_tooMany (job : Job) (excess : FailureExcess) {run : Run} {last : Sink}
    (isLast : run.output = .sink last) :
    let summary := { run.summary with failures := run.tracker.failures }
    job.ended (.error (.tooManyFailures excess)) run =
      (.error (.aborted (.tooManyFailures excess) summary),
        Run.tell { run with output := .sink last.flush.2 } .error
          ("Import aborted: " ++ summary.brief)) := by
  unfold ended
  rw [job.deliver_sink _ isLast]
  rfl

/-- A job that ends with too many failures has imported them. -/
theorem tooMany_of_ended {job : Job} {result : Except FatalError Unit} {run : Run} {last : Sink}
    {excess : FailureExcess} {summary : Summary} (isLast : run.output = .sink last)
    (stopped : (job.ended result run).1 = .error (.aborted (.tooManyFailures excess) summary)) :
    result = .error (.tooManyFailures excess) := by
  obtain ⟨after, _, ends⟩ := job.ended_sink result isLast
  rw [ends] at stopped
  cases failed : job.outcome result last.flush.1 with
  | ok =>
      rw [failed] at stopped
      cases stopped
  | error e =>
      rw [failed] at stopped
      cases stopped
      rcases outcome_error failed with same | ⟨_, text, _, other⟩
      · exact same
      · cases other

/-- The failures that a job reports are those that it has recorded. -/
theorem failures_of_ended {job : Job} {result : Except FatalError Unit} {run : Run} {last : Sink}
    {summary : Summary} (isLast : run.output = .sink last)
    (reported : (job.ended result run).1 = .ok summary ∨
      ∃ cause, (job.ended result run).1 = .error (.aborted cause summary)) :
    summary.failures = run.tracker.failures := by
  obtain ⟨after, _, ends⟩ := job.ended_sink result isLast
  rw [ends] at reported
  cases failed : job.outcome result last.flush.1 with
  | ok =>
      rw [failed] at reported
      rcases reported with same | ⟨cause, other⟩
      · cases same
        rfl
      · cases other
  | error e =>
      rw [failed] at reported
      rcases reported with other | ⟨cause, same⟩
      · cases other
      · cases same
        rfl

/-- Where the import of a job stands after so many moves. -/
def importStage (job : Job) (schedule : Schedule) (start : Run) (moves : Nat) : Stage :=
  job.stage schedule (.between start job.config.source.paths) moves

/-- How an import heeds the limit of its job, and how the job ends. -/
structure HeedsLimit (job : Job) (schedule : Schedule) (start : Run)
    (ended : Except JobError Summary × Run) : Prop where
  /-- The moves lead to the end of the import. -/
  ends : ∃ moves, job.importStage schedule start moves =
    .done (job.importSources schedule start job.config.source.paths).1
      (job.importSources schedule start job.config.source.paths).2
  atMost : ∀ moves,
    (job.importStage schedule start moves).run.tracker.size ≤ job.config.errors.maxFailures
  reported : ∀ summary,
    (ended.1 = .ok summary ∨ ∃ cause, ended.1 = .error (.aborted cause summary)) →
      summary.failures.length ≤ job.config.errors.maxFailures
  /-- The move that reaches the limit writes nothing. -/
  silent : ∀ moves,
    (job.importStage schedule start (moves + 1)).run.tracker.size =
        job.config.errors.maxFailures →
      (job.importStage schedule start (moves + 1)).run.output =
        (job.importStage schedule start moves).run.output
  /-- Behind the limit there are no more moves. -/
  last : ∀ moves,
    (job.importStage schedule start moves).run.tracker.size = job.config.errors.maxFailures →
      ∀ later, job.importStage schedule start (moves + later) =
        job.importStage schedule start moves
  /-- The limit ends the job, and nothing is left to do but to flush the sink. -/
  stops : ∀ moves,
    (job.importStage schedule start moves).run.tracker.size = job.config.errors.maxFailures →
      ∃ excess summary sink text,
        (job.importStage schedule start moves).run.output = .sink sink ∧
        ended = (.error (.aborted (.tooManyFailures excess) summary),
          Run.tell { (job.importStage schedule start moves).run with output := .sink sink.flush.2 }
            .error text) ∧
        excess.count = job.config.errors.maxFailures ∧
        summary.failures.length = job.config.errors.maxFailures ∧
        summary.failures.head? = some excess.first
  /-- Nothing but the limit ends a job like this. -/
  stopped : (∃ excess summary, ended.1 = .error (.aborted (.tooManyFailures excess) summary)) ↔
    ∃ moves,
      (job.importStage schedule start moves).run.tracker.size = job.config.errors.maxFailures
  /-- The limit is reached by chunks that cannot be ingested, and by no others. -/
  failing : ∀ moves,
    (job.importStage schedule start moves).run.tracker.size = job.config.errors.maxFailures →
      job.config.errors.maxFailures ≤
        ((Source.parts (job.sourcesRead schedule start job.config.source.paths)).filterMap
          fun part => job.failure? part.1 part.2).length

theorem importStage_end (job : Job) (schedule : Schedule) (start : Run) :
    ∃ moves, job.importStage schedule start moves =
      .done (job.importSources schedule start job.config.source.paths).1
        (job.importSources schedule start job.config.source.paths).2 :=
  job.stage_importSources schedule start job.config.source.paths

section

variable {job : Job} {schedule : Schedule} {now : Timestamp} {s : Sink} {session : Session}
  {start : Run}

/-- Whether the limit is reached tells whether it has ended the import. -/
theorem Begins.limit_cases (begins : job.Begins now (.sink s) session start)
    (schedule : Schedule) (positive : 0 < job.config.errors.maxFailures) (moves : Nat) :
    let stage := job.importStage schedule start moves
    (stage.run.tracker.size < job.config.errors.maxFailures ∧
        ∀ excess, stage.result ≠ .error (.tooManyFailures excess)) ∨
      ∃ excess, stage = .done (.error (.tooManyFailures excess)) stage.run ∧
        excess.Tells job.config.errors.maxFailures stage.run.tracker := by
  have below : start.tracker.Below job.config.errors.maxFailures := by
    obtain ⟨log, after, _, rfl⟩ := begins
    exact ⟨positive, rfl⟩
  rcases Job.limit_cases ((keeps_limit schedule _).stage job job.config.source.paths below moves)
    with ⟨small, fine⟩ | reached
  · exact .inl ⟨small.size, fine⟩
  · exact .inr reached

/-- An import that reaches the limit ends in the state in which it has reached it. -/
theorem Begins.full (begins : job.Begins now (.sink s) session start) {moves : Nat}
    (positive : 0 < job.config.errors.maxFailures)
    (reached : (job.importStage schedule start moves).run.tracker.size =
      job.config.errors.maxFailures) :
    ∃ excess, job.importSources schedule start job.config.source.paths =
        (.error (.tooManyFailures excess), (job.importStage schedule start moves).run) ∧
      job.importStage schedule start moves =
        .done (.error (.tooManyFailures excess)) (job.importStage schedule start moves).run ∧
      excess.Tells job.config.errors.maxFailures
        (job.importStage schedule start moves).run.tracker := by
  obtain ⟨total, ends⟩ := job.importStage_end schedule start
  rcases begins.limit_cases schedule positive moves with ⟨small, _⟩ | ⟨excess, isDone, tells⟩
  · exact absurd reached (Nat.ne_of_lt small)
  · obtain ⟨result, run⟩ := done_unique isDone ends
    exact ⟨excess, Prod.ext result.symm run.symm, isDone, tells⟩

/-- The import of a job with a sink ends with one, and its failures are those of chunks. -/
theorem Begins.imported (begins : job.Begins now (.sink s) session start) (schedule : Schedule)
    (paths : List String) :
    ∃ last, (job.importSources schedule start paths).2.output = .sink last ∧
      (job.importSources schedule start paths).2.tracker.size ≤
        ((Source.parts (job.sourcesRead schedule start paths)).filterMap
          fun part => job.failure? part.1 part.2).length := by
  obtain ⟨sink, _, none⟩ := begins.fresh
  obtain ⟨gain, written, gains, delivers⟩ :=
    job.delivers_importSources schedule paths start (by rw [sink]; rfl)
  have isSink := gains.isSink
  have failures := gains.failures
  rw [none, List.nil_append] at failures
  rw [FailureTracker.size, failures]
  rw [sink] at isSink
  cases found : (job.importSources schedule start paths).2.output with
  | sink last => exact ⟨last, rfl, delivers.failures.length_le⟩
  | file path buffered =>
      rw [found] at isSink
      cases isSink

/-- An import that has begun heeds the limit of its job. -/
theorem Begins.heedsLimit (begins : job.Begins now (.sink s) session start)
    (schedule : Schedule) (positive : 0 < job.config.errors.maxFailures) :
    job.HeedsLimit schedule start
      (job.ended (job.importSources schedule start job.config.source.paths).1
        (job.importSources schedule start job.config.source.paths).2) := by
  have cases := begins.limit_cases schedule positive
  have atMost : ∀ moves, (job.importStage schedule start moves).run.tracker.size ≤
      job.config.errors.maxFailures := by
    intro moves
    rcases cases moves with ⟨small, _⟩ | ⟨excess, _, tells⟩
    · exact Nat.le_of_lt small
    · exact Nat.le_of_eq tells.size
  obtain ⟨total, ends⟩ := job.importStage_end schedule start
  obtain ⟨last, isLast, failing⟩ := begins.imported schedule job.config.source.paths
  refine {
    ends := ⟨total, ends⟩
    atMost := atMost
    reported := ?reported
    silent := ?silent
    last := ?last
    stops := ?stops
    stopped := ?stopped
    failing := ?failing }
  case reported =>
    intro summary reported
    have most := atMost total
    rw [ends] at most
    rw [failures_of_ended isLast reported]
    exact most
  case silent =>
    intro moves reached
    obtain ⟨excess, _, isDone, _⟩ := begins.full positive reached
    have result := congrArg Stage.result isDone
    unfold importStage at result ⊢
    rw [stage_succ] at result ⊢
    exact output_of_move result
  case last =>
    intro moves reached later
    obtain ⟨excess, _, isDone, _⟩ := begins.full positive reached
    have added : job.importStage schedule start (moves + later) = _ := stage_add _ moves later
    change _ = job.stage schedule (job.importStage schedule start moves) later at added
    rw [added, isDone, stage_done]
  case stops =>
    intro moves reached
    obtain ⟨excess, imports, _, tells⟩ := begins.full positive reached
    rw [imports] at isLast ⊢
    refine ⟨excess, _, last, _, isLast, job.ended_tooMany excess isLast, tells.count, ?_⟩
    exact ⟨tells.size, tells.first⟩
  case stopped =>
    constructor
    · rintro ⟨excess, summary, stopped⟩
      have result := tooMany_of_ended isLast stopped
      refine ⟨total, ?_⟩
      rcases cases total with ⟨_, fine⟩ | ⟨_, _, tells⟩
      · rw [ends] at fine
        exact absurd result (fine excess)
      · exact tells.size
    · rintro ⟨moves, reached⟩
      obtain ⟨excess, imports, _⟩ := begins.full positive reached
      rw [imports] at isLast ⊢
      exact ⟨excess, _, congrArg Prod.fst (job.ended_tooMany excess isLast)⟩
  case failing =>
    intro moves reached
    obtain ⟨excess, imports, _⟩ := begins.full positive reached
    rw [imports] at failing
    rw [← reached]
    exact failing

end

/-- A job with a limit of failures heeds it, unless its failure log cannot be opened. -/
theorem runWith_heedsLimit {job : Job} (positive : 0 < job.config.errors.maxFailures)
    (schedule : Schedule) (now : Timestamp) (s : Sink) (session : Session) :
    (∃ e after, job.runWith schedule now (.sink s) session =
        (.error (.failureLog e), { output := .sink s, session := after })) ∨
      ∃ start, job.Begins now (.sink s) session start ∧
        job.HeedsLimit schedule start (job.runWith schedule now (.sink s) session) := by
  rcases opened : job.openLog now (session.tell .job .info job.startNotice) with ⟨e | log, after⟩
  · refine .inl ⟨e, after, ?_⟩
    unfold runWith
    simp only [opened]
  · have begins : job.Begins now (.sink s) session _ := ⟨log, after, opened, rfl⟩
    refine .inr ⟨_, begins, ?_⟩
    rw [runWith_of_begins begins]
    exact begins.heedsLimit schedule positive

/-- One failure stops the job, and the second source, which is not there, is never read. -/
theorem runWith_heedsLimit_openQuote :
    let job : Job := {
      config := {
        source := {
          paths := ["memory://open.csv", "memory://rows.csv"], chunkSize := 1, maxConcurrent := 1 }
        errors := { maxFailures := 1 } }
      dialect := {}
      header := none }
    let session : Session := { store := { memory := [(⟨["open.csv"]⟩, [97, 10, 34])] } }
    ∃ excess summary run,
      job.runWith {} {} (.sink {}) session =
        (.error (.aborted (.tooManyFailures excess) summary), run) ∧
      excess.count = 1 ∧ summary.failures.length = 1 := by
  intro job session
  let start : Run := {
    output := .sink {}
    session := session.tell .job .info job.startNotice
    tracker := { limit := 1 } }
  have second : (job.importStage {} start 2).run.tracker.size = 1 := by decide +kernel
  let failure : Failure := {
    chunk := ⟨"memory://open.csv", 0, ⟨2, 3⟩⟩
    kind := .unterminatedQuote
    line := 2
    message := "Unterminated quoted field starting at line 2 (byte offset 0) " ++
      "(0 written, 0 skipped before failure)" }
  have begun : (job.runWith {} {} (.sink {}) session).1 =
      .error (.aborted (.tooManyFailures ⟨1, failure⟩)
        { sources := 1, chunksFailed := 1, failures := [failure] }) := by decide +kernel
  have positive : 0 < job.config.errors.maxFailures := Nat.one_pos
  rcases runWith_heedsLimit positive {} {} {} session with
    ⟨e, after, failed⟩ | ⟨other, ⟨log, after, opened, rfl⟩, heeds⟩
  · cases (congrArg Prod.fst failed).symm.trans begun
  · cases opened
    obtain ⟨excess, summary, sink, text, _, ended, count, size, _⟩ := heeds.stops 2 second
    exact ⟨excess, summary, _, ended, count, size⟩

end Job

end CsvImport

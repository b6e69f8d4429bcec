import CsvImport.Proofs.Completing
import Mathlib.Algebra.BigOperators.Group.List.Basic

/-!
# Metering

The metrics and the summary of a job tell the same story.  Chunks are counted in both
wherever one ends.  Records are counted in the metrics when they are ingested, and in the
summary when they are written: what is missing there was ingested in front of a failure.
-/

namespace CsvImport

/-! ## Counts of an ingestion -/

namespace Ingester

/-- An error carries what was counted before it. -/
theorem counts_items (ingester : Ingester) (run : Ingestion)
    (items : List (Except DecodeError (Item String))) {e : IngestError} {after : Ingestion}
    (failed : ingester.items run items = (some e, after)) : e.before = after.counts := by
  fun_induction Ingester.items ingester run items with
  | case1 => cases failed
  | case2 => cases failed; rfl
  | case3 run later ih => exact ih failed
  | case4 => cases failed; rfl
  | case5 run row later assembled ih => exact ih failed
  | case6 => cases failed; rfl
  | case7 run row later doc assembled writer written ih => exact ih failed

end Ingester

namespace Job

def partCounts (job : Job) (part : Part) : Counts :=
  (job.ingest part.1 part.2).2.counts

/-- A part that cannot be ingested, with its error. -/
def partError? (job : Job) (part : Part) : Option (Part × IngestError) :=
  match (job.ingest part.1 part.2).1 with
  | .ok _ => none
  | .error e => some (part, e)

def failureOf (failed : Part × IngestError) : Failure :=
  .ofError failed.1.2.id failed.2

/-- The counts of an ingestion are those of its output, or those its error carries. -/
theorem partCounts_eq (job : Job) (part : Part) :
    job.partCounts part =
      match (job.ingest part.1 part.2).1 with
      | .ok output => output.counts
      | .error e => e.before := by
  obtain ⟨source, chunk⟩ := part
  unfold partCounts ingest Ingester.ingest
  simp only
  rcases ended : (job.ingester source).items _ _ with ⟨_ | e, after⟩
  · rfl
  · exact ((job.ingester source).counts_items _ _ ended).symm

section

variable {job : Job}

theorem partError?_eq_some {part : Part} {failed : Part × IngestError}
    (found : job.partError? part = some failed) :
    failed.1 = part ∧ (job.ingest part.1 part.2).1 = .error failed.2 := by
  unfold partError? at found
  split at found
  · cases found
  · rename_i ingested
    cases found
    exact ⟨rfl, ingested⟩

/-- What is counted for parts was either put out or stood in front of a failure. -/
theorem sum_partCounts (count : Counts → Nat) (parts : List Part) :
    (parts.map fun part => count (job.partCounts part)).sum =
      ((parts.filterMap job.partOutput?).map (count ·.counts)).sum +
        ((parts.filterMap job.partError?).map (count ·.2.before)).sum := by
  induction parts with
  | nil => rfl
  | cons part more ih =>
      have here := job.partCounts_eq part
      rw [List.map_cons, List.sum_cons, ih, List.filterMap_cons, List.filterMap_cons]
      unfold partOutput? output? partError?
      rcases ingested : (job.ingest part.1 part.2).1 with e | output
      · rw [ingested] at here
        simp only [Except.toOption, here, List.map_cons, List.sum_cons]
        omega
      · rw [ingested] at here
        simp only [Except.toOption, here, List.map_cons, List.sum_cons]
        omega

end

end Job

/-! ## Chunks -/

/-- The counters of chunks among the metrics have grown as those of the summary have. -/
structure Run.Metered (before after : Run) : Prop where
  succeeded : after.session.totals.succeeded + before.summary.chunksSucceeded =
    before.session.totals.succeeded + after.summary.chunksSucceeded
  failed : after.session.totals.failed + before.summary.chunksFailed =
    before.session.totals.failed + after.summary.chunksFailed
  cancelled : after.session.totals.cancelled + before.summary.chunksCancelled =
    before.session.totals.cancelled + after.summary.chunksCancelled

namespace Job

/-- Every operation counts the chunks that it ends in the metrics and in the summary. -/
theorem carries_metered : Carries Run.Metered where
  trans former latter := {
    succeeded := by have := former.succeeded; have := latter.succeeded; omega
    failed := by have := former.failed; have := latter.failed; omega
    cancelled := by have := former.cancelled; have := latter.cancelled; omega }
  quiet quiet := {
    succeeded := by rw [quiet.totals, quiet.summary]
    failed := by rw [quiet.totals, quiet.summary]
    cancelled := by rw [quiet.totals, quiet.summary] }
  ingested _ _ := ⟨rfl, rfl, rfl⟩
  written run ready := {
    succeeded := Nat.add_right_comm ..
    failed := rfl
    cancelled := rfl }
  failed run failure now := by
    have recorded := run.tracker.totals_record failure now run.session
    have totals : (run.fail failure now).2.session.totals =
        { run.session.totals with failed := run.session.totals.failed + 1 } := recorded
    exact {
      succeeded := by rw [totals]; rfl
      failed := by rw [totals]; exact Nat.add_right_comm ..
      cancelled := by rw [totals]; rfl }
  cancelled run amount := by
    have totals : (run.addCancelled amount).session.totals = _ :=
      run.session.metrics.totals_cancelled amount
    exact {
      succeeded := by rw [totals]; rfl
      failed := by rw [totals]; rfl
      cancelled := by rw [totals]; exact (Nat.add_right_comm ..).trans (Nat.add_assoc ..) }

end Job

/-! ## Records -/

/-- Between its two states the job has ingested the parts, one after the other. -/
structure Run.Ingests (job : Job) (before after : Run) (parts : List Part) : Prop where
  written : after.session.totals.written =
    before.session.totals.written + (parts.map fun part => (job.partCounts part).written).sum
  skipped : after.session.totals.skipped =
    before.session.totals.skipped + (parts.map fun part => (job.partCounts part).skipped).sum
  failures : after.tracker.failures =
    before.tracker.failures ++ (parts.filterMap job.partError?).map Job.failureOf

namespace Run

variable {job : Job} {before between after : Run}

theorem Quiet.ingests (quiet : before.Quiet after) (job : Job) : before.Ingests job after [] where
  written := by rw [quiet.totals]; rfl
  skipped := by rw [quiet.totals]; rfl
  failures := by rw [quiet.failures]; exact (List.append_nil _).symm

theorem Ingests.trans {parts more : List Part} (former : before.Ingests job between parts)
    (latter : between.Ingests job after more) : before.Ingests job after (parts ++ more) where
  written := by
    rw [latter.written, former.written, List.map_append, List.sum_append, Nat.add_assoc]
  skipped := by
    rw [latter.skipped, former.skipped, List.map_append, List.sum_append, Nat.add_assoc]
  failures := by
    rw [latter.failures, former.failures, List.filterMap_append, List.map_append,
      List.append_assoc]

end Run

namespace Job

theorem carries_ingests (job : Job) : CarriesWriting fun before after =>
    before.Ingests job after [] where
  trans former latter := former.trans latter
  quiet quiet := quiet.ingests job
  written _ _ := ⟨rfl, rfl, (List.append_nil _).symm⟩

section

variable {job : Job} {source : Source} {schedule : Schedule}

theorem ingests_finish (job : Job) (source : Source) {turn : Turn}
    (begun : turn.unstarted = false) (chunk : Chunk) (run : Run) (flight : Flight) :
    run.Ingests job (job.finish source turn chunk run flight).2.1 [(source, chunk)] := by
  have writing := job.carries_ingests
  have counts : job.partCounts (source, chunk) = (job.ingest source chunk).2.counts := rfl
  have error : job.partError? (source, chunk) =
    match (job.ingest source chunk).1 with
    | .ok _ => none
    | .error e => some ((source, chunk), e) := rfl
  unfold finish
  rw [if_neg (by rw [begun]; exact Bool.false_ne_true)]
  rcases ingested : job.ingest source chunk with ⟨e | output, ingestion⟩ <;>
    rw [ingested] at counts error
  · let counted := run.count ingestion.record
    let failure := Failure.ofError chunk.id e
    have totals : (counted.fail failure turn.now).2.session.totals =
        { counted.session.totals with failed := counted.session.totals.failed + 1 } :=
      counted.tracker.totals_record failure turn.now counted.session
    have recorded : (counted.fail failure turn.now).2.tracker.failures =
        run.tracker.failures ++ [failure] :=
      (counted.tracker.failures_record failure turn.now counted.session).1
    have ingests : run.Ingests job (counted.fail failure turn.now).2 [(source, chunk)] := {
      written := by rw [totals, List.map_singleton, counts]; rfl
      skipped := by rw [totals, List.map_singleton, counts]; rfl
      failures := by rw [recorded, List.filterMap_cons, error]; rfl }
    simp only
    rcases failed : (run.count ingestion.record).fail failure turn.now with ⟨_ | excess, ended⟩
    · rw [failed] at ingests
      exact ingests.trans (writing.release ..)
    · rw [failed] at ingests
      exact ingests
  · have ingests : run.Ingests job ((run.count ingestion.record).count (·.chunkDecoded))
        [(source, chunk)] := {
      written := by rw [List.map_singleton, counts]; rfl
      skipped := by rw [List.map_singleton, counts]; rfl
      failures := by
        rw [List.filterMap_cons, error]
        exact (List.append_nil _).symm }
    exact ingests.trans (writing.release ..)

/-- A chunk that had not begun is given up. -/
theorem cancelled_finish (job : Job) (source : Source) {turn : Turn}
    (unstarted : turn.unstarted = true) (chunk : Chunk) (run : Run) (flight : Flight) :
    (job.finish source turn chunk run flight).2.1.summary.cancelled = true := by
  unfold finish
  rw [if_pos unstarted]
  exact carries_stopped.release job _ flight chunk.id.index none rfl

/-- An import that no shutdown stops ingests all chunks that are left, in some order. -/
theorem ingests_importChunks (positive : 0 < job.config.source.maxConcurrent) (run : Run)
    (flight : Flight) (fine : (job.importChunks schedule source run flight).1 = .ok ())
    (whole : (job.importChunks schedule source run flight).2.summary.cancelled = false) :
    ∃ chunks : List Chunk, chunks.Perm (flight.inFlight ++ flight.queued) ∧
      run.Ingests job (job.importChunks schedule source run flight).2
        (chunks.map fun chunk => (source, chunk)) := by
  fun_induction Job.importChunks job schedule source run flight with
  | case1 run flight result after step =>
      have advances := job.advances_advance schedule source run flight
      rw [step] at advances
      cases advances with
      | leave => cases whole
      | idle asks none =>
          have empty := Flight.size_eq_zero_of_fill positive none
          refine ⟨[], ?_, asks.quiet.ingests job⟩
          rw [List.eq_nil_of_length_eq_zero (Nat.eq_zero_of_add_eq_zero_left empty),
            List.eq_nil_of_length_eq_zero (Nat.eq_zero_of_add_eq_zero_right empty)]
          exact List.Perm.refl _
      | fail => cases fine
  | case2 run flight after left step ih =>
      have advances := job.advances_advance schedule source run flight
      rw [step] at advances
      cases advances with
      | @again asked _ question chunk rest _ asks taken finished =>
          obtain ⟨chunks, perm, ingests⟩ := ih fine whole
          have begun : (schedule.turn question).unstarted = false := by
            by_contra unstarted
            have stopped := job.cancelled_finish source (eq_true_of_ne_false unstarted) chunk
              asked rest
            rw [finished] at stopped
            have still := carries_stopped.importChunks job schedule source after left stopped
            rw [whole] at still
            cases still
          have first := job.ingests_finish source begun chunk asked rest
          have same := job.flight_finish source (schedule.turn question) chunk asked rest
          rw [finished] at first same
          obtain ⟨inFlight, queued⟩ := same
          obtain ⟨others, behind, _⟩ := Flight.perm_take? taken
          refine ⟨chunk :: chunks, ?_, ((asks.quiet.ingests job).trans first).trans ingests⟩
          rw [inFlight, queued, behind] at perm
          rw [← flight.left_fill job.config.source.maxConcurrent]
          exact (perm.cons chunk).trans (others.symm.append_right _)

/-- Where no chunk may be in flight, none is imported. -/
theorem asks_importChunks_of_zero (zero : job.config.source.maxConcurrent = 0) (run : Run)
    (queued : List Chunk)
    (whole : (job.importChunks schedule source run { queued }).2.summary.cancelled = false) :
    run.Asks schedule (job.importChunks schedule source run { queued }).2 := by
  have advances := job.advances_advance schedule source run { queued }
  rw [importChunks] at whole ⊢
  generalize job.advance schedule source run { queued } = step at advances whole
  cases advances with
  | leave => cases whole
  | idle asks none => exact asks
  | again asks taken =>
      rw [zero] at taken
      cases taken
  | fail asks taken =>
      rw [zero] at taken
      cases taken

/-- The ingestions of the chunks of a source gain what they put out. -/
theorem ingests_source (numbered : Chunk.Numbered source.chunks) (run : Run)
    (fine : (job.importChunks schedule source run { queued := source.chunks }).1 = .ok ())
    (whole : (job.importChunks schedule source run
      { queued := source.chunks }).2.summary.cancelled = false) :
    ∃ parts gain, parts ⊆ Source.parts [source] ∧
      gain.outputs.Perm (parts.filterMap job.partOutput?) ∧
      run.Gains (job.importChunks schedule source run { queued := source.chunks }).2 gain ∧
      run.Ingests job (job.importChunks schedule source run { queued := source.chunks }).2
        parts := by
  rcases Nat.eq_zero_or_pos job.config.source.maxConcurrent with zero | positive
  · have asks := asks_importChunks_of_zero zero run source.chunks whole
    exact ⟨[], {}, List.nil_subset _, List.Perm.refl _, asks.gains, asks.quiet.ingests job⟩
  · obtain ⟨chunks, perm, ingests⟩ := ingests_importChunks positive run _ fine whole
    obtain ⟨fates, next, gain, gains, settles⟩ :=
      (job.accounts_start source).importChunks numbered schedule run
    rw [Gain.empty_andThen, fine] at settles
    have calm := gains.stopped
    rw [whole] at calm
    have completes := settles.completes numbered positive (Bool.or_eq_false_iff.mp calm.symm).2
    have all : (chunks.map fun chunk => (source, chunk)).Perm (Source.parts [source]) := by
      rw [Source.parts, List.flatMap_singleton]
      exact perm.map _
    refine ⟨_, gain, all.subset, ?_, gains, ingests⟩
    rw [completes.outputs]
    exact (all.filterMap _).symm

end

end Job

/-- Every record that was counted in between was written, unless it stood in front of one of
the failures that were recorded. -/
structure Run.Balances (before after : Run) (failed : List (Part × IngestError)) : Prop where
  written : after.session.totals.written + before.summary.counts.written =
    before.session.totals.written + after.summary.counts.written +
      (failed.map (·.2.before.written)).sum
  skipped : after.session.totals.skipped + before.summary.counts.skipped =
    before.session.totals.skipped + after.summary.counts.skipped +
      (failed.map (·.2.before.skipped)).sum
  failures : after.tracker.failures = before.tracker.failures ++ failed.map Job.failureOf

namespace Run

variable {job : Job} {before between after : Run}

theorem balances_nothing (totals : after.session.totals = before.session.totals)
    (counts : after.summary.counts = before.summary.counts)
    (failures : after.tracker.failures = before.tracker.failures) : before.Balances after [] where
  written := by rw [totals, counts]; rfl
  skipped := by rw [totals, counts]; rfl
  failures := by rw [failures]; exact (List.append_nil _).symm

theorem Balances.trans {failed more : List (Part × IngestError)}
    (former : before.Balances between failed) (latter : between.Balances after more) :
    before.Balances after (failed ++ more) where
  written := by
    have first := former.written
    have second := latter.written
    rw [List.map_append, List.sum_append]
    omega
  skipped := by
    have first := former.skipped
    have second := latter.skipped
    rw [List.map_append, List.sum_append]
    omega
  failures := by rw [latter.failures, former.failures, List.map_append, List.append_assoc]

theorem Ingests.balances {parts : List Part} {gain : Gain}
    (ingests : before.Ingests job after parts) (gains : before.Gains after gain)
    (outputs : gain.outputs.Perm (parts.filterMap job.partOutput?)) :
    before.Balances after (parts.filterMap job.partError?) where
  written := by
    rw [ingests.written, gains.written, Job.sum_partCounts (·.written),
      (outputs.map (·.counts.written)).sum_eq]
    omega
  skipped := by
    rw [ingests.skipped, gains.skipped, Job.sum_partCounts (·.skipped),
      (outputs.map (·.counts.skipped)).sum_eq]
    omega
  failures := ingests.failures

end Run

namespace Job

/-- These are parts that cannot be ingested, with their errors. -/
def FailedAmong (job : Job) (parts : List Part) (failed : List (Part × IngestError)) : Prop :=
  ∀ entry ∈ failed, entry.1 ∈ parts ∧ (job.ingest entry.1.1 entry.1.2).1 = .error entry.2

section

variable {job : Job} {source : Source} {schedule : Schedule}

theorem FailedAmong.append {parts others : List Part} {failed more : List (Part × IngestError)}
    (former : job.FailedAmong parts failed) (latter : job.FailedAmong others more) :
    job.FailedAmong (parts ++ others) (failed ++ more) := by
  intro entry member
  rcases List.mem_append.mp member with before | behind
  · exact ⟨List.mem_append_left _ (former entry before).1, (former entry before).2⟩
  · exact ⟨List.mem_append_right _ (latter entry behind).1, (latter entry behind).2⟩

theorem failedAmong_filterMap {parts among : List Part} (inside : parts ⊆ among) :
    job.FailedAmong among (parts.filterMap job.partError?) := by
  intro entry member
  obtain ⟨part, listed, found⟩ := List.mem_filterMap.mp member
  obtain ⟨same, ingested⟩ := partError?_eq_some found
  rw [same]
  exact ⟨inside listed, ingested⟩

/-- The import of a source balances, unless a shutdown or an error stops it. -/
theorem balances_importSource (job : Job) (schedule : Schedule)
    (numbered : Chunk.Numbered source.chunks) (run : Run)
    (fine : (job.importSource schedule source run).1 = .ok ())
    (whole : (job.importSource schedule source run).2.summary.cancelled = false) :
    ∃ failed, run.Balances (job.importSource schedule source run).2 failed ∧
      job.FailedAmong (Source.parts [source]) failed := by
  let begun := { run with summary := { run.summary with sources := run.summary.sources + 1 } }
  have counted : run.Balances begun [] := Run.balances_nothing rfl rfl rfl
  unfold importSource at fine whole ⊢
  simp only at fine whole ⊢
  split
  · exact ⟨[], counted.trans (Run.balances_nothing rfl rfl rfl), fun _ none => by cases none⟩
  · rename_i some
    rw [if_neg some] at fine whole
    rcases imported : job.importChunks schedule source begun { queued := source.chunks } with
      ⟨_ | _, after⟩
    · rw [imported] at fine
      cases fine
    · rw [imported] at whole
      obtain ⟨parts, gain, inside, outputs, gains, ingests⟩ :=
        ingests_source numbered begun (congrArg Prod.fst imported)
          ((congrArg (·.2.summary.cancelled) imported).trans whole)
      rw [imported] at gains ingests
      refine ⟨parts.filterMap job.partError?, ?_, failedAmong_filterMap inside⟩
      have balanced := counted.trans (ingests.balances gains outputs)
      exact { balanced with }

theorem balances_importSources (job : Job) (schedule : Schedule) (run : Run) (paths : List String)
    (fine : (job.importSources schedule run paths).1 = .ok ())
    (whole : (job.importSources schedule run paths).2.summary.cancelled = false) :
    ∃ failed, run.Balances (job.importSources schedule run paths).2 failed ∧
      job.FailedAmong (Source.parts (job.sourcesRead schedule run paths)) failed := by
  induction paths generalizing run with
  | nil => exact ⟨[], Run.balances_nothing rfl rfl rfl, fun _ none => by cases none⟩
  | cons path more ih =>
      have asked : run.Balances (run.ask schedule).2 [] := Run.balances_nothing rfl rfl rfl
      unfold importSources at fine whole ⊢
      unfold sourcesRead
      simp only at fine whole ⊢
      generalize (run.ask schedule).2 = now at asked fine whole ⊢
      split
      · rename_i stopped
        rw [if_pos stopped] at whole
        cases whole
      · rename_i going
        rw [if_neg going] at fine whole
        have totals := job.totals_prepare path now.session
        rcases prepared : job.prepare path now.session with ⟨_ | _ | source, session⟩ <;>
          simp only [prepared] at fine whole totals ⊢
        · cases fine
        · obtain ⟨failed, balances, known⟩ := ih _ fine whole
          refine ⟨failed, asked.trans (.trans (?_ : Run.Balances _ _ []) balances), known⟩
          exact Run.balances_nothing totals rfl rfl
        · have read : run.Balances { now with session } [] :=
            asked.trans (Run.balances_nothing totals rfl rfl)
          obtain ⟨data, _, split⟩ := prepare_some (congrArg Prod.fst prepared)
          have here := job.balances_importSource schedule (Chunk.numbered_of_prepare split)
            { now with session }
          rw [Source.parts_cons]
          rcases imported : job.importSource schedule source { now with session } with
            ⟨_ | _, after⟩ <;> simp only [imported] at fine whole here ⊢
          · cases fine
          · split
            · rename_i stopped
              rw [if_pos stopped, stopped] at whole
              cases whole
            · rename_i going
              rw [if_neg going] at fine whole
              obtain ⟨failed, balances, known⟩ := here trivial (eq_false_of_ne_true going)
              obtain ⟨others, behind, later⟩ := ih _ fine whole
              exact ⟨failed ++ others, read.trans (balances.trans behind), known.append later⟩

/-! ## Whole jobs -/

theorem metrics_openLog (job : Job) (now : Timestamp) (session : Session) :
    (job.openLog now session).2.metrics = session.metrics := by
  unfold openLog FailureLog.open?
  split
  · rfl
  · simp only
    rcases Provider.ofUrl session.store _ false with ⟨_ | _, store⟩ <;> rfl

/-- Nothing is counted any more when the sources of a job have been imported. -/
theorem metrics_ended (job : Job) (result : Except FatalError Unit) (run : Run) :
    (job.ended result run).2.session.metrics = run.session.metrics := by
  have flushed : (job.deliver result run).2.session.metrics = run.session.metrics :=
    run.output.metrics_flush run.session
  have closed : ∀ (result : Except FatalError Unit) (run : Run),
      (closeLog result run).session.metrics = run.session.metrics := by
    intro result run
    unfold closeLog
    split
    · rfl
    · exact run.tracker.metrics_finalizeLog run.session
  have concluded : ∀ (result : Except FatalError Unit) (run : Run),
      (conclude result run).2.session.metrics = run.session.metrics := by
    intro result run
    cases result <;> rfl
  exact (concluded ..).trans ((closed ..).trans flushed)

theorem totals_ended (job : Job) (result : Except FatalError Unit) (run : Run) :
    (job.ended result run).2.session.totals = run.session.totals :=
  congrArg Metrics.totals (job.metrics_ended result run)

/-- A job ends with the summary of its import, and with an error if the import or the flush behind
it has one. -/
theorem ended_cases (job : Job) (result : Except FatalError Unit) (run : Run) :
    let summary := { run.summary with failures := run.tracker.failures }
    (result = .ok () ∧ (job.ended result run).1 = .ok summary) ∨
      ∃ cause, (job.ended result run).1 = .error (.aborted cause summary) ∧
        (result = .error cause ∨ result = .ok () ∧
          ∃ text, cause = .outputWrite job.config.output.path (some text)) := by
  intro summary
  obtain ⟨_, same, failures⟩ := closeLog_eq (job.deliver result run).1 (job.deliver result run).2
  have summaries : (job.deliver result run).2.summary = run.summary := rfl
  have tracked : (job.deliver result run).2.tracker = run.tracker := rfl
  have delivered : (job.deliver result run).1 =
      job.outcome result (run.output.flush run.session).1 := by
    cases result <;> rfl
  rw [summaries] at same
  rw [tracked] at failures
  unfold ended conclude
  rw [same, failures, delivered]
  cases came : job.outcome result (run.output.flush run.session).1 with
  | error cause =>
      refine .inr ⟨cause, rfl, ?_⟩
      rcases outcome_error came with same | ⟨fine, text, -, same⟩
      · exact .inl same
      · exact .inr ⟨fine, text, same⟩
  | ok =>
      refine .inl ⟨?_, rfl⟩
      cases result with
      | error e => cases came
      | ok => rfl

/-- The summary of a job is what its import came to. -/
theorem ended_reports {result : Except FatalError Unit} {run : Run} {summary : Summary}
    (reported : (job.ended result run).1 = .ok summary ∨
      ∃ cause, (job.ended result run).1 = .error (.aborted cause summary)) :
    summary = { run.summary with failures := run.tracker.failures } ∧
      ((job.ended result run).1 = .ok summary → result = .ok ()) := by
  rcases job.ended_cases result run with ⟨fine, completed⟩ | ⟨cause, aborted, -⟩
  · rw [completed] at reported ⊢
    rcases reported with same | ⟨_, same⟩
    · cases same
      exact ⟨rfl, fun _ => fine⟩
    · cases same
  · rw [aborted] at reported ⊢
    rcases reported with same | ⟨_, same⟩
    · cases same
    · cases same
      exact ⟨rfl, nofun⟩

end

theorem begins_of_reported {job : Job} {schedule : Schedule} {now : Timestamp} {output : Output}
    {session : Session} {summary : Summary}
    (reported : (job.runWith schedule now output session).1 = .ok summary ∨
      ∃ cause, (job.runWith schedule now output session).1 = .error (.aborted cause summary)) :
    ∃ start, job.Begins now output session start := by
  unfold runWith at reported
  rcases opened : job.openLog now (session.tell .job .info job.startNotice) with ⟨e | log, after⟩
  · simp only [opened] at reported
    rcases reported with fine | ⟨cause, aborted⟩
    · cases fine
    · cases aborted
  · exact ⟨_, log, after, opened, rfl⟩

theorem Begins.metrics {job : Job} {now : Timestamp} {output : Output} {session : Session}
    {start : Run} (begins : job.Begins now output session start) :
    start.session.metrics = session.metrics := by
  obtain ⟨log, after, opened, rfl⟩ := begins
  have opening := job.metrics_openLog now (session.tell .job .info job.startNotice)
  rw [opened] at opening
  exact opening

/-- Whenever a job reports a summary, the counters of chunks have grown by what it says.  If
the job was neither stopped nor aborted, then those of records have grown by the records
written or skipped and those in front of the failures that it lists. -/
theorem totals_runWith {job : Job} {schedule : Schedule} {now : Timestamp} {output : Output}
    {session : Session} {result : Except JobError Summary} {run : Run}
    (ends : job.runWith schedule now output session = (result, run)) {summary : Summary}
    (reported : result = .ok summary ∨ ∃ cause, result = .error (.aborted cause summary)) :
    let before := session.totals
    let after := run.session.totals
    after.succeeded = before.succeeded + summary.chunksSucceeded ∧
      after.failed = before.failed + summary.chunksFailed ∧
      after.cancelled = before.cancelled + summary.chunksCancelled ∧
      (result = .ok summary → summary.cancelled = false →
        ∃ start failed, job.Begins now output session start ∧
          job.FailedAmong
            (Source.parts (job.sourcesRead schedule start job.config.source.paths)) failed ∧
          summary.failures = failed.map failureOf ∧
          after.written = before.written +
            (summary.counts.written + (failed.map (·.2.before.written)).sum) ∧
          after.skipped = before.skipped +
            (summary.counts.skipped + (failed.map (·.2.before.skipped)).sum)) := by
  intro before after
  have known : (job.runWith schedule now output session).1 = result := congrArg Prod.fst ends
  obtain ⟨start, begins⟩ := begins_of_reported (known.symm ▸ reported)
  obtain ⟨_, fresh, none⟩ := begins.fresh
  have unread : start.session.totals = before := congrArg Metrics.totals begins.metrics
  have metered : start.Metered (job.importSources schedule start job.config.source.paths).2 :=
    carries_metered.importSources (fun _ _ _ _ => ⟨rfl, rfl, rfl⟩) ..
  have balances := job.balances_importSources schedule start job.config.source.paths
  rw [runWith_of_begins begins] at ends
  generalize job.importSources schedule start job.config.source.paths = imported
    at ends metered balances
  have same := job.totals_ended imported.1 imported.2
  have reports := @ended_reports job imported.1 imported.2 summary
  rw [ends] at same reports
  obtain ⟨rfl, ofOk⟩ := reports reported
  have succeeded := metered.succeeded
  have failed := metered.failed
  have cancelled := metered.cancelled
  rw [unread, fresh, ← same] at succeeded failed cancelled
  refine ⟨succeeded, failed, cancelled, fun fine whole => ?_⟩
  obtain ⟨failing, balanced, among⟩ := balances (ofOk fine) whole
  have written := balanced.written
  have skipped := balanced.skipped
  rw [unread, fresh, ← same] at written skipped
  refine ⟨start, failing, begins, among, ?_, written.trans (Nat.add_assoc ..),
    skipped.trans (Nat.add_assoc ..)⟩
  rw [balanced.failures, none]
  rfl

/-- Two chunks, of which the second fails behind its first row. -/
theorem totals_runWith_secondRow :
    let job : Job := {
      config := {
        source := { paths := ["memory://rows.csv"], chunkSize := 4, maxConcurrent := 2 }
        csv := { policy := .strict } }
      dialect := {}
      header := none }
    let session : Session := {
      store := { memory :=
        [(⟨["rows.csv"]⟩, [97, 10, 49, 10, 50, 10, 51, 10, 52, 44, 53, 10])] } }
    ∃ summary run, job.runWith {} {} (.sink {}) session = (.ok summary, run) ∧
      summary.counts.written = 2 ∧ run.session.totals.succeeded = 1 ∧
      run.session.totals.failed = 1 ∧
      ∃ failed : List (Part × IngestError), summary.failures = failed.map failureOf ∧
        run.session.totals.written = 2 + (failed.map (·.2.before.written)).sum := by
  intro job session
  let failure : Failure := {
    chunk := ⟨"memory://rows.csv", 1, ⟨6, 12⟩⟩, kind := .arityMismatch, line := 5
    message := "Line 5: Row has 2 fields but the header has 1 " ++
      "(1 written, 0 skipped before failure)" }
  have result : (job.runWith {} {} (.sink {}) session).1 = .ok {
      counts := ⟨2, 0⟩, sources := 1, chunksSucceeded := 1, chunksFailed := 1
      bytesWritten := 20, failures := [failure] } := by decide +kernel
  have ran : job.runWith {} {} (.sink {}) session =
      (_, (job.runWith {} {} (.sink {}) session).2) := Prod.ext result rfl
  obtain ⟨succeeded, failed, -, records⟩ := totals_runWith ran (.inl rfl)
  obtain ⟨start, failing, -, -, failures, written, -⟩ := records rfl rfl
  exact ⟨_, _, ran, rfl, succeeded, failed, failing, failures,
    written.trans (Nat.zero_add _)⟩

end Job

end CsvImport

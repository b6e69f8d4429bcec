import CsvImport.Proofs.Loading
import CsvImport.Proofs.Stages

/-!
# What operations carry over

A relation between an earlier and a later state of a job that is carried over each of its
operations holds between the beginning and the end of every import.
-/

namespace CsvImport

/-- Nothing of what a job reports has changed between its two states. -/
structure Run.Quiet (before after : Run) : Prop where
  summary : after.summary = before.summary
  failures : after.tracker.failures = before.tracker.failures
  totals : after.session.totals = before.session.totals

theorem Run.Asks.quiet {schedule : Schedule} {before after : Run}
    (asks : before.Asks schedule after) : before.Quiet after where
  summary := asks.summary
  failures := congrArg (·.failures) asks.tracker
  totals := asks.totals

namespace Job

/-- A relation between two states of a job that writing outputs carries over. -/
structure CarriesWriting (Related : Run → Run → Prop) : Prop where
  trans {first second third : Run} (former : Related first second)
    (latter : Related second third) : Related first third
  quiet {before after : Run} (quiet : before.Quiet after) : Related before after
  written (run : Run) (ready : ChunkOutput) : Related run
    { run.count (·.chunksEnded .success 1) with
      summary := run.summary.addWritten ready.counts ready.bytes.length }

/-- A relation between two states of a job that every operation on chunks carries over. -/
structure Carries (Related : Run → Run → Prop) : Prop extends CarriesWriting Related where
  ingested (run : Run) (ingestion : Ingestion) : Related run (run.count ingestion.record)
  failed (run : Run) (failure : Failure) (now : Timestamp) :
    Related run (run.fail failure now).2
  cancelled (run : Run) (amount : Nat) : Related run (run.addCancelled amount)

def Step.run : Step → Run
  | .again run _ => run
  | .done _ run => run

section

variable {Related : Run → Run → Prop}

theorem CarriesWriting.writeOutputs (carries : CarriesWriting Related) (path : String)
    (ready : List ChunkOutput) (run : Run) : Related run (run.write path ready).2 := by
  induction ready generalizing run with
  | nil => exact carries.quiet ⟨rfl, rfl, rfl⟩
  | cons first ready ih =>
      have metrics := run.output.metrics_writeAll run.session first.bytes
      unfold Run.write
      rcases written : run.output.writeAll run.session first.bytes with ⟨_ | _, output, session⟩
      · rw [written] at metrics
        exact carries.quiet ⟨rfl, rfl, congrArg Metrics.totals metrics⟩
      · rw [written] at metrics
        have passed : Related run { run with output, session } :=
          carries.quiet ⟨rfl, rfl, congrArg Metrics.totals metrics⟩
        exact carries.trans passed (carries.trans (carries.written _ first) (ih _))

theorem CarriesWriting.release (carries : CarriesWriting Related) (job : Job) (run : Run)
    (flight : Flight) (index : Nat) (output : Option ChunkOutput) :
    Related run (job.release run flight index output).2.1 := by
  unfold Job.release
  refine carries.trans (carries.quiet ?_) (carries.writeOutputs ..)
  exact ⟨rfl, rfl, rfl⟩

theorem Carries.finish (carries : Carries Related) (job : Job) (source : Source) (turn : Turn)
    (chunk : Chunk) (run : Run) (flight : Flight) :
    Related run (job.finish source turn chunk run flight).2.1 := by
  unfold Job.finish
  split
  · have stopped : Related run { run with stopping := true } := carries.quiet ⟨rfl, rfl, rfl⟩
    exact carries.trans stopped (carries.trans (carries.cancelled _ 1) (carries.release ..))
  · rcases job.ingest source chunk with ⟨e | output, ingestion⟩
    · have failed := carries.trans (carries.ingested run ingestion)
        (carries.failed _ (.ofError chunk.id e) turn.now)
      simp only
      generalize (run.count ingestion.record).fail (.ofError chunk.id e) turn.now = ended
        at failed ⊢
      rcases ended with ⟨_ | excess, ended⟩
      · exact carries.trans failed (carries.release ..)
      · exact failed
    · have counted : Related (run.count ingestion.record)
          ((run.count ingestion.record).count (·.chunkDecoded)) := carries.quiet ⟨rfl, rfl, rfl⟩
      exact carries.trans (carries.ingested run ingestion)
        (carries.trans counted (carries.release ..))

/-- A step of the import of a source carries over what its operations do. -/
theorem Carries.advance (carries : Carries Related) (job : Job) (schedule : Schedule)
    (source : Source) (run : Run) (flight : Flight) :
    Related run (job.advance schedule source run flight).run := by
  have advances := job.advances_advance schedule source run flight
  generalize job.advance schedule source run flight = step at advances ⊢
  cases advances with
  | leave asks stopping same =>
      have told : ∀ asked : Run, ∀ text, Related asked (asked.tell .info text) :=
        fun _ _ => carries.quiet ⟨rfl, rfl, rfl⟩
      exact carries.trans (carries.quiet asks.quiet)
        (carries.trans (told _ _) (carries.cancelled ..))
  | idle asks none => exact carries.quiet asks.quiet
  | @again asked after question chunk rest left asks taken finished =>
      have ended := carries.finish job source (schedule.turn question) chunk asked rest
      rw [finished] at ended
      exact carries.trans (carries.quiet asks.quiet) ended
  | @fail asked after question chunk rest left e asks taken finished =>
      have ended := carries.finish job source (schedule.turn question) chunk asked rest
      rw [finished] at ended
      exact carries.trans (carries.quiet asks.quiet) ended

theorem Carries.importChunks (carries : Carries Related) (job : Job) (schedule : Schedule)
    (source : Source) (run : Run) (flight : Flight) :
    Related run (job.importChunks schedule source run flight).2 := by
  fun_induction Job.importChunks job schedule source run flight with
  | case1 run flight result after step =>
      have ended := carries.advance job schedule source run flight
      rw [step] at ended
      exact ended
  | case2 run flight after left step ih =>
      have advanced := carries.advance job schedule source run flight
      rw [step] at advanced
      exact carries.trans advanced ih

/-- Preparing a source counts the bytes that are read, and nothing else. -/
theorem totals_prepare (job : Job) (path : String) (session : Session) :
    (job.prepare path session).2.totals = session.totals :=
  prepare_kept Session.totals (fun _ _ => rfl) (fun _ _ => rfl) (fun _ _ => rfl) job path session

theorem Carries.importSource (carries : Carries Related)
    (sources : ∀ (run : Run) (sources emptySources : Nat) (cancelled : Bool), Related run
      { run with summary := { run.summary with sources, emptySources, cancelled } })
    (job : Job) (schedule : Schedule) (source : Source) (run : Run) :
    Related run (job.importSource schedule source run).2 := by
  have counted := sources run (run.summary.sources + 1) run.summary.emptySources
    run.summary.cancelled
  have told : ∀ (before : Run) (text : String), Related before (before.tell .info text) :=
    fun _ _ => carries.quiet ⟨rfl, rfl, rfl⟩
  unfold Job.importSource
  simp only
  split
  · exact carries.trans counted (told _ _)
  · have imported := carries.importChunks job schedule source
      { run with summary := { run.summary with sources := run.summary.sources + 1 } }
      { queued := source.chunks }
    split
    · rename_i ended
      rw [ended] at imported
      exact carries.trans counted imported
    · rename_i ended
      rw [ended] at imported
      exact carries.trans counted (carries.trans imported (told _ _))

/-- What is carried over operations on chunks and does not depend on the sources that are
counted holds between the beginning and the end of an import. -/
theorem Carries.importSources (carries : Carries Related)
    (sources : ∀ (run : Run) (sources emptySources : Nat) (cancelled : Bool), Related run
      { run with summary := { run.summary with sources, emptySources, cancelled } })
    (job : Job) (schedule : Schedule) (run : Run) (paths : List String) :
    Related run (job.importSources schedule run paths).2 := by
  have told : ∀ (before : Run) (text : String), Related before (before.tell .info text) :=
    fun _ _ => carries.quiet ⟨rfl, rfl, rfl⟩
  induction paths generalizing run with
  | nil => exact carries.quiet ⟨rfl, rfl, rfl⟩
  | cons path more ih =>
      have asked : Related run (run.ask schedule).2 := carries.quiet ⟨rfl, rfl, rfl⟩
      unfold Job.importSources
      simp only
      generalize (run.ask schedule).2 = now at asked
      split
      · exact carries.trans asked (carries.trans (told now _)
          (sources _ now.summary.sources now.summary.emptySources true))
      · have totals := job.totals_prepare path now.session
        have prepared : Related now { now with session := (job.prepare path now.session).2 } :=
          carries.quiet ⟨rfl, rfl, totals⟩
        rcases prepare : job.prepare path now.session with ⟨_ | _ | source, session⟩ <;>
          rw [prepare] at prepared
        · exact carries.trans asked prepared
        · exact carries.trans asked (carries.trans prepared (carries.trans (told _ _)
            (carries.trans (sources _ now.summary.sources (now.summary.emptySources + 1)
              now.summary.cancelled) (ih _))))
        · have imported := carries.importSource sources job schedule source
            { now with session }
          have read := carries.trans asked prepared
          simp only
          rcases ended : job.importSource schedule source { now with session } with
            ⟨_ | _, after⟩ <;> rw [ended] at imported
          · exact carries.trans read imported
          · simp only
            split
            · exact carries.trans read imported
            · exact carries.trans read (carries.trans imported (ih _))

end

/-! ## Relations that are carried over -/

theorem carries_sources : Carries fun before after =>
    after.summary.sources = before.summary.sources ∧
      after.summary.emptySources = before.summary.emptySources where
  trans former latter := ⟨latter.1.trans former.1, latter.2.trans former.2⟩
  quiet quiet := ⟨congrArg (·.sources) quiet.summary, congrArg (·.emptySources) quiet.summary⟩
  ingested _ _ := ⟨rfl, rfl⟩
  written _ _ := ⟨rfl, rfl⟩
  failed _ _ _ := ⟨rfl, rfl⟩
  cancelled _ _ := ⟨rfl, rfl⟩

/-- A source with a header counts once. -/
theorem sources_importSource (job : Job) (schedule : Schedule) (source : Source) (run : Run) :
    (job.importSource schedule source run).2.summary.sources = run.summary.sources + 1 ∧
      (job.importSource schedule source run).2.summary.emptySources =
        run.summary.emptySources := by
  have imported := carries_sources.importChunks job schedule source
    { run with summary := { run.summary with sources := run.summary.sources + 1 } }
    { queued := source.chunks }
  unfold importSource
  simp only
  split
  · exact ⟨rfl, rfl⟩
  · split
    · rename_i ended
      rw [ended] at imported
      exact imported
    · rename_i ended
      rw [ended] at imported
      exact imported

theorem carries_stopped : Carries fun before after =>
    before.summary.cancelled = true → after.summary.cancelled = true where
  trans former latter := latter ∘ former
  quiet quiet stopped := by rwa [quiet.summary]
  ingested _ _ := id
  written _ _ := id
  failed _ _ _ := id
  cancelled _ _ _ := rfl

end Job

end CsvImport

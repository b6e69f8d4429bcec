import CsvImport.Proofs.Loading
import CsvImport.Proofs.Stages

/-!
# What a job keeps

A property of the output, the stores and the failures of a job that each operation keeps
holds throughout the job.  The failure that is one too many may end it, and leaves another
property behind, which tells how the job was stopped.
-/

namespace CsvImport

namespace Job

def Kept (Holds : Run → Prop) (Stopped : FailureExcess → Run → Prop) :
    Except FatalError Unit → Run → Prop
  | .error (.tooManyFailures excess), run => Stopped excess run
  | _, run => Holds run

/-- What every operation of a job keeps, and what is left by one failure too many. -/
structure Keeps (schedule : Schedule) (Holds : Run → Prop)
    (Stopped : FailureExcess → Run → Prop) : Prop where
  /-- Nothing but the output, the failures and the stores matters. -/
  quiet {run other : Run} (holds : Holds run) (output : other.output = run.output)
    (tracker : other.tracker = run.tracker) (store : other.session.store = run.session.store) :
    Holds other
  load {run : Run} (holds : Holds run) (path : String) :
    Holds { run with session := (load path run.session).2 }
  write {run : Run} (holds : Holds run) (bytes : Bytes) :
    Holds { run with
      output := (run.output.writeAll run.session bytes).2.1
      session := (run.output.writeAll run.session bytes).2.2 }
  fail {run : Run} (holds : Holds run) (failure : Failure) (question : Nat)
    (fine : (run.fail failure (schedule.turn question).now).1 = none) :
    Holds (run.fail failure (schedule.turn question).now).2
  exceed {run : Run} (holds : Holds run) (failure : Failure) (question : Nat)
    (excess : FailureExcess)
    (tooMany : (run.fail failure (schedule.turn question).now).1 = some excess) :
    Stopped excess (run.fail failure (schedule.turn question).now).2

/-- What has become of a property of jobs after a step of a source. -/
def Step.Kept (Holds : Run → Prop) (Stopped : FailureExcess → Run → Prop) : Step → Prop
  | .again run _ => Holds run
  | .done result run => Job.Kept Holds Stopped result run

def Stage.Kept (Holds : Run → Prop) (Stopped : FailureExcess → Run → Prop) (stage : Stage) :
    Prop :=
  Job.Kept Holds Stopped stage.result stage.run

section

variable {schedule : Schedule} {Holds : Run → Prop}
  {Stopped : FailureExcess → Run → Prop} {run : Run}

/-- Asking and counting changes nothing that matters. -/
theorem Keeps.asks (keeps : Keeps schedule Holds Stopped) {asked : Run}
    (asks : run.Asks schedule asked) (holds : Holds run) : Holds asked :=
  keeps.quiet holds asks.output asks.tracker asks.store

theorem Keeps.writeOutputs (keeps : Keeps schedule Holds Stopped) (path : String)
    (ready : List ChunkOutput) (holds : Holds run) :
    Kept Holds Stopped (run.write path ready).1 (run.write path ready).2 := by
  induction ready generalizing run with
  | nil => exact holds
  | cons first ready ih =>
      have held := keeps.write holds first.bytes
      unfold Run.write
      rcases written : run.output.writeAll run.session first.bytes with ⟨_ | _, output, session⟩
      · rw [written] at held
        exact held
      · rw [written] at held
        exact ih (keeps.quiet held rfl rfl rfl)

theorem Keeps.release (keeps : Keeps schedule Holds Stopped) (job : Job) (flight : Flight)
    (index : Nat) (output : Option ChunkOutput) (holds : Holds run) :
    Kept Holds Stopped (job.release run flight index output).1
      (job.release run flight index output).2.1 :=
  keeps.writeOutputs job.config.output.path _ (keeps.quiet holds rfl rfl rfl)

theorem Keeps.finish (keeps : Keeps schedule Holds Stopped) (job : Job) (source : Source)
    (question : Nat) (chunk : Chunk) (flight : Flight) (holds : Holds run) :
    Kept Holds Stopped (job.finish source (schedule.turn question) chunk run flight).1
      (job.finish source (schedule.turn question) chunk run flight).2.1 := by
  unfold Job.finish
  split
  · exact keeps.release job flight chunk.id.index none (keeps.quiet holds rfl rfl rfl)
  · rcases job.ingest source chunk with ⟨e | output, ingestion⟩
    · have counted : Holds (run.count ingestion.record) := keeps.quiet holds rfl rfl rfl
      have fine := keeps.fail counted (.ofError chunk.id e) question
      have tooMany := keeps.exceed counted (.ofError chunk.id e) question
      simp only
      generalize (run.count ingestion.record).fail (.ofError chunk.id e)
        (schedule.turn question).now = ended at fine tooMany ⊢
      rcases ended with ⟨_ | excess, ended⟩
      · exact keeps.release job flight chunk.id.index none (fine rfl)
      · exact tooMany excess rfl
    · exact keeps.release job flight chunk.id.index (some output) (keeps.quiet holds rfl rfl rfl)

theorem Keeps.advance (keeps : Keeps schedule Holds Stopped) (job : Job) (source : Source)
    (flight : Flight) (holds : Holds run) :
    (job.advance schedule source run flight).Kept Holds Stopped := by
  have advances := job.advances_advance schedule source run flight
  generalize job.advance schedule source run flight = step at advances ⊢
  cases advances with
  | leave asks stopping same => exact keeps.quiet (keeps.asks asks holds) rfl rfl rfl
  | idle asks none => exact keeps.asks asks holds
  | @again asked after question chunk rest left asks taken finished =>
      have kept := keeps.finish job source question chunk rest (keeps.asks asks holds)
      rw [finished] at kept
      exact kept
  | @fail asked after question chunk rest left e asks taken finished =>
      have kept := keeps.finish job source question chunk rest (keeps.asks asks holds)
      rw [finished] at kept
      exact kept

theorem Keeps.prepare (keeps : Keeps schedule Holds Stopped) (job : Job) (path : String)
    (holds : Holds run) :
    Holds { run with session := (job.prepare path run.session).2 } :=
  keeps.quiet (keeps.load holds path) rfl rfl (job.store_prepare path run.session)

theorem Stage.kept_leave (holds : Holds run) (paths : List String) :
    (Stage.leave run paths).Kept Holds Stopped := by
  unfold Stage.leave
  split <;> exact holds

theorem Keeps.enter (keeps : Keeps schedule Holds Stopped) (source : Source)
    (paths : List String) (holds : Holds run) :
    (Stage.enter run source paths).Kept Holds Stopped := by
  unfold Stage.enter
  simp only
  split
  · apply Stage.kept_leave
    exact keeps.quiet holds rfl rfl rfl
  · exact keeps.quiet holds rfl rfl rfl

theorem Keeps.finished (keeps : Keeps schedule Holds Stopped) (source : Source)
    (before : Counts) (paths : List String) {result : Except FatalError Unit}
    (kept : Kept Holds Stopped result run) :
    (Stage.finished source before paths result run).Kept Holds Stopped := by
  cases result with
  | error e => exact kept
  | ok =>
      apply Stage.kept_leave
      exact keeps.quiet kept rfl rfl rfl

/-- A source that cannot be prepared has nothing to do with failed chunks. -/
theorem prepare_error_cases {job : Job} {path : String} {session after : Session}
    {e : FatalError} (failed : job.prepare path session = (.error e, after)) :
    (∃ source, e = .sourceRead path source) ∨ ∃ source, e = .header path source := by
  unfold prepare at failed
  split at failed
  · cases failed
    exact .inl ⟨_, rfl⟩
  · split at failed
    · cases failed
      exact .inr ⟨_, rfl⟩
    · cases failed
    · cases failed

theorem Keeps.takeUp (keeps : Keeps schedule Holds Stopped) (job : Job) (path : String)
    (more : List String) (holds : Holds run) :
    (job.takeUp schedule run path more).Kept Holds Stopped := by
  have asked : Holds (run.ask schedule).2 := keeps.quiet holds rfl rfl rfl
  have read := keeps.prepare job path asked
  unfold Job.takeUp
  simp only
  split
  · exact keeps.quiet asked rfl rfl rfl
  · rcases prepared : job.prepare path (run.ask schedule).2.session with
      ⟨e | _ | source, session⟩
    · rw [prepared] at read
      rcases prepare_error_cases prepared with ⟨source, rfl⟩ | ⟨source, rfl⟩
      · exact read
      · exact read
    · rw [prepared] at read
      exact keeps.quiet read rfl rfl rfl
    · rw [prepared] at read
      exact keeps.enter source more read

theorem Keeps.move (keeps : Keeps schedule Holds Stopped) (job : Job) {stage : Stage}
    (kept : stage.Kept Holds Stopped) : (job.move schedule stage).Kept Holds Stopped := by
  cases stage with
  | between run paths =>
      cases paths with
      | nil => exact kept
      | cons path more => exact keeps.takeUp job path more kept
  | within run source before flight paths =>
      have held : Holds run := kept
      have step := keeps.advance job source flight held
      unfold Job.move
      simp only
      generalize job.advance schedule source run flight = next at step ⊢
      cases next with
      | again after left => exact step
      | done result after => exact keeps.finished source before paths step
  | done result run => exact kept

/-- What every operation keeps holds throughout an import. -/
theorem Keeps.stage (keeps : Keeps schedule Holds Stopped) (job : Job) {start : Run}
    (paths : List String) (holds : Holds start) (moves : Nat) :
    (job.stage schedule (.between start paths) moves).Kept Holds Stopped := by
  have initial : (Stage.between start paths).Kept Holds Stopped := holds
  exact stage_induction initial (fun _ kept => keeps.move job kept) moves

/-- What every operation keeps holds at the end of an import. -/
theorem Keeps.importSources (keeps : Keeps schedule Holds Stopped) (job : Job) {start : Run}
    (paths : List String) (holds : Holds start) :
    Kept Holds Stopped (job.importSources schedule start paths).1
      (job.importSources schedule start paths).2 := by
  obtain ⟨moves, reached⟩ := job.stage_importSources schedule start paths
  have kept := keeps.stage job paths holds moves
  rw [reached] at kept
  exact kept

end

end Job

end CsvImport

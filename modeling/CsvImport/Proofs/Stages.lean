import CsvImport.Proofs.Steps
import Mathlib.Logic.Function.Iterate

/-!
# Stages

An import of sources as a machine.  Each move deals with one source that is not begun, or
makes one step of the source that is being imported, and the machine ends in what the import
returns.  What every move keeps therefore holds throughout a job.
-/

namespace CsvImport

namespace Job

/-- Where an import of sources stands. -/
inductive Stage where
  /-- In front of the sources at the paths. -/
  | between (run : Run) (paths : List String)
  /-- Between two steps of a source, with the counts before it and the paths behind it. -/
  | within (run : Run) (source : Source) (before : Counts) (flight : Flight)
      (paths : List String)
  | done (result : Except FatalError Unit) (run : Run)

namespace Stage

def run : Stage → Run
  | between run _ => run
  | within run _ _ _ _ => run
  | done _ run => run

/-- What an import has come to: nothing is wrong before it is over. -/
def result : Stage → Except FatalError Unit
  | done result _ => result
  | _ => .ok ()

/-- Behind a source that was imported: on to the next one, unless a shutdown came. -/
def leave (run : Run) (paths : List String) : Stage :=
  if run.summary.cancelled then done (.ok ()) run else between run paths

def enter (run : Run) (source : Source) (paths : List String) : Stage :=
  let run := { run with summary := { run.summary with sources := run.summary.sources + 1 } }
  if source.chunks.isEmpty then
    leave (run.tell .info (source.path ++ ": no data rows after the header")) paths
  else within run source run.summary.counts { queued := source.chunks } paths

def finished (source : Source) (before : Counts) (paths : List String)
    (result : Except FatalError Unit) (run : Run) : Stage :=
  match result with
  | .error e => done (.error e) run
  | .ok () => leave (run.tell .info (sourceNotice source before run.summary.counts)) paths

end Stage

def takeUp (job : Job) (schedule : Schedule) (run : Run) (path : String) (more : List String) :
    Stage :=
  let (_, run) := run.ask schedule
  if run.stopping then
    .done (.ok ()) { run.tell .info "Shutdown requested, skipping remaining sources" with
      summary := { run.summary with cancelled := true } }
  else
    match job.prepare path run.session with
    | (.error e, session) => .done (.error e) { run with session }
    | (.ok none, session) =>
        let run := { run with session }.tell .info
          (path ++ ": source is empty, nothing to import")
        .between { run with
          summary := { run.summary with emptySources := run.summary.emptySources + 1 } } more
    | (.ok (some source), session) => .enter { run with session } source more

def move (job : Job) (schedule : Schedule) : Stage → Stage
  | .between run [] => .done (.ok ()) run
  | .between run (path :: more) => job.takeUp schedule run path more
  | .within run source before flight more =>
      match job.advance schedule source run flight with
      | .again after left => .within after source before left more
      | .done result after => .finished source before more result after
  | .done result run => .done result run

/-- Where an import stands after so many moves. -/
def stage (job : Job) (schedule : Schedule) (start : Stage) (moves : Nat) : Stage :=
  (job.move schedule)^[moves] start

section

variable {job : Job} {schedule : Schedule}

theorem stage_zero (start : Stage) : job.stage schedule start 0 = start := rfl

theorem stage_succ (start : Stage) (moves : Nat) :
    job.stage schedule start (moves + 1) = job.move schedule (job.stage schedule start moves) :=
  Function.iterate_succ_apply' ..

theorem stage_add (start : Stage) (first second : Nat) :
    job.stage schedule start (first + second) =
      job.stage schedule (job.stage schedule start first) second := by
  unfold stage
  rw [Nat.add_comm, Function.iterate_add_apply]

theorem stage_done (result : Except FatalError Unit) (run : Run) (moves : Nat) :
    job.stage schedule (.done result run) moves = .done result run := by
  induction moves with
  | zero => rfl
  | succ moves ih => rw [stage_succ, ih, move]

theorem done_unique {start : Stage} {result other : Except FatalError Unit} {run after : Run}
    {moves more : Nat} (former : job.stage schedule start moves = .done result run)
    (latter : job.stage schedule start more = .done other after) :
    result = other ∧ run = after := by
  have first : job.stage schedule start (moves + more) = _ := stage_add start moves more
  have second : job.stage schedule start (more + moves) = _ := stage_add start more moves
  rw [former, stage_done] at first
  rw [latter, stage_done, Nat.add_comm, first] at second
  exact Stage.done.inj second

/-- What every move keeps holds throughout. -/
theorem stage_induction {P : Stage → Prop} {start : Stage} (initial : P start)
    (kept : ∀ stage, P stage → P (job.move schedule stage)) (moves : Nat) :
    P (job.stage schedule start moves) := by
  induction moves with
  | zero => exact initial
  | succ moves ih =>
      rw [stage_succ]
      exact kept _ ih

/-- The moves within a source lead to the end of its import. -/
theorem stage_importChunks (job : Job) (schedule : Schedule) (source : Source)
    (before : Counts) (more : List String) (run : Run) (flight : Flight) :
    ∃ moves, job.stage schedule (.within run source before flight more) moves =
      .finished source before more (job.importChunks schedule source run flight).1
        (job.importChunks schedule source run flight).2 := by
  fun_induction Job.importChunks job schedule source run flight with
  | case1 run flight result after step =>
      refine ⟨1, ?_⟩
      rw [stage_succ, stage_zero, move, step]
  | case2 run flight after left step ih =>
      obtain ⟨moves, reached⟩ := ih
      refine ⟨1 + moves, ?_⟩
      rw [stage_add, stage_succ, stage_zero, move, step]
      exact reached

/-- The moves behind a source that was prepared lead through its import. -/
theorem stage_importSource (job : Job) (schedule : Schedule) (source : Source)
    (more : List String) (run : Run) :
    ∃ moves, job.stage schedule (.enter run source more) moves =
      match job.importSource schedule source run with
      | (.error e, after) => .done (.error e) after
      | (.ok (), after) => .leave after more := by
  unfold Stage.enter importSource
  simp only
  split
  · exact ⟨0, rfl⟩
  · obtain ⟨moves, reached⟩ := job.stage_importChunks schedule source
      run.summary.counts more
      { run with summary := { run.summary with sources := run.summary.sources + 1 } }
      { queued := source.chunks }
    refine ⟨moves, reached.trans ?_⟩
    rcases job.importChunks schedule source _ _ with ⟨_ | _, after⟩ <;> rfl

theorem stage_importSources (job : Job) (schedule : Schedule) (run : Run)
    (paths : List String) :
    ∃ moves, job.stage schedule (.between run paths) moves =
      .done (job.importSources schedule run paths).1 (job.importSources schedule run paths).2 := by
  induction paths generalizing run with
  | nil => exact ⟨1, rfl⟩
  | cons path more ih =>
      suffices reached : ∃ moves, job.stage schedule (job.takeUp schedule run path more) moves =
          .done (job.importSources schedule run (path :: more)).1
            (job.importSources schedule run (path :: more)).2 by
        obtain ⟨moves, reached⟩ := reached
        exact ⟨1 + moves, by rw [stage_add]; exact reached⟩
      unfold takeUp importSources
      simp only
      split
      · exact ⟨0, rfl⟩
      · rcases job.prepare path (run.ask schedule).2.session with ⟨_ | _ | source, session⟩
        · exact ⟨0, rfl⟩
        · exact ih _
        · obtain ⟨first, entered⟩ := job.stage_importSource schedule source more
            { (run.ask schedule).2 with session }
          simp only
          rcases imported : job.importSource schedule source { (run.ask schedule).2 with session }
            with ⟨_ | _, after⟩
          · rw [imported] at entered
            exact ⟨first, entered⟩
          · rw [imported] at entered
            simp only [Stage.leave] at entered ⊢
            split at entered
            · rename_i stopped
              rw [if_pos stopped]
              exact ⟨first, entered⟩
            · rename_i going
              obtain ⟨second, reached⟩ := ih after
              rw [if_neg going]
              refine ⟨first + second, ?_⟩
              rw [stage_add, entered]
              exact reached

end

end Job

end CsvImport

import CsvImport.Proofs.Completing
import CsvImport.Proofs.Covering
import CsvImport.Proofs.FailureLimit
import CsvImport.Proofs.FailureLogging

/-!
# Mirrored runs

A failure log does not matter to the job that keeps it.  A run with a log and one without are
in the same state behind every move, but for the log and for its batches, which neither reads.
-/

namespace CsvImport

/-! ## Outputs -/

namespace Output

/-- The output does not write to a hidden file. -/
def Beside (hidden : Hidden) : Output → Prop
  | .sink _ => True
  | .file path _ => ¬hidden.file path

variable {hidden : Hidden} {output : Output}

theorem beside_append {before after : Disk} {path : DiskPath}
    (grows : before.GrowsBeside hidden.file after) (seen : ¬hidden.file path) (bytes : Bytes) :
    (append before path bytes).GrowsBeside hidden.file (append after path bytes) := by
  unfold append
  cases former : before.get? path with
  | some entry =>
      rw [grows.kept seen former]
      cases entry with
      | directory => exact grows
      | file held => exact grows.set path _
  | none =>
      cases latter : after.get? path with
      | none => exact grows
      | some entry =>
          cases entry with
          | directory => exact grows
          | file held =>
              rw [grows.made seen latter] at former
              cases former

theorem beside_appendIn {session other : Session} {path : DiskPath}
    (grows : session.store.GrowsBeside hidden other.store) (seen : ¬hidden.file path)
    (bytes : Bytes) : (appendIn session path bytes).store.GrowsBeside hidden
      (appendIn other path bytes).store where
  disk := beside_append grows.disk seen bytes
  memory := grows.memory
  workingDirectory := grows.workingDirectory

theorem beside_spill {session other : Session} {path : DiskPath}
    (grows : session.store.GrowsBeside hidden other.store) (seen : ¬hidden.file path)
    (pieces : List Bytes) : (spill session path pieces).store.GrowsBeside hidden
      (spill other path pieces).store := by
  induction pieces generalizing session other with
  | nil => exact grows
  | cons piece more ih => exact ih (beside_appendIn grows seen piece)

/-- What an operation on an output does in two sessions. -/
structure Agree (hidden : Hidden) (first second : Except String Unit × Output × Session) :
    Prop where
  result : second.1 = first.1
  output : second.2.1 = first.2.1
  beside : first.2.1.Beside hidden
  store : first.2.2.store.GrowsBeside hidden second.2.2.store

theorem Beside.writeAll (beside : output.Beside hidden) {session other : Session}
    (grows : session.store.GrowsBeside hidden other.store) (bytes : Bytes) :
    Agree hidden (output.writeAll session bytes) (output.writeAll other bytes) := by
  cases output with
  | sink s => exact ⟨rfl, rfl, trivial, grows⟩
  | file path buffered =>
      obtain ⟨pieces, kept, _, written⟩ := writeAll_file path buffered bytes
      rw [written, written]
      exact ⟨rfl, rfl, beside, beside_spill grows beside pieces⟩

theorem Beside.flush (beside : output.Beside hidden) {session other : Session}
    (grows : session.store.GrowsBeside hidden other.store) :
    Agree hidden (output.flush session) (output.flush other) := by
  cases output with
  | sink s => exact ⟨rfl, rfl, trivial, grows⟩
  | file path buffered => exact ⟨rfl, rfl, beside, beside_appendIn grows beside buffered⟩

/-- A file that is not hidden holds the same in both sessions. -/
theorem Beside.holds (beside : output.Beside hidden) {session other : Session}
    (grows : session.store.GrowsBeside hidden other.store) (held : Bytes) :
    output.Holds session held ↔ output.Holds other held := by
  constructor
  · rintro (_ | found)
    · exact .sink
    · exact .file (grows.disk.kept beside found)
  · rintro (_ | found)
    · exact .sink
    · exact .file (grows.disk.made beside found)

end Output

/-! ## Operations of two runs -/

namespace Run

/-- Two runs are in the same state, except that the second has a log and its hidden batches. -/
structure Mirrors (hidden : Hidden) (workingDirectory : String) (plain logged : Run) : Prop where
  output : logged.output = plain.output
  summary : logged.summary = plain.summary
  asked : logged.asked = plain.asked
  stopping : logged.stopping = plain.stopping
  failures : logged.tracker.failures = plain.tracker.failures
  limit : logged.tracker.limit = plain.tracker.limit
  unlogged : plain.tracker.log = none
  covered : logged.tracker.Covered hidden
  store : plain.session.store.GrowsBeside hidden logged.session.store
  workingDirectory : plain.session.store.workingDirectory = workingDirectory
  /-- What is written is seen. -/
  beside : plain.output.Beside hidden

variable {hidden : Hidden} {here : String} {plain logged : Run}

theorem Mirrors.ask (mirrors : Mirrors hidden here plain logged) (schedule : Schedule) :
    (logged.ask schedule).1 = (plain.ask schedule).1 ∧
      Mirrors hidden here (plain.ask schedule).2 (logged.ask schedule).2 := by
  constructor
  · exact congrArg schedule.turn mirrors.asked
  · exact { mirrors with
      asked := congrArg (· + 1) mirrors.asked
      stopping := by
        change (logged.stopping || schedule.stops logged.asked logged.output.writes) =
          (plain.stopping || schedule.stops plain.asked plain.output.writes)
        rw [mirrors.stopping, mirrors.asked, mirrors.output] }

theorem Mirrors.tell (mirrors : Mirrors hidden here plain logged) (level : NoticeLevel)
    (text : String) : Mirrors hidden here (plain.tell level text) (logged.tell level text) :=
  { mirrors with }

theorem Mirrors.count (mirrors : Mirrors hidden here plain logged) (change : Metrics → Metrics) :
    Mirrors hidden here (plain.count change) (logged.count change) :=
  { mirrors with }

theorem Mirrors.sum (mirrors : Mirrors hidden here plain logged) (change : Summary → Summary) :
    Mirrors hidden here { plain with summary := change plain.summary }
      { logged with summary := change logged.summary } :=
  { mirrors with summary := congrArg change mirrors.summary }

theorem Mirrors.addCancelled (mirrors : Mirrors hidden here plain logged) (amount : Nat) :
    Mirrors hidden here (plain.addCancelled amount) (logged.addCancelled amount) :=
  (mirrors.count _).sum (·.addCancelled amount)

/-- Outputs are written alike, and so is the first that cannot be written. -/
theorem Mirrors.write (mirrors : Mirrors hidden here plain logged) (path : String)
    (ready : List ChunkOutput) :
    (logged.write path ready).1 = (plain.write path ready).1 ∧
      Mirrors hidden here (plain.write path ready).2 (logged.write path ready).2 := by
  induction ready generalizing plain logged with
  | nil => exact ⟨rfl, mirrors⟩
  | cons first more ih =>
      have agree := mirrors.beside.writeAll mirrors.store first.bytes
      have kept : (plain.output.writeAll plain.session first.bytes).2.2.store.workingDirectory =
          here := by
        obtain ⟨disk, same⟩ := plain.output.writeAll_disk plain.session first.bytes
        rw [same]
        exact mirrors.workingDirectory
      unfold Run.write
      rw [mirrors.output]
      rcases former : plain.output.writeAll plain.session first.bytes with ⟨_, _, session⟩
      rcases latter : plain.output.writeAll logged.session first.bytes with ⟨result, output, other⟩
      rw [former, latter] at agree
      rw [former] at kept
      obtain ⟨rfl, rfl, beside, store⟩ := agree
      have written : Mirrors hidden here { plain with output, session }
          { logged with output, session := other } :=
        { mirrors with output := rfl, store, beside, workingDirectory := kept }
      cases result with
      | error cause => exact ⟨rfl, written⟩
      | ok => exact ih ((written.count _).sum (·.addWritten first.counts first.bytes.length))

/-- A failure is recorded alike, whatever becomes of it in the log. -/
theorem Mirrors.fail (mirrors : Mirrors hidden here plain logged) (failure : Failure)
    (now : Timestamp) :
    (logged.fail failure now).1 = (plain.fail failure now).1 ∧
      Mirrors hidden here (plain.fail failure now).2 (logged.fail failure now).2 := by
  obtain ⟨failures, limit⟩ := plain.tracker.failures_record failure now plain.session
  obtain ⟨others, same⟩ := logged.tracker.failures_record failure now logged.session
  obtain ⟨absent, unchanged⟩ :=
    plain.tracker.record_of_no_log failure now plain.session mirrors.unlogged
  obtain ⟨beside, covered⟩ := mirrors.covered.record failure now logged.session
  constructor
  · change (logged.tracker.record failure now logged.session).1 =
      (plain.tracker.record failure now plain.session).1
    rw [FailureTracker.excess?_record, FailureTracker.excess?_record]
    unfold FailureTracker.excess? FailureTracker.size
    rw [mirrors.failures, mirrors.limit]
  · exact { mirrors with
      summary := congrArg (fun summary : Summary =>
        { summary with chunksFailed := summary.chunksFailed + 1 }) mirrors.summary
      failures := by
        change (logged.tracker.record failure now logged.session).2.1.failures =
          (plain.tracker.record failure now plain.session).2.1.failures
        rw [others, failures, mirrors.failures]
      limit := same.trans (mirrors.limit.trans limit.symm)
      unlogged := absent
      covered
      store := by
        change (plain.tracker.record failure now plain.session).2.2.store.GrowsBeside hidden _
        rw [unchanged]
        exact mirrors.store.trans beside
      workingDirectory := (congrArg Store.workingDirectory unchanged).trans
        mirrors.workingDirectory }

end Run

/-! ## The import of two runs -/

namespace Job

section

variable {hidden : Hidden} {here : String} {plain logged : Run} {schedule : Schedule}

/-- Two runs have ended a chunk alike. -/
structure EndsAlike (hidden : Hidden) (here : String)
    (plain logged : Except FatalError Unit × Run × Flight) : Prop where
  result : logged.1 = plain.1
  flight : logged.2.2 = plain.2.2
  mirrors : plain.2.1.Mirrors hidden here logged.2.1

theorem mirrors_release (mirrors : plain.Mirrors hidden here logged) (job : Job)
    (flight : Flight) (index : Nat) (output : Option ChunkOutput) :
    EndsAlike hidden here (job.release plain flight index output)
      (job.release logged flight index output) := by
  obtain ⟨result, written⟩ := (mirrors.count (·.setPending
    (flight.reorder.insert index output).drain.2.pending.length)).write job.config.output.path
      (flight.reorder.insert index output).drain.1
  exact ⟨result, rfl, written⟩

theorem mirrors_finish (mirrors : plain.Mirrors hidden here logged) (job : Job) (source : Source)
    (turn : Turn) (chunk : Chunk) (flight : Flight) :
    EndsAlike hidden here (job.finish source turn chunk plain flight)
      (job.finish source turn chunk logged flight) := by
  unfold finish
  split
  · have stopped : Run.Mirrors hidden here { plain with stopping := true }
        { logged with stopping := true } := { mirrors with stopping := rfl }
    exact mirrors_release (stopped.addCancelled 1) ..
  · rcases job.ingest source chunk with ⟨e | output, ingestion⟩
    · obtain ⟨excess, failed⟩ :=
        (mirrors.count ingestion.record).fail (.ofError chunk.id e) turn.now
      simp only
      generalize (plain.count ingestion.record).fail (.ofError chunk.id e) turn.now = former
        at excess failed ⊢
      generalize (logged.count ingestion.record).fail (.ofError chunk.id e) turn.now = latter
        at excess failed ⊢
      obtain ⟨found, after⟩ := former
      obtain ⟨_, other⟩ := latter
      cases excess
      cases found with
      | none => exact mirrors_release failed ..
      | some excess => exact ⟨rfl, rfl, failed⟩
    · exact mirrors_release ((mirrors.count _).count _) ..

/-- A step of one run mirrors the step of the other. -/
inductive Step.Mirrors (hidden : Hidden) (here : String) : Step → Step → Prop where
  | again {plain logged : Run} {flight : Flight} (runs : plain.Mirrors hidden here logged) :
      Mirrors hidden here (.again plain flight) (.again logged flight)
  | done {result : Except FatalError Unit} {plain logged : Run}
      (runs : plain.Mirrors hidden here logged) :
      Mirrors hidden here (.done result plain) (.done result logged)

def Step.ofEnded : Except FatalError Unit × Run × Flight → Step
  | (.ok (), run, flight) => .again run flight
  | (.error e, run, _) => .done (.error e) run

theorem EndsAlike.goesOn {former latter : Except FatalError Unit × Run × Flight}
    (ends : EndsAlike hidden here former latter) :
    (Step.ofEnded former).Mirrors hidden here (.ofEnded latter) := by
  obtain ⟨_, after, _⟩ := former
  obtain ⟨result, other, left⟩ := latter
  obtain ⟨rfl, rfl, runs⟩ := ends
  cases result with
  | ok => exact .again runs
  | error e => exact .done runs

theorem mirrors_abandon (mirrors : plain.Mirrors hidden here logged) (source : Source)
    (flight : Flight) :
    (abandon source plain flight).Mirrors hidden here (abandon source logged flight) :=
  (mirrors.tell ..).addCancelled _

theorem mirrors_advance (mirrors : plain.Mirrors hidden here logged) (job : Job)
    (schedule : Schedule) (source : Source) (flight : Flight) :
    (job.advance schedule source plain flight).Mirrors hidden here
      (job.advance schedule source logged flight) := by
  have asked := (mirrors.ask schedule).2
  have filled := asked.count
    (·.setActive (flight.fill job.config.source.maxConcurrent).inFlight.length)
  obtain ⟨turns, again⟩ := filled.ask schedule
  unfold advance
  simp only
  rw [asked.stopping, again.stopping, turns]
  split
  · exact .done (mirrors_abandon asked source flight)
  · split
    · exact .done filled
    · split
      · exact .done (mirrors_abandon again source _)
      · split
        · exact .done again
        · rename_i chunk rest taken
          exact (mirrors_finish again job source _ chunk rest).goesOn

/-- A stage of one run mirrors the stage of the other, and the sources to come are not
hidden. -/
inductive Stage.Mirrors (hidden : Hidden) (here : String) : Stage → Stage → Prop where
  | between {plain logged : Run} {paths : List String} (runs : plain.Mirrors hidden here logged)
      (apart : ∀ path ∈ paths, LoadsApart hidden here path) :
      Mirrors hidden here (.between plain paths) (.between logged paths)
  | within {plain logged : Run} {source : Source} {before : Counts} {flight : Flight}
      {paths : List String} (runs : plain.Mirrors hidden here logged)
      (apart : ∀ path ∈ paths, LoadsApart hidden here path) :
      Mirrors hidden here (.within plain source before flight paths)
        (.within logged source before flight paths)
  | done {result : Except FatalError Unit} {plain logged : Run}
      (runs : plain.Mirrors hidden here logged) :
      Mirrors hidden here (.done result plain) (.done result logged)

theorem mirrors_leave (mirrors : plain.Mirrors hidden here logged) {paths : List String}
    (apart : ∀ path ∈ paths, LoadsApart hidden here path) :
    (Stage.leave plain paths).Mirrors hidden here (.leave logged paths) := by
  unfold Stage.leave
  rw [mirrors.summary]
  split
  · exact .done mirrors
  · exact .between mirrors apart

theorem mirrors_enter (mirrors : plain.Mirrors hidden here logged) (source : Source)
    {paths : List String} (apart : ∀ path ∈ paths, LoadsApart hidden here path) :
    (Stage.enter plain source paths).Mirrors hidden here (.enter logged source paths) := by
  have counted := mirrors.sum fun summary => { summary with sources := summary.sources + 1 }
  unfold Stage.enter
  simp only
  split
  · exact mirrors_leave (counted.tell ..) apart
  · rw [mirrors.summary]
    exact .within (mirrors.summary ▸ counted) apart

theorem mirrors_finished (mirrors : plain.Mirrors hidden here logged) (source : Source)
    (before : Counts) {paths : List String}
    (apart : ∀ path ∈ paths, LoadsApart hidden here path) (result : Except FatalError Unit) :
    (Stage.finished source before paths result plain).Mirrors hidden here
      (.finished source before paths result logged) := by
  cases result with
  | error e => exact .done mirrors
  | ok =>
      unfold Stage.finished
      simp only
      rw [mirrors.summary]
      exact mirrors_leave (mirrors.tell ..) apart

/-- A source that is not hidden is taken up alike. -/
theorem mirrors_takeUp (mirrors : plain.Mirrors hidden here logged) (job : Job)
    (schedule : Schedule) {path : String} {more : List String}
    (apart : ∀ other ∈ path :: more, LoadsApart hidden here other) :
    (job.takeUp schedule plain path more).Mirrors hidden here
      (job.takeUp schedule logged path more) := by
  have asked := (mirrors.ask schedule).2
  obtain ⟨first, others⟩ := List.forall_mem_cons.mp apart
  obtain ⟨result, stores⟩ :=
    job.prepare_beside asked.store (asked.workingDirectory.symm ▸ first)
  have kept : (job.prepare path (plain.ask schedule).2.session).2.store.workingDirectory =
      here := by
    rw [store_prepare]
    exact (grows_load path _).workingDirectory.trans asked.workingDirectory
  unfold takeUp
  simp only
  by_cases stopping : (plain.ask schedule).2.stopping = true
  · rw [if_pos stopping, if_pos (asked.stopping.trans stopping)]
    exact .done ((asked.tell ..).sum fun summary => { summary with cancelled := true })
  · rw [if_neg stopping, if_neg (asked.stopping ▸ stopping)]
    rcases former : job.prepare path (plain.ask schedule).2.session with ⟨prepared, session⟩
    rcases latter : job.prepare path (logged.ask schedule).2.session with ⟨_, other⟩
    rw [former, latter] at result stores
    rw [former] at kept
    cases result
    have read : Run.Mirrors hidden here { (plain.ask schedule).2 with session }
        { (logged.ask schedule).2 with session := other } :=
      { asked with store := stores, workingDirectory := kept }
    rcases prepared with e | _ | source
    · exact .done read
    · exact .between ((read.tell ..).sum fun summary =>
        { summary with emptySources := summary.emptySources + 1 }) others
    · exact mirrors_enter read source others

/-- Every move of one run is mirrored by the other. -/
theorem mirrors_move (job : Job) (schedule : Schedule) {stage other : Stage}
    (mirrors : stage.Mirrors hidden here other) :
    (job.move schedule stage).Mirrors hidden here (job.move schedule other) := by
  cases mirrors with
  | @between plain logged paths runs apart =>
      cases paths with
      | nil => exact .done runs
      | cons path more => exact mirrors_takeUp runs job schedule apart
  | @within plain logged source before flight paths runs apart =>
      have steps := mirrors_advance runs job schedule source flight
      unfold move
      simp only
      generalize job.advance schedule source plain flight = step at steps ⊢
      generalize job.advance schedule source logged flight = mirror at steps ⊢
      cases steps with
      | again runs => exact .within runs apart
      | done runs => exact mirrors_finished runs source before apart _
  | done runs => exact .done runs

/-- The runs mirror each other throughout an import. -/
theorem mirrors_stage (job : Job) (schedule : Schedule) {stage other : Stage}
    (mirrors : stage.Mirrors hidden here other) (moves : Nat) :
    (job.stage schedule stage moves).Mirrors hidden here (job.stage schedule other moves) := by
  induction moves with
  | zero => exact mirrors
  | succ moves ih =>
      rw [stage_succ, stage_succ]
      exact job.mirrors_move schedule ih

theorem mirrors_importSources (mirrors : plain.Mirrors hidden here logged) (job : Job)
    (schedule : Schedule) {paths : List String}
    (apart : ∀ path ∈ paths, LoadsApart hidden here path) :
    (job.importSources schedule logged paths).1 = (job.importSources schedule plain paths).1 ∧
      (job.importSources schedule plain paths).2.Mirrors hidden here
        (job.importSources schedule logged paths).2 := by
  obtain ⟨moves, former⟩ := job.stage_importSources schedule plain paths
  obtain ⟨others, latter⟩ := job.stage_importSources schedule logged paths
  have reached := job.mirrors_stage schedule (.between mirrors apart) moves
  rw [former] at reached
  generalize ended : job.stage schedule (.between logged paths) moves = stage at reached
  cases reached with
  | done runs =>
      obtain ⟨result, run⟩ := done_unique ended latter
      exact ⟨result.symm, run ▸ runs⟩

theorem mirrors_deliver (mirrors : plain.Mirrors hidden here logged) (job : Job)
    (result : Except FatalError Unit) :
    (job.deliver result logged).1 = (job.deliver result plain).1 ∧
      (job.deliver result plain).2.Mirrors hidden here (job.deliver result logged).2 := by
  have agree := mirrors.beside.flush mirrors.store
  have kept : (plain.output.flush plain.session).2.2.store.workingDirectory = here := by
    rw [← mirrors.workingDirectory]
    cases plain.output <;> rfl
  unfold deliver
  rw [mirrors.output]
  rcases former : plain.output.flush plain.session with ⟨_, _, session⟩
  rcases latter : plain.output.flush logged.session with ⟨flushed, output, other⟩
  rw [former, latter] at agree
  rw [former] at kept
  obtain ⟨rfl, rfl, beside, store⟩ := agree
  exact ⟨rfl, { mirrors with output := rfl, store, beside, workingDirectory := kept }⟩

/-- Only the log is finished, and there it does not matter whether it can be. -/
theorem mirrors_closeLog (mirrors : plain.Mirrors hidden here logged)
    (result : Except FatalError Unit) :
    (closeLog result plain).Mirrors hidden here (closeLog result logged) := by
  have absent := plain.tracker.finalizeLog_of_no_log plain.session mirrors.unlogged
  obtain ⟨failures, limit⟩ := logged.tracker.failures_finalizeLog logged.session
  obtain ⟨beside, covered⟩ := mirrors.covered.finalizeLog logged.session
  unfold closeLog
  split
  · exact mirrors
  · rw [absent]
    exact { mirrors with
      failures := failures.trans mirrors.failures
      limit := limit.trans mirrors.limit
      covered
      store := mirrors.store.trans beside }

theorem mirrors_conclude (mirrors : plain.Mirrors hidden here logged)
    (result : Except FatalError Unit) :
    (conclude result logged).1 = (conclude result plain).1 ∧
      (conclude result plain).2.Mirrors hidden here (conclude result logged).2 := by
  cases result with
  | error e => exact ⟨by simp only [conclude, mirrors.summary, mirrors.failures], { mirrors with }⟩
  | ok => exact ⟨by simp only [conclude, mirrors.summary, mirrors.failures], { mirrors with }⟩

theorem mirrors_ended (mirrors : plain.Mirrors hidden here logged) (job : Job)
    {result other : Except FatalError Unit} (alike : other = result) :
    (job.ended other logged).1 = (job.ended result plain).1 ∧
      (job.ended result plain).2.Mirrors hidden here (job.ended other logged).2 := by
  subst alike
  obtain ⟨same, delivered⟩ := mirrors_deliver mirrors job other
  unfold ended
  rw [same]
  exact mirrors_conclude (mirrors_closeLog delivered _) _

end

end Job

/-! ## Jobs without a log -/

def Config.unlogged (config : Config) : Config :=
  { config with errors := { config.errors with logPath := none } }

namespace Job

def unlogged (job : Job) : Job :=
  { job with config := job.config.unlogged }

/-- The path of the log is not looked at when a job is made. -/
theorem ofConfig_unlogged (config : Config) :
    ofConfig config.unlogged = (ofConfig config).map unlogged := by
  unfold ofConfig Config.unlogged
  cases config.csv.dialect with
  | error e => rfl
  | ok dialect => cases config.csv.configuredHeader <;> rfl

theorem importSources_unlogged (job : Job) (schedule : Schedule) (run : Run)
    (paths : List String) :
    job.unlogged.importSources schedule run paths = job.importSources schedule run paths := by
  have moves : job.unlogged.move schedule = job.move schedule := by
    funext stage
    cases stage with
    | between run paths => cases paths <;> rfl
    | within => rfl
    | done => rfl
  have stages : ∀ start count,
      job.unlogged.stage schedule start count = job.stage schedule start count := by
    intro start count
    unfold stage
    rw [moves]
  obtain ⟨count, former⟩ := job.unlogged.stage_importSources schedule run paths
  obtain ⟨other, latter⟩ := job.stage_importSources schedule run paths
  rw [stages] at former
  obtain ⟨result, after⟩ := done_unique former latter
  exact Prod.ext result after

/-- What a job does without its log. -/
theorem runWith_of_unlogged (job : Job) (schedule : Schedule) (now : Timestamp) (output : Output)
    (session : Session) :
    let start : Run := {
      output
      session := session.tell .job .info job.startNotice
      tracker := { limit := job.config.errors.maxFailures } }
    job.unlogged.runWith schedule now output session =
      job.ended (job.importSources schedule start job.config.source.paths).1
        (job.importSources schedule start job.config.source.paths).2 := by
  intro start
  have begins : job.unlogged.Begins now output session start := ⟨none, _, rfl, rfl⟩
  rw [runWith_of_begins begins, importSources_unlogged]
  rfl

/-- A job and the same job without a log are in the same state when they begin. -/
theorem Begins.mirrors {job : Job} {now : Timestamp} {output : Output} {session opened : Session}
    {log : FailureLog}
    (isOpen : job.openLog now (session.tell .job .info job.startNotice) = (.ok (some log), opened))
    (apart : ∀ batch, output.Apart log.provider (log.batchName batch)) :
    Run.Mirrors log.hidden session.store.workingDirectory
      { output
        session := session.tell .job .info job.startNotice
        tracker := { limit := job.config.errors.maxFailures } }
      { output, session := opened
        tracker := { limit := job.config.errors.maxFailures, log := some log } } := by
  obtain ⟨stem, _, _, stands⟩ := openLog_fresh isOpen
  have grows := job.grows_openLog now (session.tell .job .info job.startNotice)
  rw [isOpen] at grows
  have covered : log.Covered log.hidden :=
    FailureLog.covered_hidden (FailureLog.plain_batchName stem) stands.direct
  exact {
    output := rfl
    summary := rfl
    asked := rfl
    stopping := rfl
    failures := rfl
    limit := rfl
    unlogged := rfl
    covered := fun _ isLog => Option.some.inj isLog ▸ covered
    store := grows.beside log.hidden
    workingDirectory := rfl
    beside := by
      cases output with
      | sink s => trivial
      | file path buffered => exact fun ⟨batch, found⟩ => apart batch found }

/-- The failure log of a job has no influence on it: without the log the same is written, and
the same is reported. -/
theorem runWith_unlogged {job : Job} {now : Timestamp} {output : Output}
    {session opened : Session} {log : FailureLog}
    (isOpen : job.openLog now (session.tell .job .info job.startNotice) = (.ok (some log), opened))
    (sources : ∀ path ∈ job.config.source.paths,
      LoadsApart log.hidden session.store.workingDirectory path)
    (apart : ∀ batch, output.Apart log.provider (log.batchName batch)) (schedule : Schedule) :
    let plain := job.unlogged.runWith schedule now output session
    let logged := job.runWith schedule now output session
    logged.1 = plain.1 ∧ logged.2.output = plain.2.output ∧
      (∀ held, plain.2.output.Holds plain.2.session held ↔
        logged.2.output.Holds logged.2.session held) ∧
      plain.2.session.store.GrowsBeside log.hidden logged.2.session.store := by
  intro plain logged
  have begins : job.Begins now output session _ := ⟨some log, opened, isOpen, rfl⟩
  obtain ⟨result, imported⟩ :=
    mirrors_importSources (Begins.mirrors isOpen apart) job schedule sources
  obtain ⟨outcome, mirrors⟩ := mirrors_ended imported job result
  rw [← runWith_of_unlogged job schedule now, ← runWith_of_begins begins] at outcome mirrors
  refine ⟨outcome, mirrors.output, ?_, mirrors.store⟩
  rw [mirrors.output]
  exact mirrors.beside.holds mirrors.store

/-- A batch that is refused does not matter to the job that one failure stops. -/
theorem runWith_unlogged_refusedBatch :
    let job : Job := {
      config := {
        source := { paths := ["memory://open.csv"], chunkSize := 1, maxConcurrent := 1 }
        errors := { logPath := some "memory://log", maxFailures := 1 } }
      dialect := {}
      header := none }
    let session : Session := {
      store := { memory := [(⟨["open.csv"]⟩, [97, 10, 34])], refusals := [true] } }
    ∃ (log : FailureLog) (opened : Session),
      job.openLog {} (session.tell .job .info job.startNotice) = (.ok (some log), opened) ∧
      (∀ path ∈ job.config.source.paths,
        LoadsApart log.hidden session.store.workingDirectory path) ∧
      (∀ batch, Output.Apart (.sink {}) log.provider (log.batchName batch)) ∧
      (job.runWith {} {} (.sink {}) session).1 =
        (job.unlogged.runWith {} {} (.sink {}) session).1 ∧
      (job.runWith {} {} (.sink {}) session).2.output =
        (job.unlogged.runWith {} {} (.sink {}) session).2.output := by
  intro job session
  let log : FailureLog := {
    provider := { location := .memory (some ⟨["log"]⟩) }
    stem := FailureLog.stemAt {} }
  have provides : Provider.ofUrl session.store "memory://log" false =
      (.ok log.provider, session.store) := by decide +kernel
  have isUrl : job.config.errors.logPath = some "memory://log" := rfl
  obtain ⟨opened, _, isOpen⟩ :=
    openLog_of_ofUrl isUrl {} (session.tell .job .info job.startNotice) provides
  have plain : ∀ batch, Key.Plain (log.batchName batch) :=
    FailureLog.plain_batchName (openLog_fresh isOpen).1
  have place : Location.parse session.store.workingDirectory "memory://open.csv" true =
      .ok (.memory (some ⟨["open.csv"]⟩)) := by decide +kernel
  have sources : ∀ path ∈ job.config.source.paths,
      LoadsApart log.hidden session.store.workingDirectory path := by
    intro path listed location parsed
    obtain rfl := List.mem_singleton.mp listed
    cases place.symm.trans parsed
    rintro ⟨batch, found⟩
    unfold Provider.memoryKey? at found
    rw [(plain batch).key] at found
    have front : "log" = "open.csv" :=
      List.head_eq_of_cons_eq (congrArg Key.parts (Option.some.inj found))
    exact absurd front (by decide)
  have apart : ∀ batch, Output.Apart (.sink {}) log.provider (log.batchName batch) :=
    fun _ => trivial
  obtain ⟨result, output, _⟩ := runWith_unlogged isOpen sources apart {}
  exact ⟨log, opened, isOpen, sources, apart, result, output⟩

end Job

end CsvImport

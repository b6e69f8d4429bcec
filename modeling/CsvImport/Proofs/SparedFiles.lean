import CsvImport.Proofs.Destinations
import CsvImport.Proofs.EmptySources
import CsvImport.Proofs.Previewing

/-!
# Spared files

A job without a failure log writes to the file of its output and to no other.  A source in another
file keeps its bytes, and these are what is imported.  The file of the output is emptied before the
first source is read, even if it is a source itself, and the job takes no notice.
-/

namespace CsvImport

namespace Output

/-- The output writes to no file but a hidden one. -/
def Within (hidden : Hidden) : Output → Prop
  | .sink _ => True
  | .file path _ => hidden.file path

variable {hidden : Hidden}

theorem beside_append_hidden (disk : Disk) {path : DiskPath} (isHidden : hidden.file path)
    (bytes : Bytes) : disk.GrowsBeside hidden.file (append disk path bytes) := by
  unfold append
  split
  · exact Disk.growsBeside_set isHidden _
  · exact (Disk.Grows.refl disk).beside _

theorem beside_appendIn_hidden (session : Session) {path : DiskPath}
    (isHidden : hidden.file path) (bytes : Bytes) :
    session.store.GrowsBeside hidden (appendIn session path bytes).store where
  disk := beside_append_hidden session.store.disk isHidden bytes
  memory _ _ := rfl
  workingDirectory := rfl

theorem beside_spill_hidden (session : Session) {path : DiskPath} (isHidden : hidden.file path)
    (pieces : List Bytes) : session.store.GrowsBeside hidden (spill session path pieces).store := by
  induction pieces generalizing session with
  | nil => exact Store.GrowsBeside.refl hidden _
  | cons piece more ih => exact (beside_appendIn_hidden session isHidden piece).trans (ih _)

theorem Within.writeAll {output : Output} (within : output.Within hidden) (session : Session)
    (bytes : Bytes) :
    session.store.GrowsBeside hidden (output.writeAll session bytes).2.2.store ∧
      (output.writeAll session bytes).2.1.Within hidden := by
  cases output with
  | sink s => exact ⟨Store.GrowsBeside.refl hidden _, trivial⟩
  | file path buffered =>
      obtain ⟨pieces, kept, _, written⟩ := writeAll_file path buffered bytes
      rw [written]
      exact ⟨beside_spill_hidden session within pieces, within⟩

theorem Within.flush {output : Output} (within : output.Within hidden) (session : Session) :
    session.store.GrowsBeside hidden (output.flush session).2.2.store ∧
      (output.flush session).2.1.Within hidden := by
  cases output with
  | sink s => exact ⟨Store.GrowsBeside.refl hidden _, trivial⟩
  | file path buffered => exact ⟨beside_appendIn_hidden session within buffered, within⟩

end Output

/-! ## Confined runs -/

/-- A run without a failure log has made directories since the start, and written to hidden files
only. -/
structure Run.Confined (hidden : Hidden) (start : Store) (run : Run) : Prop where
  within : run.output.Within hidden
  unlogged : run.tracker.log = none
  store : start.GrowsBeside hidden run.session.store

namespace Job

section

variable {hidden : Hidden} {start : Store} {schedule : Schedule} {run : Run}

theorem confined_fail (confined : run.Confined hidden start) (failure : Failure)
    (now : Timestamp) : (run.fail failure now).2.Confined hidden start := by
  obtain ⟨none, same⟩ := run.tracker.record_of_no_log failure now run.session confined.unlogged
  exact { confined with
    unlogged := none
    store := (congrArg (start.GrowsBeside hidden) same).mpr confined.store }

/-- Every operation of a job keeps to the hidden files, however the job ends. -/
theorem keeps_confined (schedule : Schedule) (hidden : Hidden) (start : Store) :
    Keeps schedule (Run.Confined hidden start) fun _ => Run.Confined hidden start where
  quiet confined output tracker store := {
    within := output ▸ confined.within
    unlogged := tracker ▸ confined.unlogged
    store := store ▸ confined.store }
  load {run} confined path := { confined with
    store := confined.store.trans ((grows_load path run.session).beside hidden) }
  write {run} confined bytes :=
    have written := confined.within.writeAll run.session bytes
    { confined with
      within := written.2
      store := confined.store.trans written.1 }
  fail confined failure _ _ := confined_fail confined failure _
  exceed confined failure _ _ _ := confined_fail confined failure _

theorem confined_of_kept {result : Except FatalError Unit}
    (kept : Kept (Run.Confined hidden start) (fun _ => Run.Confined hidden start) result run) :
    run.Confined hidden start := by
  unfold Kept at kept
  split at kept <;> exact kept

theorem confined_ended (confined : run.Confined hidden start) (job : Job)
    (result : Except FatalError Unit) : (job.ended result run).2.Confined hidden start := by
  obtain ⟨beside, within⟩ := confined.within.flush run.session
  have delivered : (job.deliver result run).2.Confined hidden start :=
    { confined with within, store := confined.store.trans beside }
  have closed : (closeLog (job.deliver result run).1 (job.deliver result run).2).Confined
      hidden start := by
    unfold closeLog
    split
    · exact delivered
    · rw [FailureTracker.finalizeLog_of_no_log _ _ delivered.unlogged]
      exact delivered
  unfold ended conclude
  split <;> exact { closed with }

end

/-- The run of a job passes the stage: it has opened its output, and comes to the stage by moves of
its import. -/
def Passes (job : Job) (schedule : Schedule) (now : Timestamp) (session : Session)
    (stage : Stage) : Prop :=
  ∃ output opened start moves, job.openOutput session = (some output, opened) ∧
    job.Begins now output opened start ∧
    job.stage schedule (.between start job.config.source.paths) moves = stage

/-- A source that is being imported from the path holds what is loaded there. -/
def Stage.TakenFrom (path : String) (loaded : Except StorageError Bytes) : Stage → Prop
  | .within _ source _ _ _ => source.path = path → loaded = .ok source.data
  | _ => True

/-- At a stage of an import, this is what is loaded at the path and imported from there. -/
def Stage.Imports (path : String) (loaded : Except StorageError Bytes) (stage : Stage) : Prop :=
  (load path stage.run.session).1 = loaded ∧ stage.TakenFrom path loaded

section

variable {job : Job} {schedule : Schedule} {now : Timestamp} {session : Session}

/-- A job without a failure log ends behind the last stage that it passes, unless its output cannot
be opened. -/
theorem run_cases (unlogged : job.config.errors.logPath = none) (schedule : Schedule)
    (now : Timestamp) (session : Session) :
    ((job.openOutput session).1 = none ∧
        (job.run schedule now session).2.session = (job.openOutput session).2) ∨
      ∃ result last, job.Passes schedule now session (.done result last) ∧
        job.run schedule now session = job.ended result last := by
  unfold run
  rcases opened : job.openOutput session with ⟨_ | output, after⟩
  · exact .inl ⟨rfl, rfl⟩
  · have begins := job.begins_of_no_log unlogged now output after
    obtain ⟨moves, reached⟩ := job.stage_importSources schedule _ job.config.source.paths
    exact .inr ⟨_, _, ⟨output, after, _, moves, opened, begins, reached⟩,
      runWith_of_begins begins schedule⟩

theorem takenFrom_leave (path : String) (loaded : Except StorageError Bytes) (run : Run)
    (paths : List String) : (Stage.leave run paths).TakenFrom path loaded := by
  unfold Stage.leave
  split <;> trivial

/-- What is taken up from the path is what is loaded there. -/
theorem takenFrom_move {path : String} {loaded : Except StorageError Bytes} {stage : Stage}
    (imports : stage.Imports path loaded) : (job.move schedule stage).TakenFrom path loaded := by
  obtain ⟨same, taken⟩ := imports
  cases stage with
  | between run paths =>
      cases paths with
      | nil => trivial
      | cons next more =>
          unfold move takeUp
          simp only
          split
          · trivial
          · rcases prepared : job.prepare next (run.ask schedule).2.session with
              ⟨_ | _ | source, after⟩
            · trivial
            · trivial
            · obtain ⟨data, read, found⟩ := prepare_some (congrArg Prod.fst prepared)
              obtain ⟨_, -, rfl⟩ := Source.prepare_ok found
              simp only [Stage.enter]
              split
              · exact takenFrom_leave ..
              · rintro rfl
                exact same.symm.trans read
  | within run source before flight more =>
      unfold move
      simp only
      split
      · exact taken
      · rename_i result after _
        cases result with
        | error e => trivial
        | ok => exact takenFrom_leave ..
  | done => trivial

end

end Job

/-! ## The file of the output -/

/-- Where documents go on disk, unless they go to standard output. -/
def OutputConfig.place? (config : OutputConfig) (store : Store) : Option DiskPath :=
  if config.isStandard then none else some (store.placeOf config.path)

/-- The file that documents go to is hidden.  A directory in its place is not: then there is no such
file. -/
def OutputConfig.hidden (config : OutputConfig) (store : Store) : Hidden where
  file place := config.place? store = some place ∧ store.disk.get? place ≠ some .directory
  object _ := False

namespace Job

section

variable {job : Job} {schedule : Schedule} {now : Timestamp} {session : Session}

/-- Opening an output empties its file, and makes directories. -/
theorem confined_openOutput (job : Job) (session : Session) :
    let hidden := job.config.output.hidden session.store
    session.store.GrowsBeside hidden (job.openOutput session).2.store ∧
      ∀ output, (job.openOutput session).1 = some output → output.Within hidden ∧
        ∀ place, job.config.output.place? session.store = some place →
          output = .file place [] ∧
            (job.openOutput session).2.store.disk.get? place = some (.file []) := by
  intro hidden
  unfold openOutput
  by_cases standard : job.config.output.isStandard = true
  · rw [if_pos standard]
    refine ⟨Store.GrowsBeside.refl hidden _, fun output opened => ?_⟩
    cases opened
    refine ⟨trivial, fun place found => ?_⟩
    rw [OutputConfig.place?, if_pos standard] at found
    cases found
  · have place : job.config.output.place? session.store =
        some (session.store.placeOf job.config.output.path) := if_neg standard
    rw [if_neg standard]
    have isHidden (noDirectory : session.store.disk.get?
        (session.store.placeOf job.config.output.path) ≠ some .directory) :
        hidden.file (session.store.placeOf job.config.output.path) := ⟨place, noDirectory⟩
    obtain ⟨beside, made⟩ :=
      Output.beside_create? session.store job.config.output.path isHidden
    generalize Output.create? session.store job.config.output.path = created at beside made ⊢
    refine ⟨beside, fun output opened => ?_⟩
    obtain ⟨rfl, hides, empty⟩ := made output opened
    refine ⟨hides, fun other found => ?_⟩
    obtain rfl := Option.some.inj (place.symm.trans found)
    exact ⟨rfl, empty⟩

/-- At every stage a job has kept to the file of its output. -/
theorem Passes.confined (unlogged : job.config.errors.logPath = none) {stage : Stage}
    (passes : job.Passes schedule now session stage) :
    stage.run.Confined (job.config.output.hidden session.store) session.store := by
  obtain ⟨output, opened, start, moves, isOpen, ⟨log, after, begun, rfl⟩, rfl⟩ := passes
  obtain ⟨beside, within⟩ := job.confined_openOutput session
  rw [isOpen] at beside within
  rw [openLog_of_no_log unlogged] at begun
  cases begun
  refine confined_of_kept ((keeps_confined schedule _ _).stage job _ ?_ moves)
  exact ⟨(within output rfl).1, rfl, beside⟩

theorem confined_run (unlogged : job.config.errors.logPath = none) (schedule : Schedule)
    (now : Timestamp) (session : Session) :
    session.store.GrowsBeside (job.config.output.hidden session.store)
      (job.run schedule now session).2.session.store := by
  rcases job.run_cases unlogged schedule now session with ⟨-, same⟩ | ⟨result, last, passes, same⟩
  · rw [same]
    exact (job.confined_openOutput session).1
  · rw [same]
    exact (confined_ended (passes.confined unlogged) job result).store

/-- A source that is read apart from the file of the output is imported as it was before the job. -/
theorem Passes.imports (unlogged : job.config.errors.logPath = none) {path : String}
    (apart : LoadsApart (job.config.output.hidden session.store) session.store.workingDirectory
      path)
    {stage : Stage} (passes : job.Passes schedule now session stage) :
    stage.Imports path (load path session).1 := by
  have same {stage : Stage} (passes : job.Passes schedule now session stage) :
      (load path stage.run.session).1 = (load path session).1 :=
    (load_beside (passes.confined unlogged).store apart).1.symm
  obtain ⟨output, opened, start, moves, isOpen, begins, rfl⟩ := passes
  have passes (moves : Nat) : job.Passes schedule now session
      (job.stage schedule (.between start job.config.source.paths) moves) :=
    ⟨output, opened, start, moves, isOpen, begins, rfl⟩
  refine ⟨same (passes moves), ?_⟩
  induction moves with
  | zero => trivial
  | succ moves ih =>
      rw [stage_succ]
      exact takenFrom_move ⟨same (passes moves), ih⟩

open Location

/-- A job without a failure log changes no file but that of its output, and makes no other, however
it ends.  A source that is there keeps its bytes, unless it is in this file, which is emptied when
the output is opened.  No path with a line feed is looked up.  If this file is not where the source
is looked up either, then at every stage the source is imported as it would have been loaded before
the job; and that is with its own bytes, if its name is its own key. -/
theorem run_sparesFiles {config : Config} (valid : config.validate = .ok ())
    (unlogged : config.errors.logPath = none) {session : Session}
    (isDirectory : IsWorkingDirectory session.store.workingDirectory) :
    ∃ job, ofConfig config = .ok job ∧ ∀ schedule now,
      let store := session.store
      let after := (job.run schedule now session).2.session.store
      let output := config.output.place? store
      (∀ place bytes, output ≠ some place →
        (after.disk.get? place = some (.file bytes) ↔
          store.disk.get? place = some (.file bytes))) ∧
      (∀ place, output = some place → (job.openOutput session).1.isSome →
        (job.openOutput session).2.store.disk.get? place = some (.file [])) ∧
      ∀ path ∈ config.source.paths, IsLocal path → ∀ bytes,
        store.fileAt? (filePath path) = some bytes →
        (output ≠ some (store.placeOf (filePath path)) →
          after.fileAt? (filePath path) = some bytes) ∧
        ('\n' ∉ path.toList → output ≠ some (store.objectPlaceOf (filePath path)) →
          ∀ stage, job.Passes schedule now session stage →
            stage.Imports path (load path session).1) ∧
        ('\n' ∉ path.toList → (∀ name ∈ (store.stepsFrom (filePath path)).getLast?,
            ∀ c ∈ name.toList, Key.standsForItself c = true) →
          store.objectPlaceOf (filePath path) = store.placeOf (filePath path) ∧
            (load path session).1 = .ok bytes) := by
  obtain ⟨job, configured⟩ := config.job_of_validate valid
  obtain ⟨rfl, -⟩ := ofConfig_ok configured
  refine ⟨job, configured, fun schedule now => ?_⟩
  intro store after output
  have grows := job.confined_run unlogged schedule now session
  have noDirectory (place : DiskPath) (isHidden : (job.config.output.hidden store).file place) :
      store.disk.get? place ≠ some .directory := isHidden.2
  refine ⟨fun place bytes other => ?files, fun place isOutput opened => ?emptied,
    fun path _ isLocal bytes file => ⟨fun other => ?kept,
      fun free other stage passes => ?imported,
      fun free => load_of_fileAt? isDirectory free isLocal file⟩⟩
  case files =>
    have seen : ¬(job.config.output.hidden store).file place := fun isHidden => other isHidden.1
    exact ⟨grows.disk.made seen, grows.disk.kept seen⟩
  case emptied =>
    obtain ⟨target, same⟩ := Option.isSome_iff_exists.mp opened
    exact (((job.confined_openOutput session).2 target same).2 place isOutput).2
  case kept =>
    exact grows.fileAt? noDirectory (fun isHidden => other isHidden.1) file
  case imported =>
    refine passes.imports unlogged ?_
    refine loadsApart_of_fileAt? isDirectory free isLocal file noDirectory ?_
    exact fun isHidden => other isHidden.1

/-- A file beside the output keeps its bytes, however both are spelled. -/
theorem run_sparesFiles_sameDirectory :
    let config : Config := {
      source := { paths := ["file:///in/rows.csv"] }
      output := { path := "../in/rows.ndjson" } }
    let disk : Disk := ⟨[(["in"], .directory), (["in", "rows.csv"], .file [97, 10, 49, 10])]⟩
    let session : Session := { store := { disk, workingDirectory := "/in" } }
    let path := "file:///in/rows.csv"
    config.validate = .ok () ∧ config.errors.logPath = none ∧
      IsWorkingDirectory session.store.workingDirectory ∧ '\n' ∉ path.toList ∧ IsLocal path ∧
      session.store.fileAt? (filePath path) = some [97, 10, 49, 10] ∧
      config.output.place? session.store = some ["in", "rows.ndjson"] ∧
      ∃ job, ofConfig config = .ok job ∧ (job.openOutput session).1.isSome ∧
        (job.run {} {} session).2.session.store.fileAt? (filePath path) =
          some [97, 10, 49, 10] ∧
        ∀ stage, job.Passes {} {} session stage →
          stage.Imports path (.ok [97, 10, 49, 10]) := by
  intro config disk session path
  have valid : config.validate = .ok () := by decide
  have isDirectory : IsWorkingDirectory session.store.workingDirectory := by
    constructor <;> decide
  have free : '\n' ∉ path.toList := by decide
  have isLocal : IsLocal path := .inl (by decide)
  have file : session.store.fileAt? (filePath path) = some [97, 10, 49, 10] := by decide
  have place : config.output.place? session.store = some ["in", "rows.ndjson"] := by decide
  have steps : session.store.stepsFrom (filePath path) = ["in", "rows.csv"] := by decide
  have source : session.store.placeOf (filePath path) = ["in", "rows.csv"] := by
    rw [Store.placeOf, steps]
    rfl
  have other : config.output.place? session.store ≠
      some (session.store.placeOf (filePath path)) := by
    rw [place, source]
    decide
  obtain ⟨job, configured, spares⟩ := run_sparesFiles valid rfl isDirectory
  obtain ⟨-, -, sources⟩ := spares {} {}
  obtain ⟨kept, imported, named⟩ := sources path (List.mem_singleton_self _) isLocal _ file
  obtain ⟨object, loaded⟩ := named free (by
    rw [steps]
    rintro name ⟨⟩
    exact List.all_eq_true.mp (by decide))
  rw [object, loaded] at imported
  have opened : (job.openOutput session).1.isSome := by
    unfold openOutput
    rw [(ofConfig_ok configured).1]
    decide
  exact ⟨valid, rfl, isDirectory, free, isLocal, file, place, job, configured, opened, kept other,
    imported free other⟩

/-! ## Sources that are outputs -/

/-- The end of a job with a file passes on what is left for the file. -/
theorem ended_file (job : Job) {run : Run} {place : DiskPath} {buffered : Bytes}
    (isFile : run.output = .file place buffered) (unlogged : run.tracker.log = none) :
    ∃ after, job.ended (.ok ()) run =
        (.ok { run.summary with failures := run.tracker.failures }, after) ∧
      after.session.store = (Output.appendIn run.session place buffered).store := by
  have delivered : job.deliver (.ok ()) run =
      (.ok (), { run with
        output := .file place []
        session := Output.appendIn run.session place buffered }) := by
    unfold deliver
    rw [isFile]
    rfl
  have closed : closeLog (.ok ()) (job.deliver (.ok ()) run).2 = (job.deliver (.ok ()) run).2 := by
    rw [delivered]
    simp only [closeLog]
    rw [FailureTracker.finalizeLog_of_no_log _ _ unlogged]
  unfold ended
  rw [delivered] at closed ⊢
  rw [closed]
  exact ⟨_, rfl, rfl⟩

/-- An empty source is read, and left at once. -/
theorem importSources_emptySource {run : Run} {path : String}
    (goesOn : (run.ask schedule).2.stopping = false)
    (empty : (job.prepare path run.session).1 = .ok none) :
    ∃ after, job.importSources schedule run [path] = (.ok (), after) ∧
      after.output = run.output ∧ after.tracker = run.tracker ∧
      after.session.store = (load path run.session).2.store ∧
      after.summary = { run.summary with emptySources := run.summary.emptySources + 1 } := by
  have store := job.store_prepare path run.session
  have asked : (run.ask schedule).2.session = run.session := rfl
  unfold importSources
  simp only
  rw [if_neg (Bool.eq_false_iff.mp goesOn), asked]
  generalize job.prepare path run.session = prepared at empty store ⊢
  obtain ⟨_, session⟩ := prepared
  cases empty
  exact ⟨_, rfl, rfl, rfl, store, rfl⟩

/-- A job whose only source holds no bytes succeeds, and adds nothing to its file. -/
theorem runWith_noBytes {job : Job} (unlogged : job.config.errors.logPath = none)
    (headless : job.header = none) {path : String} (only : job.config.source.paths = [path])
    {session : Session} (loaded : (load path session).1 = .ok []) {schedule : Schedule}
    (goesOn : schedule.stops 0 0 = false) (now : Timestamp) {place : DiskPath}
    (vacant : session.store.disk.get? place = some (.file [])) :
    ∃ run, job.runWith schedule now (.file place []) session = (.ok { emptySources := 1 }, run) ∧
      run.session.store.disk.get? place = some (.file []) := by
  let start : Run := {
    output := .file place []
    session := session.tell .job .info job.startNotice
    tracker := { limit := job.config.errors.maxFailures } }
  have begins : job.Begins now (.file place []) session start :=
    job.begins_of_no_log unlogged now _ session
  have grows : session.store.Grows start.session.store := Store.Grows.refl session.store
  have again : (load path start.session).1 = .ok [] := (load_of_grows grows path).trans loaded
  have prepared : (job.prepare path start.session).1 = .ok none := by
    rw [(job.prepare_of_load again).1, headless,
      Source.prepare_none_iff.mpr ⟨rfl, Source.isEmpty_nil _⟩]
    rfl
  have asked : (start.ask schedule).2.stopping = false := goesOn
  obtain ⟨last, imported, isFile, tracker, store, summary⟩ :=
    importSources_emptySource asked prepared
  have kept : last.session.store.disk.get? place = some (.file []) := by
    rw [store]
    exact (grows_load path start.session).disk.kept vacant
  obtain ⟨after, ends, flushed⟩ := job.ended_file isFile (congrArg (·.log) tracker)
  rw [runWith_of_begins begins, only, imported, ends, summary, tracker]
  refine ⟨after, rfl, ?_⟩
  rw [flushed]
  exact Output.get?_append kept []

/-- A job without a header that imports a file to itself loses it.  The file is emptied, no record
is found in it, and the job succeeds. -/
theorem run_losesSource {job : Job} (unlogged : job.config.errors.logPath = none)
    (headless : job.header = none) {path : String} (only : job.config.source.paths = [path])
    {session : Session} (isDirectory : IsWorkingDirectory session.store.workingDirectory)
    (free : '\n' ∉ path.toList) (isLocal : IsLocal path) {bytes : Bytes}
    (file : session.store.fileAt? (filePath path) = some bytes)
    (plain : ∀ name ∈ (session.store.stepsFrom (filePath path)).getLast?,
      ∀ c ∈ name.toList, Key.standsForItself c = true)
    (itself : job.config.output.place? session.store =
      some (session.store.placeOf (filePath path)))
    (opens : (job.openOutput session).1.isSome) {schedule : Schedule}
    (goesOn : schedule.stops 0 0 = false) (now : Timestamp) :
    ∃ run, job.run schedule now session = (.ok { emptySources := 1 }, run) ∧
      run.session.store.fileAt? (filePath path) = some [] := by
  obtain ⟨output, opened⟩ := Option.isSome_iff_exists.mp opens
  obtain ⟨grows, emptied⟩ := job.confined_openOutput session
  obtain ⟨rfl, vacant⟩ := (emptied output opened).2 _ itself
  have reads {store : Store}
      (grows : session.store.GrowsBeside (job.config.output.hidden session.store) store)
      (stands : store.disk.get? (session.store.placeOf (filePath path)) = some (.file [])) :
      store.fileAt? (filePath path) = some [] :=
    Store.fileAt?_of_passes file grows.workingDirectory
      (fun _ _ => grows.directory fun _ isHidden => isHidden.2) stands
  have loaded : (load path (job.openOutput session).2).1 = .ok [] := by
    refine (load_of_fileAt? ?_ free isLocal (reads grows vacant) ?_).2
    · rwa [grows.workingDirectory]
    · unfold Store.stepsFrom
      rwa [grows.workingDirectory]
  obtain ⟨run, ran, empty⟩ := runWith_noBytes unlogged headless only loaded goesOn now vacant
  have whole : job.run schedule now session = (.ok { emptySources := 1 }, run) := by
    rw [← ran]
    unfold Job.run
    rw [show job.openOutput session = (some _, (job.openOutput session).2) from
      Prod.ext opened rfl]
  have beside := job.confined_run unlogged schedule now session
  rw [whole] at beside
  exact ⟨run, whole, reads beside empty⟩

/-- A relative path and the same path behind a dot. -/
theorem run_emptiesSource :
    let config : Config := { source := { paths := ["in.csv"] }, output := { path := "./in.csv" } }
    let session : Session := { store := { disk := ⟨[(["in.csv"], .file [97, 10, 49, 10])]⟩ } }
    config.validate = .ok () ∧ config.errors.logPath = none ∧
      IsWorkingDirectory session.store.workingDirectory ∧ IsLocal "in.csv" ∧
      session.store.fileAt? (filePath "in.csv") = some [97, 10, 49, 10] ∧
      ∃ job run, ofConfig config = .ok job ∧
        job.run {} {} session = (.ok { emptySources := 1 }, run) ∧
        run.session.store.fileAt? (filePath "in.csv") = some [] := by
  intro config session
  let job : Job := { config, dialect := {}, header := none }
  have configured : ofConfig config = .ok job := by decide +kernel
  have isDirectory : IsWorkingDirectory session.store.workingDirectory := by
    constructor <;> decide
  have isLocal : IsLocal "in.csv" := .inr (.inr (by decide))
  have file : session.store.fileAt? (filePath "in.csv") = some [97, 10, 49, 10] := by decide
  have steps : session.store.stepsFrom (filePath "in.csv") = ["in.csv"] := by decide
  have plain : ∀ name ∈ (session.store.stepsFrom (filePath "in.csv")).getLast?,
      ∀ c ∈ name.toList, Key.standsForItself c = true := by
    rw [steps]
    rintro name ⟨⟩
    exact List.all_eq_true.mp (by decide)
  have itself : job.config.output.place? session.store =
      some (session.store.placeOf (filePath "in.csv")) := by
    rw [Store.placeOf, steps]
    decide
  have opens : (job.openOutput session).1.isSome := by decide
  have goesOn : Schedule.stops {} 0 0 = false := rfl
  obtain ⟨run, ran, emptied⟩ :=
    run_losesSource rfl rfl rfl isDirectory (by decide) isLocal file plain itself opens goesOn {}
  exact ⟨by decide, rfl, isDirectory, isLocal, file, job, run, configured, ran, emptied⟩

end

end Job

end CsvImport

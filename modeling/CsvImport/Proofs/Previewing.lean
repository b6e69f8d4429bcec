import CsvImport.Command.Preview
import CsvImport.Proofs.Completing
import CsvImport.Proofs.Keeping

/-!
# Previews

A preview and a job prepare the same sources in the same order.  A preview therefore tells
the chunks that the job will account for, and fails where the job will be aborted.
-/

namespace CsvImport

/-- A configuration that is not refused makes a job. -/
theorem Config.job_of_validate {config : Config} (valid : config.validate = .ok ()) :
    ∃ job, Job.ofConfig config = .ok job := by
  unfold validate at valid
  simp only [bind, Except.bind] at valid
  -- Of the entries outside the dialect and the header, five can be refused.
  iterate 5
    split at valid
    · cases valid
  cases dialect : config.csv.dialect with
  | error e =>
      rw [dialect] at valid
      cases valid
  | ok d =>
      cases configured : config.csv.configuredHeader with
      | error e =>
          rw [dialect, configured] at valid
          cases valid
      | ok header =>
          refine ⟨{ config, dialect := d, header }, ?_⟩
          unfold Job.ofConfig
          rw [dialect, configured]
          rfl

/-! ## What a preview tells -/

namespace Session

/-- The notices of the command itself, last first. -/
def commands (session : Session) : List Notice :=
  session.notices.filter fun notice => notice.topic == .command

theorem commands_tell_command (session : Session) (level : NoticeLevel) (text : String) :
    (session.tell .command level text).commands = ⟨.command, level, text⟩ :: session.commands :=
  rfl

end Session

namespace Source

def listing (source : Source) : List Notice :=
  ⟨.command, .info, source.overview⟩ :: source.chunks.map fun chunk =>
    ⟨.command, .info,
      "  - " ++ chunk.id.text ++ " (first line " ++ toString chunk.firstLine ++ ")"⟩

theorem commands_announce (source : Source) (session : Session) :
    (source.announce session).commands = source.listing.reverse ++ session.commands := by
  unfold announce listing
  rw [List.reverse_cons, List.append_assoc, List.singleton_append,
    ← Session.commands_tell_command]
  generalize session.tell .command .info source.overview = told
  induction source.chunks generalizing told with
  | nil => rfl
  | cons chunk more ih =>
      rw [List.foldl_cons, ih, List.map_cons, List.reverse_cons, List.append_assoc]
      rfl

theorem store_announce (source : Source) (session : Session) :
    (source.announce session).store = session.store := by
  unfold announce
  generalize hasTold : session.tell .command .info source.overview = told
  have same : told.store = session.store := by rw [← hasTold]; rfl
  rw [← same]
  clear hasTold same
  induction source.chunks generalizing told with
  | nil => rfl
  | cons chunk more ih => exact ih _

end Source

namespace Job

def listingOf (path : String) : Option Source → List Notice
  | none => [⟨.command, .info, path ++ ": empty source"⟩]
  | some source => source.listing

def listing (job : Job) (session : Session) (path : String) : List Notice :=
  listingOf path (job.sourceAt? job.config.source.chunkSize session path)

section

variable {job : Job} {session later : Session}

theorem readable_of_prepare {path : String} {found : Option Source}
    (prepared : (job.prepare path session).1 = .ok found) :
    job.Readable session path ∧
      job.sourceAt? job.config.source.chunkSize session path = found := by
  cases loaded : (load path session).1 with
  | error e =>
      unfold prepare at prepared
      rcases read : load path session with ⟨result, after⟩
      rw [read] at loaded prepared
      cases loaded
      cases prepared
  | ok data =>
      rw [(job.prepare_of_load loaded).1] at prepared
      rw [sourceAt?_of_load loaded]
      cases split : Source.split job.dialect job.header data with
      | error e =>
          unfold Source.prepare at prepared
          rw [split] at prepared
          cases prepared
      | ok header =>
          refine ⟨⟨data, header, loaded, split⟩, ?_⟩
          cases planned : Source.prepare job.dialect job.header job.config.source.chunkSize path
              data with
          | error e =>
              rw [planned] at prepared
              cases prepared
          | ok planned =>
              rw [planned] at prepared
              cases prepared
              rfl

theorem commands_prepare (job : Job) (path : String) (session : Session) :
    (job.prepare path session).2.commands = session.commands :=
  prepare_kept Session.commands (fun _ _ => rfl) (fun _ _ => rfl) (fun _ _ => rfl) job path
    session

theorem previewSources_cons {path : String} {found : Option Source} {after : Session}
    (prepared : job.prepare path session = (.ok found, after)) (more : List String) :
    ∃ told, job.previewSources session (path :: more) = job.previewSources told more ∧
      told.store = after.store ∧
      told.commands = (listingOf path found).reverse ++ session.commands := by
  have quiet := job.commands_prepare path session
  rw [prepared] at quiet
  rw [previewSources, prepared, ← quiet]
  cases found with
  | none => exact ⟨_, rfl, rfl, rfl⟩
  | some source => exact ⟨_, rfl, source.store_announce after, source.commands_announce after⟩

theorem grows_previewSources (job : Job) (paths : List String) (session : Session) :
    session.store.Grows (job.previewSources session paths).2.store := by
  induction paths generalizing session with
  | nil => exact Store.Grows.refl _
  | cons path more ih =>
      have grown := (job.prepare_of_grows (Store.Grows.refl session.store) path).2
      rcases prepared : job.prepare path session with ⟨e | found, after⟩ <;>
        rw [prepared] at grown
      · rw [previewSources, prepared]
        exact grown
      · obtain ⟨told, goesOn, store, -⟩ := previewSources_cons prepared more
        rw [goesOn]
        exact grown.trans (store ▸ ih told)

/-- A preview that succeeds has found every source readable and has told all of them. -/
theorem previewSources_ok (job : Job) {paths : List String}
    (grows : session.store.Grows later.store)
    (fine : (job.previewSources later paths).1 = .ok ()) :
    (∀ path ∈ paths, job.Readable session path) ∧
      (job.previewSources later paths).2.commands =
        (paths.flatMap (job.listing session)).reverse ++ later.commands := by
  induction paths generalizing later with
  | nil => exact ⟨List.forall_mem_nil _, rfl⟩
  | cons path more ih =>
      obtain ⟨same, grown⟩ := job.prepare_of_grows grows path
      rcases prepared : job.prepare path later with ⟨e | found, after⟩
      · rw [previewSources, prepared] at fine
        cases fine
      · rw [prepared] at same grown
        obtain ⟨readable, rfl⟩ := readable_of_prepare same.symm
        obtain ⟨told, goesOn, store, commands⟩ := previewSources_cons prepared more
        rw [goesOn] at fine ⊢
        obtain ⟨readables, all⟩ := ih (store ▸ grown) fine
        refine ⟨List.forall_mem_cons.mpr ⟨readable, readables⟩, ?_⟩
        rw [all, commands, List.flatMap_cons, List.reverse_append, List.append_assoc]
        rfl

/-- A preview that fails does so at the first source that cannot be prepared. -/
theorem previewSources_error (job : Job) {paths : List String}
    (grows : session.store.Grows later.store) {cause : FatalError}
    (failed : (job.previewSources later paths).1 = .error cause) :
    ∃ earlier path more, paths = earlier ++ path :: more ∧
      (∀ other ∈ earlier, job.Readable session other) ∧
      (job.prepare path session).1 = .error cause := by
  induction paths generalizing later with
  | nil => cases failed
  | cons path more ih =>
      obtain ⟨same, grown⟩ := job.prepare_of_grows grows path
      rcases prepared : job.prepare path later with ⟨e | found, after⟩
      · rw [previewSources, prepared] at failed
        rw [prepared] at same
        cases failed
        exact ⟨[], path, more, rfl, List.forall_mem_nil _, same.symm⟩
      · rw [prepared] at same grown
        obtain ⟨readable, rfl⟩ := readable_of_prepare same.symm
        obtain ⟨told, goesOn, store, -⟩ := previewSources_cons prepared more
        rw [goesOn] at failed
        obtain ⟨earlier, other, behind, rfl, readables, stops⟩ := ih (store ▸ grown) failed
        exact ⟨path :: earlier, other, behind, rfl,
          List.forall_mem_cons.mpr ⟨readable, readables⟩, stops⟩

/-! ## What the job does -/

/-- An import that comes to the end of some sources goes on with the others. -/
theorem importSources_append {schedule : Schedule} {run : Run} {earlier : List String}
    (fine : (job.importSources schedule run earlier).1 = .ok ())
    (whole : (job.importSources schedule run earlier).2.summary.cancelled = false)
    (more : List String) :
    job.importSources schedule run (earlier ++ more) =
      job.importSources schedule (job.importSources schedule run earlier).2 more := by
  induction earlier generalizing run with
  | nil => rfl
  | cons path earlier ih =>
      rw [List.cons_append]
      simp only [importSources] at fine whole ⊢
      generalize (run.ask schedule).2 = now at fine whole ⊢
      by_cases stopped : now.stopping = true
      · rw [if_pos stopped] at whole
        cases whole
      · simp only [if_neg stopped] at fine whole ⊢
        rcases prepared : job.prepare path now.session with ⟨_ | _ | source, session⟩ <;>
          simp only [prepared] at fine whole ⊢
        · cases fine
        · exact ih fine whole
        · rcases imported : job.importSource schedule source { now with session } with
            ⟨_ | _, after⟩ <;> simp only [imported] at fine whole ⊢
          · cases fine
          · by_cases cancelled : after.summary.cancelled = true
            · rw [if_pos cancelled, cancelled] at whole
              cases whole
            · simp only [if_neg cancelled] at fine whole ⊢
              exact ih fine whole

/-- A source that cannot be prepared stops an import to which nothing else happens. -/
theorem importSources_of_error {schedule : Schedule} (calm : schedule.Calm) {run : Run}
    (going : run.stopping = false) {path : String} {cause : FatalError}
    (failed : (job.prepare path run.session).1 = .error cause) (more : List String) :
    ∃ session, job.importSources schedule run (path :: more) =
      (.error cause, { (run.ask schedule).2 with session }) := by
  have still := ((run.asks_ask schedule).stopping calm).trans going
  change (job.prepare path (run.ask schedule).2.session).1 = _ at failed
  simp only [importSources, still, Bool.false_eq_true, ↓reduceIte]
  rcases prepared : job.prepare path (run.ask schedule).2.session with ⟨result, session⟩
  rw [prepared] at failed
  cases failed
  exact ⟨session, rfl⟩

theorem Readable.of_grows {path : String} (readable : job.Readable session path)
    (grows : session.store.Grows later.store) : job.Readable later path := by
  obtain ⟨data, found, loaded, split⟩ := readable
  exact ⟨data, found, (load_of_grows grows path).trans loaded, split⟩

theorem sourcesAt_of_grows (job : Job) (grows : session.store.Grows later.store) (chunkSize : Nat)
    (paths : List String) : job.sourcesAt chunkSize later paths =
      job.sourcesAt chunkSize session paths := by
  refine List.filterMap_congr fun path _ => ?_
  unfold sourceAt?
  rw [load_of_grows grows]

def chunksAt (job : Job) (session : Session) (paths : List String) : List Chunk :=
  (job.sourcesAt job.config.source.chunkSize session paths).flatMap (·.chunks)

theorem snd_parts (sources : List Source) :
    (Source.parts sources).map Prod.snd = sources.flatMap (·.chunks) := by
  unfold Source.parts
  rw [List.map_flatMap]
  refine List.flatMap_congr fun source _ => ?_
  rw [List.map_map]
  exact List.map_id _

/-- A job that nothing stops accounts for every chunk of its sources. -/
theorem Begins.accounts {now : Timestamp} {s : Sink} {start : Run}
    (begins : job.Begins now (.sink s) session start)
    (positive : 0 < job.config.source.maxConcurrent) (unlimited : job.config.errors.maxFailures = 0)
    (unlogged : job.config.errors.logPath = none)
    (readable : ∀ path ∈ job.config.source.paths, job.Readable session path)
    (accepting : s.Accepting) {schedule : Schedule} (calm : schedule.Calm) :
    let listed := job.chunksAt session job.config.source.paths
    ∃ summary run, job.runWith schedule now (.sink s) session = (.ok summary, run) ∧
      summary.chunksSucceeded + summary.chunksFailed = listed.length ∧
      ∀ failure ∈ summary.failures, ∃ chunk ∈ listed, failure.chunk = chunk.id := by
  intro listed
  obtain ⟨gain, summary, run, last, ran, _, _, covers, completes⟩ :=
    begins.completes positive readable (fun _ _ => .inl ⟨unlimited, unlogged⟩) accepting calm
  have same := snd_parts
    (job.sourcesAt job.config.source.chunkSize session job.config.source.paths)
  refine ⟨summary, run, ran, ?_, fun failure member => ?_⟩
  · rw [covers.succeeded, covers.failed, completes.total, ← List.length_map Prod.snd, same]
    rfl
  · have recorded := completes.failures.subset (covers.failures.subset member)
    obtain ⟨part, inside, failed⟩ := List.mem_filterMap.mp recorded
    have inListed : part.2 ∈ listed := by
      have member := List.mem_map_of_mem (f := Prod.snd) inside
      rwa [same] at member
    refine ⟨part.2, inListed, ?_⟩
    unfold partFailure? failure? at failed
    split at failed
    · cases failed
    · cases failed
      rfl

/-- A job whose first source that cannot be prepared stands behind others imports those and
is aborted. -/
theorem Begins.stops {now : Timestamp} {s : Sink} {start : Run}
    (begins : job.Begins now (.sink s) session start)
    (positive : 0 < job.config.source.maxConcurrent) (unlimited : job.config.errors.maxFailures = 0)
    (unlogged : job.config.errors.logPath = none) {earlier more : List String} {path : String}
    (order : job.config.source.paths = earlier ++ path :: more)
    (readable : ∀ other ∈ earlier, job.Readable session other) {cause : FatalError}
    (failed : (job.prepare path session).1 = .error cause)
    (accepting : s.Accepting) {schedule : Schedule} (calm : schedule.Calm) :
    let sources := job.sourcesAt job.config.source.chunkSize session earlier
    let parts := Source.parts sources
    ∃ summary run last,
      job.runWith schedule now (.sink s) session = (.error (.aborted cause summary), run) ∧
        run.output = .sink last ∧
        last.contents = s.contents ++ (parts.filterMap job.partOutput?).flatMap (·.bytes) ∧
        summary.Covers (parts.filterMap job.partOutput?) (parts.filterMap job.partFailure?) ∧
        summary.sources = sources.length ∧
        summary.sources + summary.emptySources = earlier.length := by
  intro sources parts
  have finishes := begins.finishes positive readable (fun _ _ => .inl ⟨unlimited, unlogged⟩)
    accepting calm
  obtain ⟨isSink, fresh, none⟩ := begins.fresh
  obtain ⟨grown, undisturbed, grows⟩ := finishes.undisturbed
  obtain ⟨gain, gains, completes⟩ := finishes.completes
  have counted := finishes.sources
  have empty := finishes.emptySources
  rw [fresh] at counted empty
  have imports := importSources_append finishes.fine undisturbed.whole (path :: more)
  rw [← order] at imports
  have ran := runWith_of_begins begins schedule
  rw [imports] at ran
  generalize (job.importSources schedule start earlier).2 = imported
    at undisturbed gains counted empty ran
  have again := (job.prepare_of_grows (undisturbed.store ▸ grows) path).1.trans failed
  obtain ⟨after, stopped⟩ := importSources_of_error calm undisturbed.going again more
  rw [stopped] at ran
  cases isLast : imported.output with
  | file path buffered =>
      have same := gains.isSink
      rw [isLast, isSink] at same
      cases same
  | sink last =>
      have holds := gains.holds (.inl (by rw [isSink]; rfl)) s.contents
        (by rw [isSink]; exact .sink)
      rw [isLast, Gain.bytes, completes.whole, List.append_nil, completes.outputs] at holds
      have covers := gains.covers fresh none
      rw [completes.outputs] at covers
      let aborted : Run := { (imported.ask schedule).2 with session := after }
      have still : aborted.output = .sink last := isLast
      obtain ⟨ended, output, ends⟩ := job.ended_sink (.error cause) still
      rw [ends] at ran
      refine ⟨_, ended, _, ran, output, holds.contents_eq, ?_, ?_, ?_⟩
      · exact { covers with
          failed := covers.failed.trans completes.failures.length_eq
          failures := covers.failures.trans completes.failures }
      · exact counted.trans (Nat.zero_add _)
      · change imported.summary.sources + imported.summary.emptySources = earlier.length
        rw [counted, Nat.zero_add, Nat.add_comm, empty, Nat.zero_add]

end

theorem grows_preview (config : Config) (session : Session) :
    session.store.Grows (config.preview session).2.store := by
  have announced : session.store.Grows (config.announce session).store := Store.Grows.refl _
  unfold Config.preview
  cases ofConfig config with
  | error e => exact announced
  | ok job =>
      have told := job.grows_previewSources config.source.paths (config.announce session)
      simp only
      rcases previewed : job.previewSources (config.announce session) config.source.paths with
        ⟨_ | _, after⟩ <;> rw [previewed] at told
      · exact announced.trans told
      · exact announced.trans told

/-- What a preview says of the sources of a configuration is what a job with nothing in its
way does.  If all of them can be prepared, then the job accounts for every chunk that was told;
otherwise it imports the sources in front of the first one that cannot be prepared, and is
aborted by the same error.  Until the job begins, directories may have been made. -/
theorem preview_foretells {config : Config} (valid : config.validate = .ok ())
    (unlimited : config.errors.maxFailures = 0) (unlogged : config.errors.logPath = none)
    {session later : Session} (grows : session.store.Grows later.store) {s : Sink}
    (accepting : s.Accepting) {schedule : Schedule} (calm : schedule.Calm) (now : Timestamp) :
    ∃ job, ofConfig config = .ok job ∧
      match (config.preview session).1 with
      | .ok () =>
          let listed := job.chunksAt session config.source.paths
          (config.preview session).2.commands =
              ⟨.command, .info, "Configuration is valid"⟩ ::
                ((config.source.paths.flatMap (job.listing session)).reverse ++
                  (config.announce session).commands) ∧
            ∃ summary run, job.runWith schedule now (.sink s) later = (.ok summary, run) ∧
              summary.chunksSucceeded + summary.chunksFailed = listed.length ∧
              ∀ failure ∈ summary.failures, ∃ chunk ∈ listed, failure.chunk = chunk.id
      | .error (.fatal cause) =>
          ∃ earlier path more, config.source.paths = earlier ++ path :: more ∧
            ((∃ source, cause = .sourceRead path source) ∨ ∃ source, cause = .header path source) ∧
            let sources := job.sourcesAt config.source.chunkSize session earlier
            let parts := Source.parts sources
            ∃ summary run last,
              job.runWith schedule now (.sink s) later = (.error (.aborted cause summary), run) ∧
                run.output = .sink last ∧
                last.contents =
                  s.contents ++ (parts.filterMap job.partOutput?).flatMap (·.bytes) ∧
                summary.Covers (parts.filterMap job.partOutput?)
                  (parts.filterMap job.partFailure?) ∧
                summary.sources = sources.length ∧
                summary.sources + summary.emptySources = earlier.length
      | .error _ => False := by
  obtain ⟨job, configured⟩ := config.job_of_validate valid
  obtain ⟨rfl, _⟩ := ofConfig_ok configured
  have positive := Config.maxConcurrent_pos valid
  have begins : job.Begins now (.sink s) later _ := ⟨none, _, openLog_of_no_log unlogged now _, rfl⟩
  have announced : session.store.Grows (job.config.announce session).store := Store.Grows.refl _
  refine ⟨job, configured, ?_⟩
  unfold Config.preview
  rw [configured]
  simp only
  rcases previewed : job.previewSources (job.config.announce session) job.config.source.paths with
    ⟨cause | _, after⟩
  · obtain ⟨earlier, path, more, order, readable, failed⟩ :=
      job.previewSources_error announced (congrArg Prod.fst previewed)
    have again := (job.prepare_of_grows grows path).1.trans failed
    have stops := begins.stops positive unlimited unlogged order
      (fun other member => (readable other member).of_grows grows) again accepting calm
    rw [job.sourcesAt_of_grows grows] at stops
    refine ⟨earlier, path, more, order, ?_, stops⟩
    exact prepare_error_cases (Prod.ext failed rfl)
  · obtain ⟨readable, told⟩ := job.previewSources_ok announced (congrArg Prod.fst previewed)
    have accounts := begins.accounts positive unlimited unlogged
      (fun path member => (readable path member).of_grows grows) accepting calm
    unfold chunksAt at accounts
    rw [job.sourcesAt_of_grows grows] at accounts
    refine ⟨?_, accounts⟩
    rw [previewed] at told
    rw [Session.commands_tell_command, told]

/-- The second source is not there. -/
theorem preview_foretells_missingSource :
    let config : Config := {
      source := { paths := ["memory://rows.csv", "memory://more.csv"], chunkSize := 1 } }
    let job : Job := { config, dialect := {}, header := none }
    let session : Session := {
      store := { memory := [(⟨["rows.csv"]⟩, [97, 10, 49, 10, 50, 10])] } }
    let later := (config.preview session).2
    config.validate = .ok () ∧ config.errors.maxFailures = 0 ∧ config.errors.logPath = none ∧
      session.store.Grows later.store ∧ Sink.Accepting {} ∧ Schedule.Calm {} ∧
      ∃ source summary run last,
        (config.preview session).1 = .error (.fatal (.sourceRead "memory://more.csv" source)) ∧
          job.runWith {} {} (.sink {}) later =
            (.error (.aborted (.sourceRead "memory://more.csv" source) summary), run) ∧
          run.output = .sink last ∧ summary.sources = 1 ∧ summary.chunksSucceeded = 2 ∧
          last.contents = [123, 34, 97, 34, 58, 34, 49, 34, 125, 10,
            123, 34, 97, 34, 58, 34, 50, 34, 125, 10] := by
  intro config job session later
  have valid : config.validate = .ok () := by decide
  have calm : Schedule.Calm {} := ⟨fun _ _ => rfl, fun _ => rfl⟩
  have grows : session.store.Grows later.store := grows_preview config session
  have found : (job.sourcesAt 1 session ["memory://rows.csv"]).length = 1 := by decide +kernel
  have outputs : (Source.parts (job.sourcesAt 1 session ["memory://rows.csv"])).filterMap
      job.partOutput? =
        [⟨[123, 34, 97, 34, 58, 34, 49, 34, 125, 10], ⟨1, 0⟩⟩,
          ⟨[123, 34, 97, 34, 58, 34, 50, 34, 125, 10], ⟨1, 0⟩⟩] := by decide +kernel
  obtain ⟨made, configured, foretold⟩ :=
    preview_foretells valid rfl rfl grows Sink.accepting_default calm {}
  obtain rfl : job = made := by
    have same : ofConfig config = .ok job := by decide +kernel
    exact Except.ok.inj (same.symm.trans configured)
  have failed : (config.preview session).1 =
      .error (.fatal (.sourceRead "memory://more.csv" (.object true))) := by decide +kernel
  rw [failed] at foretold
  obtain ⟨earlier, path, more, order, kind, summary, run, last, ran, output, contents, covers,
    sources, -⟩ := foretold
  obtain rfl : path = "memory://more.csv" := by
    rcases kind with ⟨_, same⟩ | ⟨_, same⟩
    · cases same
      rfl
    · cases same
  obtain rfl : earlier = ["memory://rows.csv"] := by
    rcases earlier with _ | ⟨first, _ | ⟨second, rest⟩⟩
    · exact absurd (List.cons.inj order).1 (by decide)
    · exact congrArg (· :: []) (List.cons.inj order).1.symm
    · have long : 2 = (first :: second :: (rest ++ "memory://more.csv" :: more)).length :=
        congrArg List.length order
      simp only [List.length_append, List.length_cons] at long
      omega
  rw [outputs] at contents covers
  exact ⟨valid, rfl, rfl, grows, Sink.accepting_default, calm, _, summary, run, last, failed,
    ran, output, sources.trans found, covers.succeeded, contents⟩

end Job

end CsvImport

import CsvImport.Proofs.Aborting
import CsvImport.Proofs.Calm
import CsvImport.Proofs.Carrying
import CsvImport.Proofs.Sequential

/-!
# Completed jobs

What a job leaves behind that nothing stops does not depend on the order in which its
chunks end, nor on how many are in flight.  If no chunk fails, then it does not depend on the
size of the chunks either.
-/

namespace CsvImport

def Config.tuned (config : Config) (chunkSize limit : Nat) : Config :=
  { config with source := { config.source with chunkSize, maxConcurrent := limit } }

/-- A configuration that is not refused has at least one chunk in flight. -/
theorem Config.maxConcurrent_pos {config : Config} (valid : config.validate = .ok ()) :
    0 < config.source.maxConcurrent := by
  apply Nat.pos_of_ne_zero
  intro zero
  unfold validate at valid
  rw [if_pos zero] at valid
  simp only [bind, Except.bind] at valid
  split at valid
  · cases valid
  · split at valid
    · cases valid
    · split at valid
      · cases valid
      · cases valid

namespace Job

def tuned (job : Job) (chunkSize limit : Nat) : Job :=
  { job with config := job.config.tuned chunkSize limit }

/-- The sources at the paths that hold records, cut into chunks. -/
def sourcesAt (job : Job) (chunkSize : Nat) (session : Session) (paths : List String) :
    List Source :=
  paths.filterMap (job.sourceAt? chunkSize session)

def partFailure? (job : Job) (part : Part) : Option Failure :=
  job.failure? part.1 part.2

/-- All of the parts have ended by themselves: with an output or with a failure. -/
structure Completes (job : Job) (parts : List Part) (gain : Gain) : Prop where
  outputs : gain.outputs = parts.filterMap job.partOutput?
  failures : gain.failures.Perm (parts.filterMap job.partFailure?)
  whole : gain.tail = []

section

variable {job : Job} {source : Source} {fates : Fates} {gain : Gain}

theorem completes_nothing (job : Job) : job.Completes [] {} where
  outputs := rfl
  failures := List.Perm.refl _
  whole := rfl

theorem Completes.append {parts others : List Part} {first second : Gain}
    (former : job.Completes parts first) (latter : job.Completes others second) :
    job.Completes (parts ++ others) (first.andThen second) where
  outputs := by
    rw [List.filterMap_append, ← former.outputs, ← latter.outputs]
    rfl
  failures := by
    rw [List.filterMap_append]
    exact former.failures.append latter.failures
  whole := latter.whole

/-- A part that has completed counts once. -/
theorem Completes.total {parts : List Part} (completes : job.Completes parts gain) :
    gain.outputs.length + gain.failures.length = parts.length := by
  rw [completes.outputs, completes.failures.length_eq]
  clear completes
  induction parts with
  | nil => rfl
  | cons part more ih =>
      have here : job.partOutput? part = none ∧ (job.partFailure? part).isSome ∨
          (job.partOutput? part).isSome ∧ job.partFailure? part = none := by
        unfold partOutput? partFailure? output? failure?
        cases (job.ingest part.1 part.2).1 with
        | error e => exact .inl ⟨rfl, rfl⟩
        | ok output => exact .inr ⟨rfl, rfl⟩
      rcases here with ⟨none, some⟩ | ⟨some, none⟩
      · obtain ⟨failure, failed⟩ := Option.isSome_iff_exists.mp some
        rw [List.filterMap_cons_none none, List.filterMap_cons_some failed, List.length_cons,
          List.length_cons, ← ih, Nat.add_assoc]
      · obtain ⟨output, ended⟩ := Option.isSome_iff_exists.mp some
        rw [List.filterMap_cons_none none, List.filterMap_cons_some ended, List.length_cons,
          List.length_cons, ← ih, Nat.add_right_comm]

/-- An import without a shutdown completes all chunks of the source. -/
theorem Settles.completes {next : Nat} (settles : job.Settles source fates next (.ok ()) gain)
    (numbered : Chunk.Numbered source.chunks) (positive : 0 < job.config.source.maxConcurrent)
    (calm : gain.stopped = false) : job.Completes (Source.parts [source]) gain := by
  obtain ⟨rfl, outputs⟩ := settles.complete positive rfl calm
  have each := settles.picked numbered calm
  rw [List.take_length] at each
  refine { outputs := ?_, failures := ?_, whole := settles.whole }
  · rw [outputs, numbered.collect fates Fate.output? (Nat.le_refl _), List.take_length,
      Source.parts, List.flatMap_singleton, List.filterMap_map]
    exact List.filterMap_congr fun chunk member => (each chunk member).1
  · refine settles.failures.trans (List.Perm.of_eq ?_)
    rw [numbered.collect fates Fate.failure? (Nat.le_refl _), List.take_length,
      Source.parts, List.flatMap_singleton, List.filterMap_map]
    exact List.filterMap_congr fun chunk member => (each chunk member).2

/-- An undisturbed import completes all chunks of its source. -/
theorem completes_importSource (positive : 0 < job.config.source.maxConcurrent)
    {schedule : Schedule} (calm : schedule.Calm) (numbered : Chunk.Numbered source.chunks)
    {run : Run} {store : Store} {failing : Prop}
    (sound : ∀ chunk ∈ source.chunks, failing ∨ (job.output? source chunk).isSome)
    (undisturbed : run.Undisturbed store failing) :
    ∃ gain, run.Gains (job.importSource schedule source run).2 gain ∧
      job.Completes (Source.parts [source]) gain := by
  obtain ⟨fine, quiet⟩ := undisturbed_importSource undisturbed calm job sound
  obtain ⟨fates, next, gain, gains, settles⟩ := job.settles_importSource schedule numbered run
  rw [fine] at settles
  have stopped := gains.stopped
  rw [quiet.whole] at stopped
  have calmly := (Bool.or_eq_false_iff.mp stopped.symm).2
  exact ⟨gain, gains, settles.completes numbered positive calmly⟩

/-- What a readable source is prepared as, in a session that has gone on. -/
theorem prepare_of_readable {path : String} {session later : Session}
    (readable : job.Readable session path) (grows : session.store.Grows later.store) :
    (job.prepare path later).1 =
        .ok (job.sourceAt? job.config.source.chunkSize session path) ∧
      session.store.Grows (job.prepare path later).2.store := by
  obtain ⟨data, found, loaded, split⟩ := readable
  have again := (load_of_grows grows path).trans loaded
  obtain ⟨result, store⟩ := job.prepare_of_load again
  rw [result, store, sourceAt?_of_load loaded]
  constructor
  · unfold Source.prepare
    rw [split]
    cases found <;> rfl
  · exact grows.trans (grows_load path later)

/-- Every part of the sources at the paths can be ingested, unless chunks may fail. -/
def Sound (job : Job) (failing : Prop) (session : Session) (paths : List String) : Prop :=
  ∀ part ∈ Source.parts (job.sourcesAt job.config.source.chunkSize session paths),
    failing ∨ (job.partOutput? part).isSome

/-- An import has come to the end of the sources at the paths and has left out nothing. -/
structure Finishes (job : Job) (session : Session) (paths : List String) (failing : Prop)
    (run : Run) (ended : Except FatalError Unit × Run) : Prop where
  fine : ended.1 = .ok ()
  undisturbed : ∃ grown, ended.2.Undisturbed grown failing ∧ session.store.Grows grown
  sources : ended.2.summary.sources = run.summary.sources +
    (job.sourcesAt job.config.source.chunkSize session paths).length
  /-- The paths without a source are those of empty sources. -/
  emptySources : ended.2.summary.emptySources +
      (job.sourcesAt job.config.source.chunkSize session paths).length =
    run.summary.emptySources + paths.length
  completes : ∃ gain, run.Gains ended.2 gain ∧
    job.Completes (Source.parts (job.sourcesAt job.config.source.chunkSize session paths)) gain

theorem sourcesAt_singleton (chunkSize : Nat) (session : Session) (path : String) :
    job.sourcesAt chunkSize session [path] = (job.sourceAt? chunkSize session path).toList := by
  unfold sourcesAt
  rw [List.filterMap_cons]
  cases job.sourceAt? chunkSize session path <;> rfl

theorem sourcesAt_append (job : Job) (chunkSize : Nat) (session : Session)
    (paths others : List String) :
    job.sourcesAt chunkSize session (paths ++ others) =
      job.sourcesAt chunkSize session paths ++ job.sourcesAt chunkSize session others :=
  List.filterMap_append

theorem parts_sourcesAt_append (job : Job) (chunkSize : Nat) (session : Session)
    (paths others : List String) :
    Source.parts (job.sourcesAt chunkSize session (paths ++ others)) =
      Source.parts (job.sourcesAt chunkSize session paths) ++
        Source.parts (job.sourcesAt chunkSize session others) := by
  unfold Source.parts
  rw [sourcesAt_append, List.flatMap_append]

section

variable {session : Session} {paths others : List String} {failing : Prop} {run : Run}
  {ended : Except FatalError Unit × Run}

theorem sound_append : job.Sound failing session (paths ++ others) ↔
    job.Sound failing session paths ∧ job.Sound failing session others := by
  unfold Sound
  rw [parts_sourcesAt_append, List.forall_mem_append]

theorem finishes_nothing {store : Store} (undisturbed : run.Undisturbed store failing)
    (grows : session.store.Grows store) : job.Finishes session [] failing run (.ok (), run) where
  fine := rfl
  undisturbed := ⟨store, undisturbed, grows⟩
  sources := rfl
  emptySources := rfl
  completes := ⟨{}, run.gains_self, job.completes_nothing⟩

/-- Paths are imported one after the other. -/
theorem Finishes.andThen {passed : Except FatalError Unit × Run}
    (former : job.Finishes session paths failing run passed)
    (latter : job.Finishes session others failing passed.2 ended) :
    job.Finishes session (paths ++ others) failing run ended where
  fine := latter.fine
  undisturbed := latter.undisturbed
  sources := by
    rw [latter.sources, former.sources, sourcesAt_append, List.length_append, Nat.add_assoc]
  emptySources := by
    have front := former.emptySources
    have rest := latter.emptySources
    rw [sourcesAt_append, List.length_append, List.length_append]
    omega
  completes := by
    obtain ⟨first, gains, whole⟩ := former.completes
    obtain ⟨second, more, rest⟩ := latter.completes
    refine ⟨first.andThen second, gains.trans whole.whole more, ?_⟩
    rw [parts_sourcesAt_append]
    exact whole.append rest

/-- Asking whether the job is to stop changes nothing that is counted. -/
theorem Finishes.asked (schedule : Schedule)
    (finishes : job.Finishes session paths failing (run.ask schedule).2 ended) :
    job.Finishes session paths failing run ended :=
  { finishes with
    completes := by
      obtain ⟨gain, gains, completes⟩ := finishes.completes
      have all := (run.gains_ask schedule).trans rfl gains
      rw [Gain.empty_andThen] at all
      exact ⟨gain, all, completes⟩ }

/-- A path without a source is that of an empty source. -/
theorem finishes_emptySource {path : String} {after : Session}
    (empty : job.sourceAt? job.config.source.chunkSize session path = none) {store : Store}
    (undisturbed : run.Undisturbed store failing) (grows : session.store.Grows after.store) :
    job.Finishes session [path] failing run
      (.ok (), { Run.tell { run with session := after } .info
          (path ++ ": source is empty, nothing to import") with
        summary := { run.summary with emptySources := run.summary.emptySources + 1 } }) := by
  have none : job.sourcesAt job.config.source.chunkSize session [path] = [] := by
    rw [sourcesAt_singleton, empty, Option.toList_none]
  have still : Run.Undisturbed { run with session := after } after.store failing :=
    { undisturbed with store := rfl }
  exact {
    fine := rfl
    undisturbed := ⟨after.store, (still.tell ..).sources .., grows⟩
    sources := by rw [none]; rfl
    emptySources := by rw [none]; rfl
    completes := by
      rw [none]
      exact ⟨{}, gains_emptySource undisturbed.isSink after path, job.completes_nothing⟩ }

/-- A source at a path is counted, and all its chunks are completed. -/
theorem finishes_importSource (positive : 0 < job.config.source.maxConcurrent)
    {schedule : Schedule} (calm : schedule.Calm) {path : String} {source : Source}
    (there : job.sourceAt? job.config.source.chunkSize session path = some source)
    (numbered : Chunk.Numbered source.chunks) (sound : job.Sound failing session [path])
    {store : Store} (undisturbed : run.Undisturbed store failing) {after : Session}
    (grows : session.store.Grows after.store) :
    job.Finishes session [path] failing run
      (job.importSource schedule source { run with session := after }) := by
  have one : job.sourcesAt job.config.source.chunkSize session [path] = [source] := by
    rw [sourcesAt_singleton, there, Option.toList_some]
  have each : ∀ chunk ∈ source.chunks, failing ∨ (job.output? source chunk).isSome := by
    intro chunk member
    refine sound (source, chunk) ?_
    rw [one, Source.parts, List.flatMap_singleton]
    exact List.mem_map_of_mem member
  have still : Run.Undisturbed { run with session := after } after.store failing :=
    { undisturbed with store := rfl }
  obtain ⟨fine, quiet⟩ := undisturbed_importSource still calm job each
  obtain ⟨gain, gains, completes⟩ := completes_importSource positive calm numbered each still
  obtain ⟨sources, emptySources⟩ :=
    job.sources_importSource schedule source { run with session := after }
  have all := (Run.gains_session undisturbed.isSink after).trans rfl gains
  rw [Gain.empty_andThen] at all
  exact {
    fine
    undisturbed := ⟨after.store, quiet, grows⟩
    sources := by rw [one]; exact sources
    emptySources := by rw [one]; exact congrArg (· + 1) emptySources
    completes := by rw [one]; exact ⟨gain, all, completes⟩ }

/-- An undisturbed import completes all chunks of all sources. -/
theorem finishes_importSources (job : Job) (positive : 0 < job.config.source.maxConcurrent)
    {schedule : Schedule} (calm : schedule.Calm) {session : Session} {paths : List String}
    (readable : ∀ path ∈ paths, job.Readable session path) {run : Run} {store : Store}
    {failing : Prop} (sound : job.Sound failing session paths)
    (undisturbed : run.Undisturbed store failing) (grows : session.store.Grows store) :
    job.Finishes session paths failing run (job.importSources schedule run paths) := by
  induction paths generalizing run store with
  | nil => exact finishes_nothing undisturbed grows
  | cons path more ih =>
      have behind := fun other member => readable other (List.mem_cons_of_mem path member)
      have ⟨here, rest⟩ : job.Sound failing session [path] ∧ job.Sound failing session more :=
        sound_append.mp sound
      have asked := undisturbed.asks (run.asks_ask schedule) calm
      refine Finishes.asked schedule ?_
      unfold importSources
      simp only
      generalize (run.ask schedule).2 = now at asked
      rw [if_neg (by rw [asked.going]; exact Bool.false_ne_true)]
      obtain ⟨result, grown⟩ :=
        prepare_of_readable (readable path (List.mem_cons_self ..)) (asked.store ▸ grows)
      rcases prepared : job.prepare path now.session with ⟨outcome, after⟩
      rw [prepared] at result grown
      cases result
      cases there : job.sourceAt? job.config.source.chunkSize session path with
      | none =>
          have passed := finishes_emptySource there asked grown
          obtain ⟨_, quiet, grown⟩ := passed.undisturbed
          exact passed.andThen (ih behind rest quiet grown)
      | some source =>
          obtain ⟨data, _, split⟩ := prepare_some
            ((congrArg Prod.fst prepared).trans (congrArg Except.ok there))
          have passed := finishes_importSource positive calm there
            (Chunk.numbered_of_prepare split) here asked grown
          rcases imported : job.importSource schedule source { now with session := after } with
            ⟨outcome, later⟩
          rw [imported] at passed
          cases passed.fine
          obtain ⟨_, quiet, grown⟩ := passed.undisturbed
          have whole : later.summary.cancelled = false := quiet.whole
          simp only [imported, whole, Bool.false_eq_true, ↓reduceIte]
          exact passed.andThen (ih behind rest quiet grown)

end

theorem map_partOutput? {parts : List Part}
    (complete : ∀ part ∈ parts, (job.partOutput? part).isSome) :
    parts.map job.partOutput? = (parts.filterMap job.partOutput?).map some := by
  rw [List.map_filterMap_some_eq_filter_map_isSome, eq_comm]
  apply List.filter_eq_self.mpr
  intro output listed
  obtain ⟨part, member, rfl⟩ := List.mem_map.mp listed
  exact complete part member

/-- Where no part fails, the parts at each path are together its sequential output. -/
theorem sequential_of_complete (accepted : job.dialect.Accepted) {chunkSize : Nat}
    {session : Session} {paths : List String}
    (readable : ∀ path ∈ paths, job.Readable session path)
    (complete : ∀ part ∈ Source.parts (job.sourcesAt chunkSize session paths),
      (job.partOutput? part).isSome) :
    ∃ whole, paths.map (job.sequential? session) = whole.map some ∧
      ChunkOutput.join whole = ChunkOutput.join
        ((Source.parts (job.sourcesAt chunkSize session paths)).filterMap job.partOutput?) := by
  induction paths with
  | nil => exact ⟨[], rfl, rfl⟩
  | cons path more ih =>
      have split := job.parts_sourcesAt_append chunkSize session [path] more
      rw [sourcesAt_singleton, List.singleton_append] at split
      rw [split] at complete ⊢
      have here := map_partOutput? fun part member =>
        complete part (List.mem_append_left _ member)
      unfold Source.parts at here
      rw [List.map_flatMap] at here
      simp only [List.map_map] at here
      obtain ⟨whole, known, same⟩ := ih
        (fun other member => readable other (List.mem_cons_of_mem _ member))
        (fun part member => complete part (List.mem_append_right _ member))
      have first := sequential?_of_complete accepted (readable path (List.mem_cons_self ..)) here
      refine ⟨_ :: whole, by rw [List.map_cons, List.map_cons, first, known], ?_⟩
      rw [List.filterMap_append, ChunkOutput.join_append, ChunkOutput.join_cons, same]
      rfl

/-- A job without a failure log opens none. -/
theorem openLog_of_no_log (unlogged : job.config.errors.logPath = none) (now : Timestamp)
    (session : Session) : job.openLog now session = (.ok none, session) := by
  unfold openLog
  rw [unlogged]

/-- A job without a failure log begins with nothing but its first notice. -/
theorem begins_of_no_log (job : Job) (unlogged : job.config.errors.logPath = none)
    (now : Timestamp) (output : Output) (session : Session) :
    job.Begins now output session {
      output
      session := session.tell .job .info job.startNotice
      tracker := { limit := job.config.errors.maxFailures } } :=
  ⟨none, _, openLog_of_no_log unlogged now _, rfl⟩

/-- The job of a configuration has a dialect that can be used. -/
theorem ofConfig_ok {config : Config} (configured : ofConfig config = .ok job) :
    job.config = config ∧ job.dialect.Accepted := by
  unfold ofConfig at configured
  cases dialect : config.csv.dialect with
  | error e =>
      rw [dialect] at configured
      cases configured
  | ok d =>
      rw [dialect] at configured
      cases header : config.csv.configuredHeader with
      | error e =>
          rw [header] at configured
          cases configured
      | ok names =>
          rw [header] at configured
          cases configured
          exact ⟨rfl, CsvConfig.accepted_of_dialect dialect⟩

/-- Opening a failure log leaves everything that is stored in its place. -/
theorem grows_openLog (job : Job) (now : Timestamp) (session : Session) :
    session.store.Grows (job.openLog now session).2.store := by
  unfold openLog FailureLog.open?
  split
  · exact Store.Grows.refl _
  · rename_i url _
    have grows := Provider.grows_ofUrl session.store url false
    simp only
    generalize Provider.ofUrl session.store url false = opened at grows
    rcases opened with ⟨_ | _, store⟩
    · exact grows
    · exact grows

/-- The import of sources comes to their end, if nothing stops the job. -/
theorem Begins.finishes {now : Timestamp} {s : Sink} {session : Session} {start : Run}
    (begins : job.Begins now (.sink s) session start)
    (positive : 0 < job.config.source.maxConcurrent) {paths : List String}
    (readable : ∀ path ∈ paths, job.Readable session path)
    (sound : job.Sound (job.config.errors.maxFailures = 0 ∧ job.config.errors.logPath = none)
      session paths)
    (accepting : s.Accepting) {schedule : Schedule} (calm : schedule.Calm) :
    job.Finishes session paths
      (job.config.errors.maxFailures = 0 ∧ job.config.errors.logPath = none) start
      (job.importSources schedule start paths) := by
  obtain ⟨log, after, opened, rfl⟩ := begins
  have grows := job.grows_openLog now (session.tell .job .info job.startNotice)
  rw [opened] at grows
  have undisturbed : Run.Undisturbed {
      output := .sink s, session := after
      tracker := { limit := job.config.errors.maxFailures, log } } after.store
      (job.config.errors.maxFailures = 0 ∧ job.config.errors.logPath = none) := {
    isSink := rfl
    accepting := accepting
    limit := fun may => may.1
    log := fun may => by
      rw [openLog_of_no_log may.2] at opened
      cases opened
      rfl
    going := rfl
    whole := rfl
    store := rfl }
  exact job.finishes_importSources positive calm readable sound undisturbed grows

/-- A job that nothing stops completes all chunks of its sources. -/
theorem Begins.completes {now : Timestamp} {s : Sink} {session : Session} {start : Run}
    (begins : job.Begins now (.sink s) session start)
    (positive : 0 < job.config.source.maxConcurrent)
    (readable : ∀ path ∈ job.config.source.paths, job.Readable session path)
    (sound : job.Sound (job.config.errors.maxFailures = 0 ∧ job.config.errors.logPath = none)
      session job.config.source.paths)
    (accepting : s.Accepting) {schedule : Schedule} (calm : schedule.Calm) :
    ∃ gain summary run last,
      job.runWith schedule now (.sink s) session = (.ok summary, run) ∧
        run.output = .sink last ∧
        last.contents = s.contents ++ gain.outputs.flatMap (·.bytes) ∧
        summary.Covers gain.outputs gain.failures ∧
        job.Completes (Source.parts
          (job.sourcesAt job.config.source.chunkSize session job.config.source.paths)) gain := by
  have finishes := begins.finishes positive readable sound accepting calm
  obtain ⟨gain, gains, completes⟩ := finishes.completes
  obtain ⟨isSink, fresh, none⟩ := begins.fresh
  have ran := runWith_of_begins begins schedule
  rw [finishes.fine] at ran
  generalize (job.importSources schedule start job.config.source.paths).2 = imported
    at gains ran
  cases isLast : imported.output with
  | file path buffered =>
      have same := gains.isSink
      rw [isLast, isSink] at same
      cases same
  | sink last =>
      have flushed : last.flush.1 = .ok () := by
        have still := gains.accepting (isSink ▸ accepting)
        rw [isLast] at still
        unfold Sink.flush
        rw [Sink.Accepting.flushes still]
        rfl
      have holds := gains.holds (.inl (by rw [isSink]; rfl)) s.contents
        (by rw [isSink]; exact .sink)
      rw [isLast, Gain.bytes, completes.whole, List.append_nil] at holds
      obtain ⟨after, output, ends⟩ := job.ended_sink (.ok ()) isLast
      rw [ends, flushed] at ran
      exact ⟨gain, _, after, last.flush.2, ran, output, holds.contents_eq,
        gains.covers fresh none, completes⟩

end

/-- A job that nothing stops leaves behind the outputs of the chunks that can be ingested, in
source and chunk order, and the failures of the others, however its chunks are scheduled.  If
there are no others, then these are the outputs of the sources read in one go. -/
theorem runWith_anySchedule {config : Config} {job : Job}
    (configured : ofConfig config = .ok job) {chunkSize limit : Nat}
    (valid : (config.tuned chunkSize limit).validate = .ok ())
    (unlimited : config.errors.maxFailures = 0) (unlogged : config.errors.logPath = none)
    {session : Session} (readable : ∀ path ∈ config.source.paths, job.Readable session path)
    {s : Sink} (accepting : s.Accepting) {schedule : Schedule} (calm : schedule.Calm)
    (now : Timestamp) :
    let parts := Source.parts (job.sourcesAt chunkSize session config.source.paths)
    ∃ summary run last,
      (job.tuned chunkSize limit).runWith schedule now (.sink s) session = (.ok summary, run) ∧
        run.output = .sink last ∧
        last.contents = s.contents ++ (parts.filterMap job.partOutput?).flatMap (·.bytes) ∧
        summary.Covers (parts.filterMap job.partOutput?) (parts.filterMap job.partFailure?) ∧
        ((∀ part ∈ parts, (job.partOutput? part).isSome) →
          ∃ whole : List ChunkOutput,
            config.source.paths.map (job.sequential? session) = whole.map some ∧
            last.contents = s.contents ++ whole.flatMap (·.bytes) ∧
            summary.counts.written = (whole.map (·.counts.written)).sum ∧
            summary.counts.skipped = (whole.map (·.counts.skipped)).sum) := by
  obtain ⟨rfl, accepted⟩ := ofConfig_ok configured
  intro parts
  have begins : (job.tuned chunkSize limit).Begins now (.sink s) session _ :=
    ⟨none, _, openLog_of_no_log unlogged now _, rfl⟩
  obtain ⟨gain, summary, run, last, ran, output, contents, covers, completes⟩ :=
    begins.completes (Config.maxConcurrent_pos valid) readable
      (fun _ _ => .inl ⟨unlimited, unlogged⟩) accepting calm
  have outputs : gain.outputs = parts.filterMap job.partOutput? := completes.outputs
  have failures : gain.failures.Perm (parts.filterMap job.partFailure?) := completes.failures
  rw [outputs] at contents covers
  refine ⟨summary, run, last, ran, output, contents, ?_, fun complete => ?_⟩
  · exact { covers with
      failed := covers.failed.trans failures.length_eq
      failures := covers.failures.trans failures }
  · obtain ⟨whole, known, same⟩ := sequential_of_complete accepted readable complete
    refine ⟨whole, known, ?_, ?_, ?_⟩
    · rw [contents, ← ChunkOutput.bytes_join, ← same, ChunkOutput.bytes_join]
    · rw [covers.written, ← ChunkOutput.written_join, ← same, ChunkOutput.written_join]
    · rw [covers.skipped, ← ChunkOutput.skipped_join, ← same, ChunkOutput.skipped_join]

/-- Two chunks of one row each, of which the second ends first. -/
theorem runWith_anySchedule_twoRows :
    let config : Config := { source := { paths := ["memory://rows.csv"] } }
    let job : Job := { config, dialect := {}, header := none }
    let session : Session := {
      store := { memory := [(⟨["rows.csv"]⟩, [97, 10, 49, 10, 50, 10])] } }
    let schedule : Schedule := { turn := fun _ => { pick := 1 } }
    ofConfig config = .ok job ∧ (config.tuned 1 2).validate = .ok () ∧
      config.errors.maxFailures = 0 ∧ config.errors.logPath = none ∧
      (∀ path ∈ config.source.paths, job.Readable session path) ∧
      Sink.Accepting {} ∧ schedule.Calm ∧
      ∃ summary run last,
        (job.tuned 1 2).runWith schedule {} (.sink {}) session = (.ok summary, run) ∧
          run.output = .sink last ∧ summary.chunksSucceeded = 2 ∧ summary.counts.written = 2 ∧
          last.contents = [123, 34, 97, 34, 58, 34, 49, 34, 125, 10,
            123, 34, 97, 34, 58, 34, 50, 34, 125, 10] := by
  intro config job session schedule
  have configured : ofConfig config = .ok job := by decide +kernel
  have valid : (config.tuned 1 2).validate = .ok () := by decide
  have readable : ∀ path ∈ config.source.paths, job.Readable session path := by
    intro path member
    obtain rfl := List.mem_singleton.mp member
    refine ⟨[97, 10, 49, 10, 50, 10],
      some ⟨⟨["a"], ⟨by simp, by decide, by decide⟩⟩, 2, 2⟩, ?_, ?_⟩
    · decide +kernel
    · decide +kernel
  have calm : schedule.Calm := ⟨fun _ _ => rfl, fun _ => rfl⟩
  have outputs : (Source.parts (job.sourcesAt 1 session config.source.paths)).filterMap
      job.partOutput? =
        [⟨[123, 34, 97, 34, 58, 34, 49, 34, 125, 10], ⟨1, 0⟩⟩,
          ⟨[123, 34, 97, 34, 58, 34, 50, 34, 125, 10], ⟨1, 0⟩⟩] := by decide +kernel
  obtain ⟨summary, run, last, ran, output, contents, covers, -⟩ :=
    runWith_anySchedule configured valid rfl rfl readable Sink.accepting_default calm {}
  rw [outputs] at contents covers
  exact ⟨configured, valid, rfl, rfl, readable, Sink.accepting_default, calm, summary, run, last,
    ran, output, covers.succeeded, covers.written, contents⟩

end Job

end CsvImport

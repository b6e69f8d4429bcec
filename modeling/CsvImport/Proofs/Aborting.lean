import CsvImport.Proofs.Places
import Mathlib.Data.List.Perm.Subperm

/-!
# Aborted jobs

A job that is stopped by an error reports what reached its output: whole chunks in source
and chunk order, and behind them at most a part of the chunk whose writing failed.
-/

namespace CsvImport

abbrev Part := Source × Chunk

/-- The chunks of sources, in source and chunk order. -/
def Source.parts (sources : List Source) : List Part :=
  sources.flatMap fun source => source.chunks.map fun chunk => (source, chunk)

theorem Source.parts_cons (source : Source) (more : List Source) :
    Source.parts (source :: more) = Source.parts [source] ++ Source.parts more := by
  rw [Source.parts, Source.parts, Source.parts, List.flatMap_cons, List.flatMap_singleton]

namespace Job

def partOutput? (job : Job) (part : Part) : Option ChunkOutput :=
  job.output? part.1 part.2

/-- The sources that are imported, or begun to be, when the paths are. -/
def sourcesRead (job : Job) (schedule : Schedule) (run : Run) : List String → List Source
  | [] => []
  | path :: more =>
      let (_, run) := run.ask schedule
      if run.stopping then []
      else
        match job.prepare path run.session with
        | (.error _, _) => []
        | (.ok none, session) =>
            let run := { run with session }.tell .info
              (path ++ ": source is empty, nothing to import")
            job.sourcesRead schedule
              { run with
                summary := { run.summary with emptySources := run.summary.emptySources + 1 } }
              more
        | (.ok (some source), session) =>
            source ::
              match job.importSource schedule source { run with session } with
              | (.error _, _) => []
              | (.ok (), run) =>
                  if run.summary.cancelled then [] else job.sourcesRead schedule run more

def successful (job : Job) (parts : List Part) : List Part :=
  parts.filter fun part => (job.partOutput? part).isSome

/-- What is written when parts are imported: outputs of some of them, in order. -/
structure Delivers (job : Job) (parts : List Part) (result : Except FatalError Unit)
    (gain : Gain) (written : List Part) : Prop where
  order : written.Sublist parts
  outputs : written.map job.partOutput? = gain.outputs.map some
  /-- Unless a shutdown was asked for, no part that can be ingested is passed over. -/
  front : 0 < job.config.source.maxConcurrent → gain.stopped = false →
    written <+: job.successful parts
  whole : 0 < job.config.source.maxConcurrent → result = .ok () → gain.stopped = false →
    written = job.successful parts
  tail : gain.tail = [] ∨ ∃ part next cause,
    result = .error (.outputWrite job.config.output.path (some cause)) ∧
      (written ++ [part]).Sublist parts ∧
      (0 < job.config.source.maxConcurrent → gain.stopped = false →
        written ++ [part] <+: job.successful parts) ∧
      job.partOutput? part = some next ∧ gain.tail <+: next.bytes ∧ gain.tail ≠ next.bytes
  /-- Every failure recorded is that of a part that cannot be ingested. -/
  failures : gain.failures.Subperm (parts.filterMap fun part => job.failure? part.1 part.2)

section

variable {job : Job} {source : Source} {fates : Fates} {result : Except FatalError Unit}
  {gain : Gain}

theorem successful_append (job : Job) (parts others : List Part) :
    job.successful (parts ++ others) = job.successful parts ++ job.successful others :=
  List.filter_append ..

/-- Unless a shutdown was asked for, the fates tell the ingestions of the chunks behind. -/
theorem Settles.picked {next : Nat} (settles : job.Settles source fates next result gain)
    (numbered : Chunk.Numbered source.chunks) (calm : gain.stopped = false) :
    ∀ chunk ∈ source.chunks.take next,
      (fates chunk.id.index).bind Fate.output? = job.output? source chunk ∧
        (fates chunk.id.index).bind Fate.failure? = job.failure? source chunk := by
  intro chunk listed
  have member := List.mem_of_mem_take listed
  have passed := settles.passed _ (numbered.lt_of_mem_take listed)
  have byItself := settles.byItself calm _ (numbered.index_lt member)
  obtain ⟨fate, found⟩ := Option.isSome_iff_exists.mp passed
  rw [found] at byItself ⊢
  exact (settles.agrees chunk member fate found).picked fun same => byItself (same ▸ rfl)

/-- The outputs that are collected are those of parts, in order.  These are all that can be
ingested, if the fates tell the ingestions. -/
theorem Agrees.parts (agrees : job.Agrees source fates)
    (numbered : Chunk.Numbered source.chunks) {next : Nat} (within : next ≤ source.chunks.length) :
    ∃ succeeded : List Part, succeeded.Sublist (Source.parts [source]) ∧
      succeeded.map job.partOutput? = (fates.collect Fate.output? next).map some ∧
      ((∀ chunk ∈ source.chunks.take next,
          (fates chunk.id.index).bind Fate.output? = job.output? source chunk) →
        succeeded =
          job.successful ((source.chunks.take next).map fun chunk => (source, chunk))) := by
  let picked := fun chunk : Chunk => (fates chunk.id.index).bind Fate.output?
  refine ⟨((source.chunks.take next).filter (Option.isSome ∘ picked)).map
    fun chunk => (source, chunk), ?_, ?_, ?_⟩
  · rw [Source.parts, List.flatMap_singleton]
    exact (List.filter_sublist.trans (List.take_sublist ..)).map _
  · rw [numbered.collect fates Fate.output? within,
      List.map_filterMap_some_eq_filter_map_isSome, List.filter_map, List.map_map]
    apply List.map_congr_left
    intro chunk member
    obtain ⟨listed, some⟩ := List.mem_filter.mp member
    obtain ⟨output, found⟩ := Option.isSome_iff_exists.mp some
    obtain ⟨fate, ended, isPicked⟩ := Option.bind_eq_some_iff.mp found
    have known := agrees.output? chunk (List.mem_of_mem_take listed) fate ended output isPicked
    exact known.trans found.symm
  · intro told
    rw [successful, List.filter_map]
    refine congrArg _ (List.filter_congr fun chunk listed => ?_)
    exact congrArg Option.isSome (told chunk listed)

/-- The failures that are collected are those of chunks that cannot be ingested, in order. -/
theorem Agrees.failures (agrees : job.Agrees source fates)
    (numbered : Chunk.Numbered source.chunks) :
    (fates.collect Fate.failure? source.chunks.length).Sublist
      (source.chunks.filterMap (job.failure? source)) := by
  rw [numbered.collect fates Fate.failure? (Nat.le_refl _), List.take_length]
  have known : ∀ chunk ∈ source.chunks, ∀ failure,
      (fates chunk.id.index).bind Fate.failure? = some failure →
        job.failure? source chunk = some failure := by
    intro chunk member failure found
    obtain ⟨fate, ended, picked⟩ := Option.bind_eq_some_iff.mp found
    exact agrees.failure? chunk member fate ended failure picked
  generalize source.chunks = chunks at known ⊢
  induction chunks with
  | nil => exact List.Sublist.refl _
  | cons chunk more ih =>
      have rest := ih fun other member => known other (List.mem_cons_of_mem _ member)
      rw [List.filterMap_cons, List.filterMap_cons]
      cases found : (fates chunk.id.index).bind Fate.failure? with
      | some failure =>
          rw [known chunk (List.mem_cons_self ..) failure found]
          exact rest.cons_cons failure
      | none =>
          cases job.failure? source chunk with
          | none => exact rest
          | some failure => exact rest.cons failure

/-- Parts whose outputs are known give every front of these outputs. -/
theorem map_take_of_prefix {parts : List Part} {front outputs : List ChunkOutput}
    (known : parts.map job.partOutput? = outputs.map some) (isFront : front <+: outputs) :
    (parts.take front.length).map job.partOutput? = front.map some := by
  rw [List.map_take, known, ← List.map_take, ← List.prefix_iff_eq_take.mp isFront]

/-- The part whose output is the one behind a front of these outputs. -/
theorem part_behind_front {parts : List Part} {front outputs : List ChunkOutput}
    {output : ChunkOutput} (known : parts.map job.partOutput? = outputs.map some)
    (inside : front ++ [output] <+: outputs) :
    ∃ part, parts.take front.length ++ [part] <+: parts ∧ job.partOutput? part = some output := by
  have more := map_take_of_prefix known inside
  have long := congrArg List.length more
  rw [List.length_append, List.length_singleton] at more
  rw [List.length_map, List.length_take, List.length_map, List.length_append,
    List.length_singleton] at long
  have within : front.length < parts.length := by omega
  rw [List.take_succ_eq_append_getElem within, List.map_append, List.map_append] at more
  refine ⟨parts[front.length], ?_, List.singleton_injective (List.append_inj_right' more rfl)⟩
  rw [← List.take_succ_eq_append_getElem within]
  exact List.take_prefix ..

/-- An import that has ended has delivered some of its parts. -/
theorem Settles.delivers {next : Nat} (settles : job.Settles source fates next result gain)
    (numbered : Chunk.Numbered source.chunks) :
    ∃ written, job.Delivers (Source.parts [source]) result gain written := by
  obtain ⟨succeeded, order, known, all⟩ := settles.agrees.parts numbered settles.within
  have begun : gain.stopped = false →
      succeeded = job.successful ((source.chunks.take next).map fun chunk => (source, chunk)) :=
    fun calm => all fun chunk listed => (settles.picked numbered calm chunk listed).1
  have front : gain.stopped = false → succeeded <+: job.successful (Source.parts [source]) := by
    intro calm
    rw [begun calm, Source.parts, List.flatMap_singleton]
    exact ((List.take_prefix ..).map _).filter _
  refine ⟨succeeded.take gain.outputs.length, {
    order := (List.take_sublist ..).trans order
    outputs := map_take_of_prefix known settles.outputs
    front := fun _ calm => (List.take_prefix ..).trans (front calm)
    whole := ?_
    tail := ?_
    failures := ?_ }⟩
  · intro positive fine calm
    obtain ⟨rfl, outputs⟩ := settles.complete positive fine calm
    have long := congrArg List.length known
    rw [List.length_map, List.length_map, ← outputs] at long
    rw [← long, List.take_length, begun calm, List.take_length, Source.parts,
      List.flatMap_singleton]
  · rcases settles.tail with whole | ⟨output, cause, failed, inside, part, short⟩
    · exact .inl whole
    · obtain ⟨last, behind, found⟩ := part_behind_front known inside
      exact .inr ⟨last, output, cause, failed, behind.sublist.trans order,
        fun _ calm => behind.trans (front calm), found, part, short⟩
  · rw [Source.parts, List.flatMap_singleton, List.filterMap_map]
    exact settles.failures.subperm.trans (settles.agrees.failures numbered).subperm

/-- What is delivered one after the other. -/
theorem Delivers.append {first second : Gain} {parts others written more : List Part}
    (former : job.Delivers parts (.ok ()) first written)
    (latter : job.Delivers others result second more) :
    job.Delivers (parts ++ others) result (first.andThen second) (written ++ more) where
  order := former.order.append latter.order
  outputs := by
    rw [List.map_append, former.outputs, latter.outputs, ← List.map_append]
    rfl
  front := by
    intro positive calm
    obtain ⟨before, behind⟩ := Bool.or_eq_false_iff.mp calm
    rw [successful_append, former.whole positive rfl before]
    exact (List.prefix_append_right_inj _).mpr (latter.front positive behind)
  whole := by
    intro positive fine calm
    obtain ⟨before, behind⟩ := Bool.or_eq_false_iff.mp calm
    rw [successful_append, former.whole positive rfl before, latter.whole positive fine behind]
  tail := by
    rcases latter.tail with whole | ⟨part, next, cause, failed, order, front, found, inside⟩
    · exact .inl whole
    · refine .inr ⟨part, next, cause, failed, ?_, ?_, found, inside⟩
      · rw [List.append_assoc]
        exact former.order.append order
      · intro positive calm
        obtain ⟨before, behind⟩ := Bool.or_eq_false_iff.mp calm
        rw [successful_append, former.whole positive rfl before, List.append_assoc]
        exact (List.prefix_append_right_inj _).mpr (front positive behind)
  failures := by
    rw [List.filterMap_append]
    exact former.failures.append latter.failures

theorem delivers_nothing (job : Job) (result : Except FatalError Unit) (stopped : Bool) :
    job.Delivers [] result { stopped } [] where
  order := List.Sublist.refl _
  outputs := rfl
  front := fun _ _ => List.prefix_rfl
  whole := fun _ _ _ => rfl
  tail := .inl rfl
  failures := List.Subperm.refl _

/-- What is prepared has been loaded, whether it has records or not. -/
theorem loaded_of_prepare {path : String} {session : Session} {found : Option Source}
    (prepared : (job.prepare path session).1 = .ok found) :
    ∃ bytes, (load path session).1 = .ok bytes ∧
      Source.prepare job.dialect job.header job.config.source.chunkSize path bytes = .ok found := by
  unfold prepare at prepared
  rcases loaded : load path session with ⟨_ | bytes, after⟩ <;> rw [loaded] at prepared
  · cases prepared
  · refine ⟨bytes, rfl, ?_⟩
    simp only at prepared
    split at prepared
    · cases prepared
    · cases prepared
      assumption
    · cases prepared
      assumption

theorem prepare_some {path : String} {session : Session}
    (prepared : (job.prepare path session).1 = .ok (some source)) :
    ∃ data, (load path session).1 = .ok data ∧
      Source.prepare job.dialect job.header job.config.source.chunkSize path data =
        .ok (some source) :=
  loaded_of_prepare prepared

/-- A source without records is only counted. -/
theorem gains_emptySource {run : Run} (isSink : run.output.isSink) (session : Session)
    (path : String) :
    run.Gains
      { Run.tell { run with session } .info (path ++ ": source is empty, nothing to import") with
        summary := { run.summary with emptySources := run.summary.emptySources + 1 } } {} := by
  have read := Run.gains_session isSink session
  have told := read.trans rfl (Run.gains_tell _ .info
    (path ++ ": source is empty, nothing to import"))
  exact told.trans rfl (Run.gains_sources _ run.summary.sources (run.summary.emptySources + 1))

theorem delivers_importSources (job : Job) (schedule : Schedule) (paths : List String) (run : Run)
    (isSink : run.output.isSink) :
    ∃ gain written, run.Gains (job.importSources schedule run paths).2 gain ∧
      job.Delivers (Source.parts (job.sourcesRead schedule run paths))
        (job.importSources schedule run paths).1 gain written := by
  induction paths generalizing run with
  | nil => exact ⟨{}, [], run.gains_self, job.delivers_nothing _ false⟩
  | cons path more ih =>
      have asked := run.gains_ask schedule
      have sink := asked.isSink.trans isSink
      unfold importSources sourcesRead
      simp only
      generalize (run.ask schedule).2 = now at asked sink
      split
      · have told := asked.trans rfl (now.gains_tell .info
          "Shutdown requested, skipping remaining sources")
        exact ⟨_, [], told.trans rfl (Run.gains_skip _), job.delivers_nothing _ true⟩
      · rcases prepared : job.prepare path now.session with ⟨_ | _ | source, session⟩
        · exact ⟨_, [], asked.trans rfl (Run.gains_session sink session),
            job.delivers_nothing _ false⟩
        · have counted := asked.trans rfl (gains_emptySource sink session path)
          obtain ⟨gain, written, gains, delivers⟩ := ih _ (counted.isSink.trans isSink)
          have all := counted.trans rfl gains
          simp only [Gain.empty_andThen] at all
          exact ⟨gain, written, all, delivers⟩
        · have read := asked.trans rfl (Run.gains_session sink session)
          obtain ⟨data, _, split⟩ := prepare_some (congrArg Prod.fst prepared)
          have numbered := Chunk.numbered_of_prepare split
          obtain ⟨fates, next, gain, gains, settles⟩ :=
            job.settles_importSource schedule numbered { now with session }
          obtain ⟨written, delivers⟩ := settles.delivers numbered
          have both := read.trans rfl gains
          simp only [Gain.empty_andThen] at both ⊢
          rcases imported : job.importSource schedule source { now with session } with
            ⟨_ | _, after⟩
          · rw [imported] at both delivers
            exact ⟨gain, written, both, delivers⟩
          · rw [imported] at both delivers settles
            simp only
            split
            · exact ⟨gain, written, both, delivers⟩
            · obtain ⟨rest, others, later, delivered⟩ := ih _ (both.isSink.trans isSink)
              refine ⟨gain.andThen rest, written ++ others, both.trans settles.whole later, ?_⟩
              rw [Source.parts_cons]
              exact delivers.append delivered

end

end Job

/-! ## How a job begins and ends -/

/-- The summary counts these outputs and holds these failures, in some order. -/
structure Summary.Covers (summary : Summary) (outputs : List ChunkOutput)
    (failures : List Failure) : Prop where
  written : summary.counts.written = (outputs.map (·.counts.written)).sum
  skipped : summary.counts.skipped = (outputs.map (·.counts.skipped)).sum
  bytesWritten : summary.bytesWritten = (outputs.map (·.bytes.length)).sum
  succeeded : summary.chunksSucceeded = outputs.length
  failed : summary.chunksFailed = failures.length
  failures : summary.failures.Perm failures

/-- The summary of a job that began with nothing covers what it gained. -/
theorem Run.Gains.covers {start run : Run} {gain : Gain} (gains : start.Gains run gain)
    (fresh : start.summary = {}) (none : start.tracker.failures = []) :
    Summary.Covers { run.summary with failures := run.tracker.failures } gain.outputs
      gain.failures where
  written := by
    rw [gains.written, fresh]
    exact Nat.zero_add _
  skipped := by
    rw [gains.skipped, fresh]
    exact Nat.zero_add _
  bytesWritten := by
    rw [gains.bytesWritten, fresh]
    exact Nat.zero_add _
  succeeded := by
    rw [gains.succeeded, fresh]
    exact Nat.zero_add _
  failed := by
    rw [gains.failed, fresh]
    exact Nat.zero_add _
  failures := by
    rw [gains.failures, none]
    exact List.Perm.refl _

namespace Job

def Begins (job : Job) (now : Timestamp) (output : Output) (session : Session) (start : Run) :
    Prop :=
  ∃ log after, job.openLog now (session.tell .job .info job.startNotice) = (.ok log, after) ∧
    start = {
      output, session := after
      tracker := { limit := job.config.errors.maxFailures, log } }

theorem Begins.fresh {job : Job} {now : Timestamp} {output : Output} {session : Session}
    {start : Run} (begins : job.Begins now output session start) :
    start.output = output ∧ start.summary = {} ∧ start.tracker.failures = [] := by
  obtain ⟨log, after, _, rfl⟩ := begins
  exact ⟨rfl, rfl, rfl⟩

def ended (job : Job) (result : Except FatalError Unit) (run : Run) :
    Except JobError Summary × Run :=
  conclude (job.deliver result run).1
    (closeLog (job.deliver result run).1 (job.deliver result run).2)

theorem runWith_of_begins {job : Job} {now : Timestamp} {output : Output} {session : Session}
    {start : Run} (begins : job.Begins now output session start) (schedule : Schedule) :
    job.runWith schedule now output session =
      job.ended (job.importSources schedule start job.config.source.paths).1
        (job.importSources schedule start job.config.source.paths).2 := by
  obtain ⟨log, after, opened, rfl⟩ := begins
  unfold runWith
  simp only [opened]
  rfl

theorem begins_of_aborted {job : Job} {schedule : Schedule} {now : Timestamp} {output : Output}
    {session : Session} {cause : FatalError} {summary : Summary} {run : Run}
    (aborted : job.runWith schedule now output session = (.error (.aborted cause summary), run)) :
    ∃ start, job.Begins now output session start := by
  unfold runWith at aborted
  rcases opened : job.openLog now (session.tell .job .info job.startNotice) with ⟨_ | log, after⟩
  · simp only [opened] at aborted
    cases aborted
  · exact ⟨_, log, after, opened, rfl⟩

theorem closeLog_eq (result : Except FatalError Unit) (run : Run) :
    (closeLog result run).output = run.output ∧
      (closeLog result run).summary = run.summary ∧
      (closeLog result run).tracker.failures = run.tracker.failures := by
  unfold closeLog
  split
  · exact ⟨rfl, rfl, rfl⟩
  · exact ⟨rfl, rfl, (run.tracker.failures_finalizeLog run.session).1⟩

/-- The error of an import, or else that of the flush behind it. -/
def outcome (job : Job) (result : Except FatalError Unit) (flushed : Except String Unit) :
    Except FatalError Unit :=
  match result with
  | .error e => .error e
  | .ok () => flushed.mapError fun cause => .outputWrite job.config.output.path (some cause)

/-- The reported error is that of the import.  A flush can only add one if there was none. -/
theorem outcome_error {job : Job} {result : Except FatalError Unit}
    {flushed : Except String Unit} {cause : FatalError}
    (failed : job.outcome result flushed = .error cause) :
    result = .error cause ∨ result = .ok () ∧ ∃ text, flushed = .error text ∧
      cause = .outputWrite job.config.output.path (some text) := by
  cases result with
  | error e =>
      cases failed
      exact .inl rfl
  | ok =>
      cases flushed with
      | error text =>
          cases failed
          exact .inr ⟨rfl, text, rfl, rfl⟩
      | ok => cases failed

theorem deliver_sink (job : Job) (result : Except FatalError Unit) {run : Run} {last : Sink}
    (isLast : run.output = .sink last) :
    job.deliver result run =
      (job.outcome result last.flush.1, { run with output := .sink last.flush.2 }) := by
  unfold deliver outcome
  rw [isLast]
  rfl

/-- The end of a job flushes its sink and sums up. -/
theorem ended_sink (job : Job) (result : Except FatalError Unit) {run : Run} {last : Sink}
    (isLast : run.output = .sink last) :
    let summary := { run.summary with failures := run.tracker.failures }
    ∃ after, after.output = .sink last.flush.2 ∧
      job.ended result run =
        (((job.outcome result last.flush.1).mapError (.aborted · summary)).map fun _ => summary,
          after) := by
  obtain ⟨output, summary, failures⟩ :=
    closeLog_eq (job.deliver result run).1 (job.deliver result run).2
  unfold ended
  rw [job.deliver_sink result isLast] at output summary failures ⊢
  generalize closeLog _ _ = closed at output summary failures
  unfold conclude
  rw [summary, failures]
  cases job.outcome result last.flush.1 with
  | error e =>
      refine ⟨_, ?_, rfl⟩
      exact output
  | ok =>
      refine ⟨_, ?_, rfl⟩
      exact output

section

variable {job : Job} {parts written : List Part} {result : Except FatalError Unit} {gain : Gain}

theorem Delivers.filterMap (delivers : job.Delivers parts result gain written) :
    written.filterMap job.partOutput? = gain.outputs := by
  have picked := congrArg (List.filterMap id) delivers.outputs
  rw [List.filterMap_map, List.filterMap_map] at picked
  exact picked.trans List.filterMap_some

theorem Delivers.isSome (delivers : job.Delivers parts result gain written) :
    ∀ part ∈ written, (job.partOutput? part).isSome := by
  intro part member
  have listed := List.mem_map_of_mem (f := job.partOutput?) member
  rw [delivers.outputs] at listed
  obtain ⟨output, _, same⟩ := List.mem_map.mp listed
  rw [← same]
  rfl

/-- The documents that were counted are the line feeds that were written. -/
theorem Delivers.lineFeeds (delivers : job.Delivers parts result gain written) :
    (gain.outputs.map (·.counts.written)).sum =
      Bytes.lineFeeds (gain.outputs.flatMap (·.bytes)) := by
  have each : ∀ output ∈ gain.outputs, output.counts.written = output.bytes.lineFeeds := by
    intro output member
    rw [← delivers.filterMap] at member
    obtain ⟨part, _, found⟩ := List.mem_filterMap.mp member
    exact (lineFeeds_output? found).symm
  rw [List.map_congr_left each, Bytes.lineFeeds, List.count_flatMap]
  rfl

end

/-- An aborted job reports exactly what reached its output.  Unless a shutdown was asked for,
these are the first of the parts that can be ingested. -/
theorem runWith_aborted {job : Job} {schedule : Schedule} {now : Timestamp} {s : Sink}
    {session : Session} {cause : FatalError} {summary : Summary} {run : Run}
    (aborted : job.runWith schedule now (.sink s) session =
      (.error (.aborted cause summary), run)) :
    ∃ start result imported last written tail,
      let parts := Source.parts (job.sourcesRead schedule start job.config.source.paths)
      job.Begins now (.sink s) session start ∧
      job.importSources schedule start job.config.source.paths = (result, imported) ∧
      imported.output = .sink last ∧ run.output = .sink last.flush.2 ∧ last.flushes = s.flushes ∧
      written.Sublist parts ∧ (∀ part ∈ written, (job.partOutput? part).isSome) ∧
      (0 < job.config.source.maxConcurrent → summary.cancelled = false →
        written <+: job.successful parts) ∧
      last.flush.2.contents =
        s.contents ++ (written.filterMap job.partOutput?).flatMap (·.bytes) ++ tail ∧
      (tail = [] ∨ ∃ part next text,
        result = .error (.outputWrite job.config.output.path (some text)) ∧
          (written ++ [part]).Sublist parts ∧
          (0 < job.config.source.maxConcurrent → summary.cancelled = false →
            written ++ [part] <+: job.successful parts) ∧
          job.partOutput? part = some next ∧ tail <+: next.bytes ∧ tail ≠ next.bytes) ∧
      summary.chunksSucceeded = written.length ∧
      summary.counts.written =
        Bytes.lineFeeds ((written.filterMap job.partOutput?).flatMap (·.bytes)) ∧
      summary.bytesWritten = ((written.filterMap job.partOutput?).flatMap (·.bytes)).length ∧
      summary.chunksFailed = summary.failures.length ∧
      (result = .error cause ∨ result = .ok () ∧ ∃ text, last.flush.1 = .error text ∧
        cause = .outputWrite job.config.output.path (some text)) := by
  obtain ⟨start, begins⟩ := begins_of_aborted aborted
  rw [runWith_of_begins begins] at aborted
  obtain ⟨sink, fresh, none⟩ := begins.fresh
  obtain ⟨gain, written, gains, delivers⟩ :=
    job.delivers_importSources schedule job.config.source.paths start (by rw [sink]; rfl)
  rcases imports : job.importSources schedule start job.config.source.paths with ⟨result, imported⟩
  rw [imports] at gains delivers aborted
  cases isLast : imported.output with
  | file path buffered =>
      have same := gains.isSink
      rw [isLast, sink] at same
      cases same
  | sink last =>
      obtain ⟨after, output, ends⟩ := job.ended_sink result isLast
      rw [ends] at aborted
      obtain ⟨concluded, rfl⟩ := Prod.mk.inj aborted
      have known : job.outcome result last.flush.1 = .error cause ∧
          summary = { imported.summary with failures := imported.tracker.failures } := by
        cases failed : job.outcome result last.flush.1 with
        | error e =>
            rw [failed] at concluded
            cases concluded
            exact ⟨rfl, rfl⟩
        | ok =>
            rw [failed] at concluded
            cases concluded
      obtain ⟨failed, rfl⟩ := known
      have covers := gains.covers fresh none
      have reported := outcome_error failed
      have stopped : imported.summary.cancelled = gain.stopped := by
        rw [gains.stopped, fresh]
        exact Bool.false_or _
      refine ⟨start, result, imported, last, written, gain.tail, begins, imports, isLast, output,
        ?_, delivers.order, delivers.isSome, stopped ▸ delivers.front, ?_,
        stopped ▸ delivers.tail, ?_, ?_, ?_, ?_, reported⟩
      · have same := gains.flushes
        rw [isLast, sink] at same
        exact same
      · have holds := gains.holds (.inl (by rw [sink]; rfl)) s.contents (by rw [sink]; exact .sink)
        rw [isLast, Gain.bytes, ← List.append_assoc, ← delivers.filterMap] at holds
        exact holds.contents_eq
      · have counted := covers.succeeded
        rwa [← delivers.filterMap, List.filterMap_length_eq_length.mpr delivers.isSome] at counted
      · rw [delivers.filterMap, ← delivers.lineFeeds]
        exact covers.written
      · rw [delivers.filterMap, List.length_flatMap]
        exact covers.bytesWritten
      · exact covers.failed.trans covers.failures.length_eq.symm

/-- Two chunks, and a sink that has room for the first one and a part of the second. -/
theorem runWith_aborted_fullSink :
    let job : Job := {
      config := { source := { paths := ["memory://rows.csv"], chunkSize := 1, maxConcurrent := 1 } }
      dialect := {}
      header := none }
    let session : Session := { store := { memory := [(⟨["rows.csv"]⟩, [97, 10, 49, 10, 50, 10])] } }
    ∃ summary run,
      job.runWith {} {} (.sink { room := some 13 }) session =
        (.error (.aborted (.outputWrite "-" (some "sink is full")) summary), run) ∧
      ∃ (last : Sink) (written : List Part) (part : Part) (next : ChunkOutput) (tail : Bytes),
        run.output = .sink last.flush.2 ∧ last.flushes = 0 ∧
        last.flush.2.contents = (written.filterMap job.partOutput?).flatMap (·.bytes) ++ tail ∧
        written.length = 1 ∧ summary.chunksSucceeded = 1 ∧ summary.bytesWritten = 10 ∧
        job.partOutput? part = some next ∧ tail.length = 3 ∧ tail <+: next.bytes ∧
        tail ≠ next.bytes := by
  intro job session
  have result : (job.runWith {} {} (.sink { room := some 13 }) session).1 =
      .error (.aborted (.outputWrite "-" (some "sink is full")) {
        counts := ⟨1, 0⟩, sources := 1, chunksSucceeded := 1, bytesWritten := 10 }) := by
    decide +kernel
  have taken : (job.runWith {} {} (.sink { room := some 13 }) session).2.output =
      .sink { room := some 0, taken := [[123, 34, 97], Utf8.encode "\x7b\"a\":\"1\"\x7d\n"]
              writes := 2, flushes := 1 } := by
    decide +kernel
  have ran : job.runWith {} {} (.sink { room := some 13 }) session =
      (_, (job.runWith {} {} (.sink { room := some 13 }) session).2) := Prod.ext result rfl
  obtain ⟨_, _, _, last, written, tail, -, -, -, output, flushes, -, -, -, contents, rest,
    succeeded, -, bytes, -, -⟩ := runWith_aborted ran
  have empty : Sink.contents { room := some 13 } = [] := rfl
  rw [empty, List.nil_append] at contents
  have held := congrArg (·.contents.length) (Output.sink.inj (output.symm.trans taken))
  have part : tail.length = 3 := by
    simp only [contents, List.length_append, ← bytes] at held
    exact Nat.add_left_cancel held
  rcases rest with rfl | ⟨next, made, -, -, -, -, found, front, other⟩
  · cases part
  · exact ⟨_, _, ran, last, written, next, made, tail, output, flushes, contents, succeeded.symm,
      rfl, rfl, found, part, front, other⟩

end Job

end CsvImport

import CsvImport.Proofs.Importing
import CsvImport.Proofs.Ingestion
import Mathlib.Data.List.Basic

/-!
# Where the chunks of a source are

While a source is imported, each of its chunks is in one place: it is queued, in
flight, waiting for an earlier chunk, written, failed or cancelled.  The output and the
summary of the job tell the chunks that are written from all the others.
-/

namespace CsvImport

/-- Where a chunk is while its source is imported. -/
inductive Place where
  | queued
  | inFlight
  /-- It has succeeded, and an earlier chunk has not ended. -/
  | waiting
  | written
  | failed
  | cancelled
deriving DecidableEq, Repr

/-- The chunks of a source that are in a place, in index order. -/
def Source.chunksAt (source : Source) (place : Nat → Place) (here : Place) : List Chunk :=
  source.chunks.filter fun chunk => place chunk.id.index = here

/-- The place of a chunk by its fate, if `started` chunks were started and the reorder buffer
begins at `next`. -/
def Fates.place (fates : Fates) (started next index : Nat) : Place :=
  match fates index with
  | none => if started ≤ index then .queued else .inFlight
  | some (.succeeded _) => if index < next then .written else .waiting
  | some (.failed _) => .failed
  | some .cancelled => .cancelled

namespace Job

def Step.goesOn : Step → Bool
  | .again .. => true
  | .done .. => false

/-- The states between the steps of an import. -/
inductive Reaches (job : Job) (schedule : Schedule) (source : Source) (start : Run)
    (initial : Flight) : Run → Flight → Prop where
  | start : Reaches job schedule source start initial start initial
  | step {run after : Run} {flight left : Flight}
      (reached : Reaches job schedule source start initial run flight)
      (again : job.advance schedule source run flight = .again after left) :
      Reaches job schedule source start initial after left

/-- Every chunk is in its place, and the job has gained what the places say. -/
structure Places (job : Job) (source : Source) (start run : Run) (flight : Flight)
    (place : Nat → Place) : Prop where
  queued : flight.queued = source.chunksAt place .queued
  inFlight : flight.inFlight.Perm (source.chunksAt place .inFlight)
  within : flight.inFlight.length ≤ job.config.source.maxConcurrent
  /-- The outputs in the reorder buffer are those of the chunks that wait. -/
  waiting : ∀ chunk ∈ source.chunks, ∀ output,
    flight.reorder.pending.lookup chunk.id.index = some (some output) ↔
      place chunk.id.index = .waiting ∧ job.output? source chunk = some output
  ready : ∀ chunk ∈ source.chunksAt place .waiting, (job.output? source chunk).isSome
  written : ∀ chunk ∈ source.chunksAt place .written, (job.output? source chunk).isSome
  failed : ∀ chunk ∈ source.chunksAt place .failed, (job.failure? source chunk).isSome
  /-- The output has grown by the written chunks; a file has if no failure log is on its disk. -/
  holds : start.output.isSink ∨ start.tracker.log = none →
    ∀ held, start.output.Holds start.session held →
      run.output.Holds run.session
        (held ++ ((source.chunksAt place .written).filterMap (job.output? source)).flatMap
          (·.bytes))
  documents : run.summary.counts.written = start.summary.counts.written +
    (((source.chunksAt place .written).filterMap (job.output? source)).map
      (·.counts.written)).sum
  skipped : run.summary.counts.skipped = start.summary.counts.skipped +
    (((source.chunksAt place .written).filterMap (job.output? source)).map
      (·.counts.skipped)).sum
  bytes : run.summary.bytesWritten = start.summary.bytesWritten +
    (((source.chunksAt place .written).filterMap (job.output? source)).map
      (·.bytes.length)).sum
  chunksSucceeded : run.summary.chunksSucceeded =
    start.summary.chunksSucceeded + (source.chunksAt place .written).length
  chunksFailed : run.summary.chunksFailed =
    start.summary.chunksFailed + (source.chunksAt place .failed).length
  failures : ∃ failures, run.tracker.failures = start.tracker.failures ++ failures ∧
    failures.Perm ((source.chunksAt place .failed).filterMap (job.failure? source))
  chunksCancelled : run.summary.chunksCancelled =
    start.summary.chunksCancelled + (source.chunksAt place .cancelled).length

section

variable {job : Job} {source : Source} {fates : Fates}

/-- A chunk that has ended by itself has ended as its ingestion did. -/
theorem Ends.picked {chunk : Chunk} {fate : Fate} (ends : job.Ends source chunk fate)
    (byItself : fate ≠ .cancelled) :
    fate.output? = job.output? source chunk ∧ fate.failure? = job.failure? source chunk := by
  unfold Job.output? Job.failure?
  cases ends with
  | succeeded ingested =>
      rw [ingested]
      exact ⟨rfl, rfl⟩
  | failed ingested =>
      rw [ingested]
      exact ⟨rfl, rfl⟩
  | cancelled => exact absurd rfl byItself

theorem Agrees.output? (agrees : job.Agrees source fates) :
    ∀ chunk ∈ source.chunks, ∀ fate, fates chunk.id.index = some fate →
      ∀ output, fate.output? = some output → job.output? source chunk = some output := by
  intro chunk member fate found output picked
  have byItself : fate ≠ .cancelled := by
    rintro rfl
    cases picked
  rw [← ((agrees chunk member fate found).picked byItself).1, picked]

theorem Agrees.failure? (agrees : job.Agrees source fates) :
    ∀ chunk ∈ source.chunks, ∀ fate, fates chunk.id.index = some fate →
      ∀ failure, fate.failure? = some failure → job.failure? source chunk = some failure := by
  intro chunk member fate found failure picked
  have byItself : fate ≠ .cancelled := by
    rintro rfl
    cases picked
  rw [← ((agrees chunk member fate found).picked byItself).2, picked]

end

end Job

namespace Chunk.Numbered

variable {chunks : List Chunk} {fates : Fates} {α : Type}

theorem take (numbered : Numbered chunks) (n : Nat) : Numbered (chunks.take n) := by
  unfold Numbered
  rw [List.map_take, numbered, List.take_range, List.length_take]

/-- What is collected by index is collected by chunk. -/
theorem collect (numbered : Numbered chunks) (fates : Fates) (pick : Fate → Option α) {n : Nat}
    (within : n ≤ chunks.length) :
    fates.collect pick n =
      (chunks.take n).filterMap fun chunk => (fates chunk.id.index).bind pick := by
  have picked := (numbered.take n).filterMap_range fun index => (fates index).bind pick
  rw [List.length_take, Nat.min_eq_left within] at picked
  exact picked

/-- Chunks that all stand before an index are among the first ones. -/
theorem filter_before (numbered : Numbered chunks) {n : Nat} {test : Chunk → Bool}
    (before : ∀ chunk ∈ chunks, test chunk → chunk.id.index < n) :
    chunks.filter test = (chunks.take n).filter test := by
  have behind : (chunks.drop n).filter test = [] := by
    apply List.filter_eq_nil_iff.mpr
    intro chunk member passed
    have late := numbered.le_of_mem_drop member
    exact Nat.not_lt.mpr late (before chunk (List.mem_of_mem_drop member) passed)
  rw [← List.append_nil ((chunks.take n).filter test), ← behind, ← List.filter_append,
    List.take_append_drop]

end Chunk.Numbered

namespace Fates

variable (fates : Fates) (started next index : Nat)

theorem place_eq_queued :
    fates.place started next index = .queued ↔ fates index = none ∧ started ≤ index := by
  unfold place
  by_cases old : started ≤ index <;> by_cases past : index < next <;>
    rcases fates index with _ | (_ | _ | _) <;>
    simp [old, past]

theorem place_eq_inFlight :
    fates.place started next index = .inFlight ↔ fates index = none ∧ ¬started ≤ index := by
  unfold place
  by_cases old : started ≤ index <;> by_cases past : index < next <;>
    rcases fates index with _ | (_ | _ | _) <;>
    simp [old, past]

theorem place_eq_written :
    fates.place started next index = .written ↔
      ((fates index).bind Fate.output?).isSome ∧ index < next := by
  unfold place
  by_cases old : started ≤ index <;> by_cases past : index < next <;>
    rcases fates index with _ | (_ | _ | _) <;>
    simp [old, past, Fate.output?]

theorem place_eq_waiting :
    fates.place started next index = .waiting ↔
      ((fates index).bind Fate.output?).isSome ∧ ¬index < next := by
  unfold place
  by_cases old : started ≤ index <;> by_cases past : index < next <;>
    rcases fates index with _ | (_ | _ | _) <;>
    simp [old, past, Fate.output?]

theorem place_eq_failed :
    fates.place started next index = .failed ↔ ((fates index).bind Fate.failure?).isSome := by
  unfold place
  by_cases old : started ≤ index <;> by_cases past : index < next <;>
    rcases fates index with _ | (_ | _ | _) <;>
    simp [old, past, Fate.failure?]

theorem place_eq_cancelled :
    fates.place started next index = .cancelled ↔
      ((fates index).bind Fate.cancelled?).isSome := by
  unfold place
  by_cases old : started ≤ index <;> by_cases past : index < next <;>
    rcases fates index with _ | (_ | _ | _) <;>
    simp [old, past, Fate.cancelled?]

end Fates

namespace Source

variable {source : Source} {fates : Fates} {started next : Nat}

theorem chunksAt_queued (numbered : Chunk.Numbered source.chunks)
    (unstarted : ∀ index, started ≤ index → fates index = none) :
    source.chunksAt (fates.place started next) .queued = source.chunks.drop started := by
  have parts := List.take_append_drop started source.chunks
  unfold chunksAt
  rw [← parts, List.filter_append, parts, List.filter_eq_nil_iff.mpr, List.nil_append,
    List.filter_eq_self.mpr]
  · intro chunk member
    have behind := numbered.le_of_mem_drop member
    simp only [Fates.place_eq_queued, decide_eq_true_eq]
    exact ⟨unstarted _ behind, behind⟩
  · intro chunk member
    have before := numbered.lt_of_mem_take member
    simp only [Fates.place_eq_queued, decide_eq_true_eq]
    exact fun queued => Nat.not_lt.mpr queued.2 before

theorem chunksAt_inFlight (numbered : Chunk.Numbered source.chunks) :
    source.chunksAt (fates.place started next) .inFlight =
      (source.chunks.take started).filter fun chunk => (fates chunk.id.index).isNone := by
  unfold chunksAt
  rw [numbered.filter_before (n := started)]
  · apply List.filter_congr
    intro chunk member
    have before := Nat.not_le.mpr (numbered.lt_of_mem_take member)
    rw [Bool.eq_iff_iff, decide_eq_true_eq, Fates.place_eq_inFlight, Option.isNone_iff_eq_none]
    exact and_iff_left before
  · intro chunk _ flying
    rw [decide_eq_true_eq, Fates.place_eq_inFlight] at flying
    exact Nat.not_le.mp flying.2

/-- What is collected from the fates is found where these fates lead. -/
theorem filterMap_chunksAt {α : Type} (numbered : Chunk.Numbered source.chunks)
    {place : Nat → Place} {here : Place} {pick : Fate → Option α} {n : Nat}
    (within : n ≤ source.chunks.length)
    (there : ∀ chunk ∈ source.chunks, place chunk.id.index = here ↔
      ((fates chunk.id.index).bind pick).isSome ∧ chunk.id.index < n)
    {f : Chunk → Option α}
    (agrees : ∀ chunk ∈ source.chunks, ∀ fate, fates chunk.id.index = some fate →
      ∀ picked, pick fate = some picked → f chunk = some picked) :
    (source.chunksAt place here).filterMap f = fates.collect pick n ∧
      ∀ chunk ∈ source.chunksAt place here, (f chunk).isSome := by
  have same : ∀ chunk ∈ source.chunks, ∀ picked,
      (fates chunk.id.index).bind pick = some picked → f chunk = some picked := by
    intro chunk member picked found
    obtain ⟨fate, ended, found⟩ := Option.bind_eq_some_iff.mp found
    exact agrees chunk member fate ended picked found
  constructor
  · unfold chunksAt
    rw [numbered.filter_before (n := n), numbered.collect fates pick within,
      List.filterMap_filter]
    · apply List.filterMap_congr
      intro chunk member
      have before := numbered.lt_of_mem_take member
      have listed := List.mem_of_mem_take member
      simp only [decide_eq_true_eq, there chunk listed, before, and_true]
      cases found : (fates chunk.id.index).bind pick with
      | none => rfl
      | some picked => exact same chunk listed picked found
    · intro chunk member isHere
      exact ((there chunk member).mp (of_decide_eq_true isHere)).2
  · intro chunk member
    obtain ⟨listed, isHere⟩ := List.mem_filter.mp member
    obtain ⟨picked, found⟩ := Option.isSome_iff_exists.mp
      ((there chunk listed).mp (of_decide_eq_true isHere)).1
    rw [same chunk listed picked found]
    rfl

end Source

namespace Job

variable {job : Job} {source : Source} {fates : Fates} {start run : Run} {flight : Flight}
  {gain : Gain}

/-- A chunk that waits has ended with the output of its ingestion. -/
theorem Agrees.waiting (agrees : job.Agrees source fates) {chunk : Chunk}
    (member : chunk ∈ source.chunks) {started next : Nat}
    (waits : fates.place started next chunk.id.index = .waiting) :
    ∃ fate output, fates chunk.id.index = some fate ∧ fate.output? = some output ∧
      job.output? source chunk = some output := by
  obtain ⟨some, -⟩ := (Fates.place_eq_waiting ..).mp waits
  obtain ⟨output, found⟩ := Option.isSome_iff_exists.mp some
  obtain ⟨fate, ended, picked⟩ := Option.bind_eq_some_iff.mp found
  exact ⟨fate, output, ended, picked, agrees.output? chunk member fate ended output picked⟩

/-- The reorder buffer holds the outputs of the chunks that wait. -/
theorem Accounts.lookup (accounts : job.Accounts source fates flight gain) (started : Nat)
    {chunk : Chunk} (member : chunk ∈ source.chunks) (output : ChunkOutput) :
    flight.reorder.pending.lookup chunk.id.index = some (some output) ↔
      fates.place started flight.reorder.next chunk.id.index = .waiting ∧
        job.output? source chunk = some output := by
  rw [accounts.follows.lookup]
  constructor
  · intro held
    split at held
    · cases held
    · rename_i behind
      obtain ⟨fate, ended, picked⟩ := Option.map_eq_some_iff.mp held
      refine ⟨(Fates.place_eq_waiting ..).mpr ⟨?_, behind⟩,
        accounts.agrees.output? chunk member fate ended output picked⟩
      rw [ended, Option.bind_some, picked]
      rfl
  · rintro ⟨waits, ingested⟩
    obtain ⟨fate, other, ended, picked, same⟩ := accounts.agrees.waiting member waits
    obtain rfl : other = output := Option.some.inj (same.symm.trans ingested)
    rw [if_neg ((Fates.place_eq_waiting ..).mp waits).2, ended, Option.map_some, picked]

theorem Accounts.places (accounts : job.Accounts source fates flight gain)
    (numbered : Chunk.Numbered source.chunks) (gains : start.Gains run gain) :
    ∃ place, job.Places source start run flight place := by
  obtain ⟨started, fits⟩ := accounts.fits
  have inside := accounts.follows.next_le_of_none (accounts.beyond _ (Nat.le_refl _))
  let place := fates.place started flight.reorder.next
  obtain ⟨written, succeeded⟩ := Source.filterMap_chunksAt numbered inside
    (fun chunk _ => fates.place_eq_written started flight.reorder.next chunk.id.index)
    accounts.agrees.output?
  obtain ⟨failed, refused⟩ := Source.filterMap_chunksAt numbered (Nat.le_refl _)
    (fun chunk member => (fates.place_eq_failed started flight.reorder.next chunk.id.index).trans
      (and_iff_left (numbered.index_lt member)).symm) accounts.agrees.failure?
  obtain ⟨cancelled, counted⟩ := Source.filterMap_chunksAt numbered (Nat.le_refl _)
    (fun chunk member => (fates.place_eq_cancelled started flight.reorder.next
      chunk.id.index).trans (and_iff_left (numbered.index_lt member)).symm)
    (f := fun _ => some ()) (fun _ _ _ _ _ _ => rfl)
  rw [← accounts.tallies.outputs] at written
  refine ⟨place, {
    queued := ?_
    inFlight := ?_
    within := accounts.within
    waiting := fun _ member => accounts.lookup started member
    ready := ?_
    written := succeeded
    failed := refused
    holds := ?_
    documents := ?_
    skipped := ?_
    bytes := ?_
    chunksSucceeded := ?_
    chunksFailed := ?_
    failures := ⟨gain.failures, gains.failures, ?_⟩
    chunksCancelled := ?_ }⟩
  · rw [Source.chunksAt_queued numbered fits.unstarted]
    exact fits.queued
  · rw [Source.chunksAt_inFlight numbered]
    exact fits.inFlight
  · intro chunk waits
    obtain ⟨member, isHere⟩ := List.mem_filter.mp waits
    obtain ⟨_, output, -, -, ended⟩ :=
      accounts.agrees.waiting member (of_decide_eq_true isHere)
    rw [ended]
    rfl
  · rw [written]
    intro own held holding
    have holds := gains.holds own held holding
    rw [Gain.bytes, accounts.tallies.whole, List.append_nil] at holds
    exact holds
  · rw [written]
    exact gains.written
  · rw [written]
    exact gains.skipped
  · rw [written]
    exact gains.bytesWritten
  · rw [gains.succeeded, ← written, List.filterMap_length_eq_length.mpr succeeded]
  · rw [gains.failed, accounts.tallies.failures.length_eq, ← failed,
      List.filterMap_length_eq_length.mpr refused]
  · rw [failed]
    exact accounts.tallies.failures
  · rw [gains.cancelled, accounts.tallies.cancelled, ← cancelled,
      List.filterMap_length_eq_length.mpr counted]

theorem Reaches.accounts {schedule : Schedule}
    (reached : job.Reaches schedule source start { queued := source.chunks } run flight)
    (numbered : Chunk.Numbered source.chunks) :
    ∃ fates gain, start.Gains run gain ∧ job.Accounts source fates flight gain := by
  induction reached with
  | start => exact ⟨_, {}, start.gains_self, job.accounts_start source⟩
  | @step run after flight left reached again ih =>
      obtain ⟨fates, gain, gains, accounts⟩ := ih
      have accounted := accounts.advance numbered schedule run
      rw [again] at accounted
      obtain ⟨fates, more, later, still⟩ := accounted
      exact ⟨fates, _, gains.trans accounts.tallies.whole later, still⟩

/-- No chunk is lost and none is counted twice.  While a prepared source is imported, every
chunk is in one place, and an import that succeeds has counted every chunk once. -/
theorem importSource_places {job : Job} (schedule : Schedule) {source : Source}
    {chunkSize : Nat} {path : String} {data : Bytes}
    (prepared : Source.prepare job.dialect job.header chunkSize path data = .ok (some source))
    (positive : 0 < job.config.source.maxConcurrent) (start : Run) :
    (source.chunks.map (·.id.index) = List.range source.chunks.length ∧
      ∀ run flight, job.Reaches schedule source start { queued := source.chunks } run flight →
        ∃ place, job.Places source start run flight place) ∧
      ∀ after, job.importSource schedule source start = (.ok (), after) →
        after.summary.chunksSucceeded + after.summary.chunksFailed +
            after.summary.chunksCancelled =
          start.summary.chunksSucceeded + start.summary.chunksFailed +
            start.summary.chunksCancelled + source.chunks.length ∧
          (start.summary.chunksCancelled < after.summary.chunksCancelled →
            after.summary.cancelled = true) := by
  have numbered := Chunk.numbered_of_prepare prepared
  constructor
  · constructor
    · exact numbered
    · intro run flight reached
      obtain ⟨fates, gain, gains, accounts⟩ := reached.accounts numbered
      exact accounts.places numbered gains
  · intro after imported
    obtain ⟨fates, next, gain, gains, settles⟩ :=
      job.settles_importSource schedule numbered start
    rw [imported] at gains settles
    have total := settles.total positive rfl
    rw [gains.succeeded, gains.failed, gains.cancelled, gains.stopped]
    constructor
    · omega
    · intro grown
      rw [settles.stopped (by omega), Bool.or_true]

/-- Two chunks of one row each, when one of them has ended. -/
theorem importSource_places_twoRows :
    let job : Job := {
      config := { source := { paths := ["rows.csv"], chunkSize := 1, maxConcurrent := 2 } }
      dialect := {}
      header := none }
    let data : Bytes := [97, 10, 49, 10, 50, 10]
    let source : Source := {
      path := "rows.csv"
      header := { names := ["a"], valid := ⟨by simp, by decide, by decide⟩ }
      chunks := [⟨⟨"rows.csv", 0, ⟨2, 4⟩⟩, 2⟩, ⟨⟨"rows.csv", 1, ⟨4, 6⟩⟩, 3⟩]
      data }
    let start : Run := { output := .sink {} }
    Source.prepare job.dialect job.header 1 "rows.csv" data = .ok (some source) ∧
      0 < job.config.source.maxConcurrent ∧
      ∃ run flight place,
        job.advance {} source start { queued := source.chunks } = .again run flight ∧
          job.Places source start run flight place := by
  intro job data source start
  have prepared : Source.prepare job.dialect job.header 1 "rows.csv" data =
      .ok (some source) := by decide +kernel
  have positive : 0 < job.config.source.maxConcurrent := by decide
  have goesOn : (job.advance {} source start { queued := source.chunks }).goesOn = true := by
    decide +kernel
  cases step : job.advance {} source start { queued := source.chunks } with
  | again run flight =>
      obtain ⟨place, places⟩ :=
        (importSource_places {} prepared positive start).1.2 run flight (.step .start step)
      exact ⟨prepared, positive, run, flight, place, rfl, places⟩
  | done result run =>
      rw [step] at goesOn
      cases goesOn

end Job

end CsvImport

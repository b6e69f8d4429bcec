import CsvImport.Proofs.Completing
import CsvImport.Proofs.HeaderNames
import CsvImport.Proofs.JsonReading
import CsvImport.Proofs.Renderings
import Mathlib.Data.Option.Basic

/-!
# Round trips

A table that is rendered and then imported comes out as one JSON object for every row,
with the names of the header and the fields of the row.
-/

namespace CsvImport

namespace Rendering

/-- A source that holds a rendering, behind a byte order mark or without one. -/
inductive Fills (d : Dialect) (rendering : Rendering) : Bytes → Prop where
  | marked : Fills d rendering (Bytes.byteOrderMark ++ rendering.bytes d)
  | plain (unmarked : ¬ Bytes.byteOrderMark <+: rendering.bytes d) :
      Fills d rendering (rendering.bytes d)

variable {d : Dialect} {rendering : Rendering} {source : Bytes}

theorem Fills.afterByteOrderMark (fills : rendering.Fills d source) :
    source.afterByteOrderMark = rendering.bytes d := by
  unfold Bytes.afterByteOrderMark Bytes.byteOrderMarkLength
  cases fills with
  | marked =>
      rw [if_pos (List.isPrefixOf_iff_prefix.mpr (List.prefix_append ..)), List.drop_left]
  | plain unmarked =>
      rw [if_neg fun marked => unmarked (List.isPrefixOf_iff_prefix.mp marked), List.drop_zero]

/-- The first record of a rendering is split off as the header, and a rendering is behind it. -/
theorem Fills.split (fills : rendering.Fills d source) (accepted : d.Accepted)
    (untrimmed : d.trimHeader = false) (renders : rendering.Renders d) {record : WrittenRecord}
    {more : List WrittenRecord} (isFirst : rendering.records = record :: more)
    (valid : Header.Valid record.texts) :
    ∃ (found : Header.Split) (rest : Rendering),
      Header.split d source = .ok (some found) ∧ found.header = ⟨record.texts, valid⟩ ∧
      source.drop found.dataStart = rest.bytes d ∧ rest.Renders d ∧ rest.records = more := by
  obtain ⟨front, rest, start, behind, same, fine, records, row⟩ :=
    Decoder.nextRow_rendering accepted renders isFirst 1 0
  refine ⟨⟨⟨record.texts, valid⟩, source.byteOrderMarkLength + front.length, behind⟩, rest, ?_,
    rfl, ?_, fine, records⟩
  · unfold Header.split
    rw [fills.afterByteOrderMark, Decoder.ofBytes_eq, row]
    simp only
    rw [untrimmed, Header.ofNames_of_valid valid, Nat.zero_add]
    rfl
  · have after := fills.afterByteOrderMark
    unfold Bytes.afterByteOrderMark at after
    rw [← List.drop_drop, after, same, List.drop_left]

end Rendering

/-! ## Rows and their objects -/

namespace ChunkOutput

def ofRow (names row : List String) : ChunkOutput :=
  ⟨Utf8.encode (Json.render (.object (Json.pairs names row)) ++ "\n"), ⟨1, 0⟩⟩

def ofRows (names : List String) (rows : List (List String)) : ChunkOutput :=
  join (rows.map (ofRow names))

/-- The objects of the rows are read back from their output, one for each line. -/
theorem parseLines?_ofRows (names : List String) (rows : List (List String)) :
    Json.parseLines? (ofRows names rows).bytes =
      some (rows.map fun row => .object (Json.pairs names row)) := by
  have read := Json.parseLines?_objects (rows.map (Json.pairs names))
    fun members listed => by
      obtain ⟨row, _, rfl⟩ := List.mem_map.mp listed
      exact Json.flat_pairs names row
  rw [List.flatMap_map, List.map_map] at read
  unfold ofRows
  rw [bytes_join, List.flatMap_map]
  exact read

/-- Every row is written, and none is skipped. -/
theorem counts_ofRows (names : List String) (rows : List (List String)) :
    (ofRows names rows).counts = ⟨rows.length, 0⟩ := by
  induction rows with
  | nil => rfl
  | cons row more ih =>
      change (⟨1, 0⟩ : Counts) + (ofRows names more).counts = _
      rw [ih]
      exact congrArg₂ Counts.mk (Nat.add_comm ..) rfl

end ChunkOutput

namespace Ingester

variable {ingester : Ingester}

/-- A row that fits the header becomes an object, whatever the policy is. -/
theorem itemOutput?_row {row : List String} (fits : row.length = ingester.header.names.length)
    (line : Nat) :
    ingester.itemOutput? (.ok (.row ⟨row, line⟩)) =
      some (.ofRow ingester.header.names row) := by
  have assembled : assemble ingester.policy ingester.header row =
      .ok (.document ⟨ingester.header, row, fits⟩) := dif_pos fits
  unfold itemOutput?
  simp only [assembled]
  rfl

/-- What is read for a rendering becomes the objects of its records. -/
theorem output?_items (d : Dialect) {pieces : List Piece} {last : Option WrittenRecord}
    (fits : ∀ record ∈ Rendering.records ⟨pieces, last⟩,
      record.texts.length = ingester.header.names.length) (line : Nat) :
    ingester.output? ((Rendering.items d last line pieces).map .ok) =
      some (.ofRows ingester.header.names
        ((Rendering.records ⟨pieces, last⟩).map (·.texts))) := by
  induction pieces generalizing line with
  | nil =>
      cases last with
      | none => rfl
      | some record =>
          have here := fits record (List.mem_cons_self ..)
          change ingester.output? [.ok (.row ⟨record.texts, line⟩)] = _
          rw [output?, itemOutput?_row here]
          rfl
  | cons piece later ih =>
      rw [Rendering.records_cons] at fits ⊢
      have rest := ih (fun record member => fits record (List.mem_append_right _ member))
        (line + (piece.bytes d).lineFeeds)
      rw [Rendering.items, List.map_cons, output?, rest]
      cases piece with
      | blank ending => exact congrArg some (ChunkOutput.nothing_append _)
      | record fields ending =>
          have here := fits fields (List.mem_append_left _ (List.mem_cons_self ..))
          unfold Piece.item
          rw [itemOutput?_row here]
          rfl

end Ingester

/-! ## The import of a rendering -/

namespace Job

section

variable {job : Job} {rendering : Rendering} {names : List String} {rows : List (List String)}
  {path : String} {session : Session} {data : Bytes}

/-- A chunk that can be ingested does not fail. -/
theorem failure?_eq_none {source : Source} {chunk : Chunk}
    (some : (job.output? source chunk).isSome) : job.failure? source chunk = none := by
  unfold output? at some
  unfold failure?
  cases ingested : (job.ingest source chunk).1 with
  | ok output => rfl
  | error e =>
      rw [ingested] at some
      cases some

/-- What a job finds at a path that holds a table: every chunk can be ingested, and the whole
becomes the objects of the rows. -/
structure Finds (job : Job) (session : Session) (path : String) (names : List String)
    (rows : List (List String)) : Prop where
  readable : job.Readable session path
  sequential : job.sequential? session path = some (.ofRows names rows)
  source : ∃ source, job.sourceAt? job.config.source.chunkSize session path = some source ∧
    ∀ chunk ∈ source.chunks, (job.output? source chunk).isSome

theorem finds_rendering (accepted : job.dialect.Accepted)
    (untrimmed : job.dialect.trimHeader = false) (headed : job.header = none)
    (renders : rendering.Renders job.dialect)
    (table : rendering.records.map (·.texts) = names :: rows) (valid : Header.Valid names)
    (fits : ∀ row ∈ rows, row.length = names.length)
    (fills : rendering.Fills job.dialect data) (loaded : (load path session).1 = .ok data) :
    job.Finds session path names rows := by
  obtain ⟨record, more, isFirst, rfl, rfl⟩ := List.map_eq_cons_iff.mp table
  obtain ⟨found, rest, split, header, behind, fine, rfl⟩ :=
    fills.split accepted untrimmed renders isFirst valid
  have splits : Source.split job.dialect job.header data = .ok (some found) := by
    rw [headed]
    exact split
  let source : Source := {
    path, header := found.header, data
    chunks := Source.number path data 0 found.dataLine
      (Chunk.plan job.dialect data found.dataStart job.config.source.chunkSize) }
  have prepared : Source.prepare job.dialect job.header job.config.source.chunkSize path data =
      .ok (some source) := by
    unfold Source.prepare
    rw [splits]
    rfl
  have whole : (job.ingester source).outputOf?
      (Decoder.ofBytes (data.drop found.dataStart) found.dataLine) =
        some (.ofRows record.texts (rest.records.map (·.texts))) := by
    have named : (job.ingester source).header.names = record.texts := congrArg (·.names) header
    have rowsFit : ∀ record ∈ rest.records,
        record.texts.length = (job.ingester source).header.names.length := by
      intro other member
      rw [named]
      exact fits other.texts (List.mem_map_of_mem member)
    rw [Ingester.outputOf?_eq, behind, Decoder.ofBytes_eq]
    change (job.ingester source).output? (Decoder.records job.dialect _).1 = _
    rw [Decoder.records_rendering accepted fine, Ingester.output?_items job.dialect rowsFit,
      named]
  refine ⟨⟨data, some found, loaded, splits⟩, ?_, source, ?_, ?_⟩
  · unfold sequential?
    simp only [loaded, splits]
    exact whole
  · rw [sourceAt?_of_load loaded, prepared]
    rfl
  · exact isSome_of_outputOf? accepted splits prepared whole

end

/-- A table that is rendered in the dialect of a job comes out of it as it was: one JSON object
for every row, which pairs the names of the header with the fields of the row. -/
theorem runWith_roundTrip {job : Job} (accepted : job.dialect.Accepted)
    (untrimmed : job.dialect.trimHeader = false) (headed : job.header = none)
    (positive : 0 < job.config.source.maxConcurrent) {path : String}
    (single : job.config.source.paths = [path]) {names : List String}
    {rows : List (List String)} (valid : Header.Valid names)
    (fits : ∀ row ∈ rows, row.length = names.length) {rendering : Rendering}
    (renders : rendering.Renders job.dialect)
    (table : rendering.records.map (·.texts) = names :: rows) {data : Bytes}
    (fills : rendering.Fills job.dialect data) {session : Session}
    (loaded : (load path session).1 = .ok data) {s : Sink} (accepting : s.Accepting)
    {schedule : Schedule} (calm : schedule.Calm) {now : Timestamp} {start : Run}
    (begins : job.Begins now (.sink s) session start) :
    ∃ summary run last bytes,
      job.runWith schedule now (.sink s) session = (.ok summary, run) ∧
        run.output = .sink last ∧ last.contents = s.contents ++ bytes ∧
        Json.parseLines? bytes =
          some (rows.map fun row => .object (Json.pairs names row)) ∧
        summary.counts = ⟨rows.length, 0⟩ ∧ summary.chunksFailed = 0 ∧ summary.failures = [] := by
  obtain ⟨readable, sequential, source, found, sound⟩ :=
    finds_rendering accepted untrimmed headed renders table valid fits fills loaded
  have sources : job.sourcesAt job.config.source.chunkSize session [path] = [source] := by
    unfold sourcesAt
    rw [List.filterMap_cons, found]
    rfl
  have parts : ∀ part ∈ Source.parts (job.sourcesAt job.config.source.chunkSize session [path]),
      (job.partOutput? part).isSome := by
    rw [sources, Source.parts, List.flatMap_singleton]
    intro part member
    obtain ⟨chunk, listed, rfl⟩ := List.mem_map.mp member
    exact sound chunk listed
  have readables : ∀ other ∈ [path], job.Readable session other := by
    intro other member
    rw [List.mem_singleton.mp member]
    exact readable
  -- Whatever the chunk size is, the chunks together become what the whole source becomes.
  obtain ⟨whole, known, same⟩ := sequential_of_complete accepted readables parts
  obtain rfl : [ChunkOutput.ofRows names rows] = whole := by
    rw [List.map_singleton, sequential] at known
    exact (List.map_injective_iff.mpr (Option.some_injective _)) known
  have completed := begins.completes positive (single ▸ readables)
    (single ▸ fun part member => .inr (parts part member)) accepting calm
  rw [single] at completed
  obtain ⟨gain, summary, run, last, ran, output, contents, covers, completes⟩ := completed
  have outputs : ChunkOutput.join gain.outputs = ChunkOutput.join [.ofRows names rows] := by
    rw [completes.outputs, same]
  have failures : gain.failures = [] := by
    have none : ∀ part ∈ Source.parts (job.sourcesAt job.config.source.chunkSize session [path]),
        job.partFailure? part = none := fun part member => failure?_eq_none (parts part member)
    rw [← List.perm_nil, ← List.filterMap_eq_nil_iff.mpr none]
    exact completes.failures
  refine ⟨summary, run, last, _, ran, output, contents, ?_, ?_, ?_, ?_⟩
  · rw [← ChunkOutput.bytes_join, outputs, ChunkOutput.bytes_join, List.flatMap_singleton]
    exact ChunkOutput.parseLines?_ofRows names rows
  · have written := covers.written
    have skipped := covers.skipped
    rw [← ChunkOutput.written_join, outputs, ChunkOutput.written_join, List.map_singleton,
      List.sum_singleton, ChunkOutput.counts_ofRows] at written
    rw [← ChunkOutput.skipped_join, outputs, ChunkOutput.skipped_join, List.map_singleton,
      List.sum_singleton, ChunkOutput.counts_ofRows] at skipped
    exact congrArg₂ Counts.mk written skipped
  · rw [covers.failed, failures]
    rfl
  · exact List.perm_nil.mp (failures ▸ covers.failures)

/-- A byte order mark, a line end inside quotes, a doubled quote, a blank line and a last record
without a line end. -/
theorem runWith_roundTrip_quotedFields :
    let job : Job := {
      config := { source := { paths := ["memory://rows.csv"], chunkSize := 1 } }
      dialect := {}
      header := none }
    let rendering : Rendering := {
      pieces := [.record [⟨"a", false⟩, ⟨"b,", true⟩] .crlf, .blank .lf]
      last := some [⟨"1\n", true⟩, ⟨"\"", true⟩] }
    let data : Bytes := [0xEF, 0xBB, 0xBF, 97, 44, 34, 98, 44, 34, 13, 10, 10,
      34, 49, 10, 34, 44, 34, 34, 34, 34]
    let session : Session := { store := { memory := [(⟨["rows.csv"]⟩, data)] } }
    rendering.Renders {} ∧ rendering.Fills {} data ∧
      ∃ summary run last,
        job.runWith {} {} (.sink {}) session = (.ok summary, run) ∧ run.output = .sink last ∧
          Json.parseLines? last.contents =
            some [.object [("a", .string "1\n"), ("b,", .string "\"")]] ∧
          summary.counts = ⟨1, 0⟩ := by
  intro job rendering data session
  have renders : rendering.Renders {} := by decide
  have same : Bytes.byteOrderMark ++ rendering.bytes {} = data := by decide
  have fills : rendering.Fills {} data := same ▸ .marked
  have loaded : (load "memory://rows.csv" session).1 = .ok data := by decide +kernel
  have valid : Header.Valid ["a", "b,"] := ⟨by simp, by decide, by decide⟩
  have fits : ∀ row ∈ [["1\n", "\""]], row.length = ["a", "b,"].length := by decide
  have calm : Schedule.Calm {} := ⟨fun _ _ => rfl, fun _ => rfl⟩
  have begins : job.Begins {} (.sink {}) session _ := ⟨none, _, rfl, rfl⟩
  obtain ⟨summary, run, last, bytes, ran, output, contents, read, counts, _⟩ :=
    runWith_roundTrip Dialect.accepted_default rfl rfl (by decide) rfl valid fits renders rfl fills
      loaded Sink.accepting_default calm begins
  refine ⟨renders, fills, summary, run, last, ran, output, ?_, counts⟩
  rw [contents]
  exact read

end Job

end CsvImport

import CsvImport.Proofs.Ingestion
import CsvImport.Proofs.Positions

/-!
# The first failure

An ingestion takes the items of a decoder one by one and stops at the first that fails: a record
that cannot be decoded, a row that does not fit the header, or a line that the sink refuses.  Up to
there the sink was handed the lines of the documents in order, and every item was counted as a
document, as a row that is left out, or as a blank line.
-/

namespace CsvImport

namespace Sink

/-- Write pieces one after the other, up to the first that is refused. -/
def writeEach (rule : WriteRule) (sink : Sink) : List Bytes → Except String Unit × Sink
  | [] => (.ok (), sink)
  | piece :: later =>
      match sink.writeAll rule piece with
      | (.error cause, after) => (.error cause, after)
      | (.ok (), after) => after.writeEach rule later

variable {rule : WriteRule} {sink middle after : Sink} {pieces : List Bytes}

theorem writeEach_append (earlier : sink.writeEach rule pieces = (.ok (), middle))
    (more : List Bytes) :
    sink.writeEach rule (pieces ++ more) = middle.writeEach rule more := by
  induction pieces generalizing sink with
  | nil =>
      cases earlier
      rfl
  | cons first later ih =>
      rw [writeEach] at earlier
      rw [List.cons_append, writeEach]
      rcases written : sink.writeAll rule first with ⟨cause | _, next⟩
      · rw [written] at earlier
        cases earlier
      · rw [written] at earlier
        exact ih earlier

theorem contents_writeEach (written : sink.writeEach rule pieces = (.ok (), after)) :
    after.contents = sink.contents ++ pieces.flatten := by
  induction pieces generalizing sink with
  | nil =>
      cases written
      exact (List.append_nil _).symm
  | cons first later ih =>
      rw [writeEach] at written
      rcases taken : sink.writeAll rule first with ⟨cause | _, next⟩
      · rw [taken] at written
        cases written
      · rw [taken] at written
        rw [ih written, contents_writeAll taken, List.append_assoc, List.flatten_cons]

theorem Accepting.writeEach (accepting : sink.Accepting)
    (written : sink.writeEach rule pieces = (.ok (), after)) : after.Accepting := by
  induction pieces generalizing sink with
  | nil =>
      cases written
      exact accepting
  | cons first later ih =>
      obtain ⟨next, taken, still⟩ := accepting.writeAll rule first
      rw [Sink.writeEach, taken] at written
      exact ih still written

end Sink

namespace Decoder

def isBlank : Except DecodeError (Item String) → Bool
  | .ok item => item.isBlank
  | .error _ => false

end Decoder

namespace Ingester

/-- The document of an item, if it is a row that has one. -/
def document? (ingester : Ingester) : Except DecodeError (Item String) → Option Document
  | .ok (.row row) =>
      match assemble ingester.policy ingester.header row.fields with
      | .ok (.document doc) => some doc
      | _ => none
  | _ => none

def leavesOut (ingester : Ingester) : Except DecodeError (Item String) → Bool
  | .ok (.row row) =>
      match assemble ingester.policy ingester.header row.fields with
      | .ok .skipped => true
      | _ => false
  | _ => false

/-- Whether an item is an error, or a row that does not fit the header. -/
def refuses (ingester : Ingester) : Except DecodeError (Item String) → Bool
  | .error _ => true
  | .ok .blank => false
  | .ok (.row row) =>
      match assemble ingester.policy ingester.header row.fields with
      | .ok _ => false
      | .error _ => true

def linesOf (ingester : Ingester) (items : List (Except DecodeError (Item String))) : List Bytes :=
  (items.filterMap ingester.document?).map fun doc => Utf8.encode doc.line

theorem linesOf_append (ingester : Ingester)
    (first later : List (Except DecodeError (Item String))) :
    ingester.linesOf (first ++ later) = ingester.linesOf first ++ ingester.linesOf later := by
  rw [linesOf, List.filterMap_append, List.map_append]
  rfl

/-- What an ingestion into a sink has come to behind items of which none failed. -/
structure Passed (ingester : Ingester) (sink : Sink)
    (done : List (Except DecodeError (Item String))) (run : Ingestion) : Prop where
  /-- The sink was handed the lines of the documents, and took them. -/
  handed : sink.writeEach Writer.rule (ingester.linesOf done) = (.ok (), run.writer.sink)
  fits : ∀ item ∈ done, ingester.refuses item = false
  written : run.counts.written = (done.filterMap ingester.document?).length
  skipped : run.counts.skipped = done.countP ingester.leavesOut
  blank : run.blank = done.countP Decoder.isBlank
  total : run.counts.written + run.counts.skipped + run.blank = done.length

variable {ingester : Ingester} {sink : Sink} {run after : Ingestion}
  {item : Except DecodeError (Item String)} {done : List (Except DecodeError (Item String))}

theorem passed_nil (ingester : Ingester) (sink : Sink) :
    ingester.Passed sink [] { writer := { sink } } where
  handed := rfl
  fits := fun _ member => absurd member List.not_mem_nil
  written := rfl
  skipped := rfl
  blank := rfl
  total := rfl

/-- An item that is passed is written or counted as what it is. -/
theorem Passes.counted (passes : ingester.Passes run item after) :
    run.writer.sink.writeEach Writer.rule (ingester.linesOf [item]) =
        (.ok (), after.writer.sink) ∧
      ingester.refuses item = false ∧
      after.counts.written = run.counts.written + ([item].filterMap ingester.document?).length ∧
      after.counts.skipped = run.counts.skipped + [item].countP ingester.leavesOut ∧
      after.blank = run.blank + [item].countP Decoder.isBlank ∧
      after.counts.written + after.counts.skipped + after.blank =
        run.counts.written + run.counts.skipped + run.blank + 1 := by
  cases passes with
  | blank => exact ⟨rfl, rfl, rfl, rfl, rfl, rfl⟩
  | @leftOut row short =>
      have document : ingester.document? (.ok (.row row)) = none := by
        simp only [document?, short]
      have left : ingester.leavesOut (.ok (.row row)) = true := by
        simp only [leavesOut, short]
      refine ⟨?_, ?_, ?_, ?_, rfl, ?_⟩
      · rw [linesOf, List.filterMap_cons, document]
        rfl
      · simp only [refuses, short]
      · rw [List.filterMap_cons, document]
        rfl
      · rw [List.countP_singleton, left]
        rfl
      · simp only [Counts.written_add, Counts.skipped_add]
        omega
  | @written row doc sink fits taken =>
      have document : ingester.document? (.ok (.row row)) = some doc := by
        simp only [document?, fits]
      have kept : ingester.leavesOut (.ok (.row row)) = false := by
        simp only [leavesOut, fits]
      refine ⟨?_, ?_, ?_, ?_, rfl, ?_⟩
      · rw [linesOf, List.filterMap_cons, document]
        simp only [List.filterMap_nil, List.map_cons, List.map_nil, Sink.writeEach, taken]
      · simp only [refuses, fits]
      · rw [List.filterMap_cons, document]
        rfl
      · rw [List.countP_singleton, kept]
        rfl
      · simp only [Counts.written_add, Counts.skipped_add]
        omega

theorem Passed.concat (passed : ingester.Passed sink done run)
    (passes : ingester.Passes run item after) : ingester.Passed sink (done ++ [item]) after := by
  obtain ⟨handed, fits, written, skipped, blank, total⟩ := passed
  obtain ⟨taken, accepted, written', skipped', blank', total'⟩ := passes.counted
  constructor
  · rw [linesOf_append, Sink.writeEach_append handed]
    exact taken
  · intro other member
    rcases List.mem_append.mp member with earlier | last
    · exact fits other earlier
    · rwa [List.mem_singleton.mp last]
  · rw [written', written, List.filterMap_append, List.length_append]
  · rw [skipped', skipped, List.countP_append]
  · rw [blank', blank, List.countP_append]
  · rw [total', total, List.length_append]
    rfl

/-- An ingestion passes all items, or those before one at which it fails. -/
theorem items_stop (passed : ingester.Passed sink done run)
    (items : List (Except DecodeError (Item String))) :
    (∃ after, ingester.Passed sink (done ++ items) after ∧
      ingester.items run items = (none, after)) ∨
    ∃ front failing later middle e after, items = front ++ failing :: later ∧
      ingester.Passed sink (done ++ front) middle ∧
      ingester.Fails middle.counts middle.writer.sink failing e after ∧
      ingester.items run items =
        (some e, { middle with writer := { middle.writer with sink := after } }) := by
  induction items generalizing done run with
  | nil => exact .inl ⟨run, by rwa [List.append_nil], rfl⟩
  | cons item later ih =>
      rcases ingester.items_cons run item later with ⟨next, passes, same⟩ | ⟨e, after, fails, same⟩
      · rcases ih (passed.concat passes) with ⟨last, whole, ended⟩ |
          ⟨front, failing, behind, middle, e, after, rfl, before, fails, ended⟩
        · refine .inl ⟨last, ?_, same.trans ended⟩
          rwa [List.append_assoc] at whole
        · refine .inr ⟨item :: front, failing, behind, middle, e, after, rfl, ?_, fails,
            same.trans ended⟩
          rwa [List.append_assoc] at before
      · exact .inr ⟨[], item, later, run, e, after, rfl, by rwa [List.append_nil], fails, same⟩

section

variable {before : Counts} {sink after : Sink} {failing : Except DecodeError (Item String)}
  {e : IngestError}

theorem Fails.before_eq (fails : ingester.Fails before sink failing e after) :
    e.before = before := by
  cases fails <;> rfl

theorem Fails.line_mem (fails : ingester.Fails before sink failing e after) :
    e.line ∈ Decoder.lineOf? failing := by
  cases fails <;> rfl

/-- Of an item that fails, the sink holds at most a part of its line. -/
theorem Fails.contents (fails : ingester.Fails before sink failing e after) :
    ∃ part, after.contents = sink.contents ++ part ∧
      (part = [] ∨ ∃ doc, ingester.document? failing = some doc ∧
        part <+: Utf8.encode doc.line ∧ part ≠ Utf8.encode doc.line) := by
  cases fails with
  | decode e => exact ⟨[], (List.append_nil _).symm, .inl rfl⟩
  | assemble refused => exact ⟨[], (List.append_nil _).symm, .inl rfl⟩
  | @encode row doc cause after fits refused =>
      obtain ⟨part, front, short, held⟩ := Sink.contents_writeAll_error refused
      refine ⟨part, held, .inr ⟨doc, ?_, front, short⟩⟩
      simp only [document?, fits]

end

/-- What an ingestion returns is what it comes to behind the items of its decoder. -/
theorem ingest_stops (ingester : Ingester) (decoder : Decoder) (sink : Sink) :
    let items := (decoder.records ingester.dialect).1
    (∃ run, ingester.Passed sink items run ∧
      ingester.ingest decoder sink = (.ok run.counts, run)) ∨
    ∃ done failing later run e after, items = done ++ failing :: later ∧
      ingester.Passed sink done run ∧
      ingester.Fails run.counts run.writer.sink failing e after ∧
      ingester.ingest decoder sink =
        (.error e, { run with writer := { run.writer with sink := after } }) := by
  intro items
  unfold ingest
  rcases items_stop (ingester.passed_nil sink) items with ⟨run, passed, ended⟩ |
    ⟨done, failing, later, run, e, after, split, passed, fails, ended⟩
  · rw [ended]
    exact .inl ⟨run, passed, rfl⟩
  · rw [ended]
    exact .inr ⟨done, failing, later, run, e, after, split, passed, fails, rfl⟩

/-- An ingestion passes the items of its decoder up to the first that fails, whatever fails and
whatever the capacity of the buffer is through which the source is read.  The sink holds the lines
of the documents passed and at most a part of the line of the failing one; three metrics grow by
the numbers of items of each kind that were passed, and no other changes; an error carries these
counts and the line on which the failing item begins. -/
theorem ingest_firstFailure (ingester : Ingester) (signals : List Signal) (firstLine room : Nat)
    (sink : Sink) :
    let d := ingester.dialect
    let start : ByteDecoder := { signals, line := firstLine }
    let decoder : Decoder := ⟨Buffer.deliveries (room + 1) signals, firstLine, 0⟩
    let items := (decoder.records d).1
    let outcome := ingester.ingest decoder sink
    (∀ n, (∀ k < n, ∀ e, start.nthCall d k ≠ some (.error e)) →
      items[n]? = start.nthCall d n) ∧
    (∀ n e, items[n]? = some (.error e) → n + 1 = items.length) ∧
    (∀ other, ingester.ingest ⟨Buffer.deliveries (other + 1) signals, firstLine, 0⟩ sink =
      outcome) ∧
    ∃ done left run,
      items = done ++ left ∧
      ingester.Passed sink done run ∧
      run.writer.sink.contents = sink.contents ++ (ingester.linesOf done).flatten ∧
      (∀ m, outcome.2.record m = { m with
        recordsWritten := some (m.recordsWritten.getD 0 +
          (done.filterMap ingester.document?).length)
        recordsSkipped := some (m.recordsSkipped.getD 0 + done.countP ingester.leavesOut)
        blankLines := some (m.blankLines.getD 0 + done.countP Decoder.isBlank) }) ∧
      (left = [] ∧ outcome = (.ok run.counts, run) ∨
        ∃ failing later e after,
          left = failing :: later ∧
          ingester.Fails run.counts run.writer.sink failing e after ∧
          outcome = (.error e, { run with writer := { run.writer with sink := after } }) ∧
          e.before = run.counts ∧
          (∃ front : Bytes,
            signals = front.map .byte ++ (start.afterCalls d done.length).signals ∧
            e.line = firstLine + front.lineFeeds) ∧
          ∃ part, after.contents = run.writer.sink.contents ++ part ∧
            (part = [] ∨ ∃ doc, ingester.document? failing = some doc ∧
              part <+: Utf8.encode doc.line ∧ part ≠ Utf8.encode doc.line)) := by
  intro d start decoder items outcome
  have same : decoder = start.toDecoder :=
    congrArg (Decoder.mk · firstLine 0) (Buffer.deliveries_eq room signals)
  have call (n : Nat) : decoder.nthCall d n = start.nthCall d n :=
    same ▸ ByteDecoder.nthCall_toDecoder d start n
  have recorded {run : Ingestion} {done : List (Except DecodeError (Item String))}
      (passed : ingester.Passed sink done run) (m : Metrics) :
      run.record m = { m with
        recordsWritten := some (m.recordsWritten.getD 0 +
          (done.filterMap ingester.document?).length)
        recordsSkipped := some (m.recordsSkipped.getD 0 + done.countP ingester.leavesOut)
        blankLines := some (m.blankLines.getD 0 + done.countP Decoder.isBlank) } := by
    rw [Ingestion.record, passed.written, passed.skipped, passed.blank]
    rfl
  refine ⟨fun n fine => ?_, fun n e failed => Decoder.last_of_records failed, fun other => ?_, ?_⟩
  · rw [← call]
    exact decoder.getElem?_records fun k within e => call k ▸ fine k within e
  · change _ = ingester.ingest ⟨Buffer.deliveries (room + 1) signals, firstLine, 0⟩ sink
    rw [Buffer.deliveries_eq, Buffer.deliveries_eq]
  · rcases ingester.ingest_stops decoder sink with ⟨run, passed, ended⟩ |
      ⟨done, failing, later, run, e, after, split, passed, fails, ended⟩
    · refine ⟨items, [], run, (List.append_nil _).symm, passed,
        Sink.contents_writeEach passed.handed, fun m => ?_, .inl ⟨rfl, ended⟩⟩
      exact (congrArg (·.2.record m) ended).trans (recorded passed m)
    · refine ⟨done, failing :: later, run, split, passed, Sink.contents_writeEach passed.handed,
        fun m => ?_, .inr ⟨failing, later, e, after, rfl, fails, ended, fails.before_eq, ?_,
          fails.contents⟩⟩
      · exact (congrArg (·.2.record m) ended).trans (recorded passed m)
      · have listed : (start.toDecoder.records d).1[done.length]? = some failing := by
          rw [← same]
          exact (congrArg (·[done.length]?) split).trans (by simp)
        exact start.front_of_records listed fails.line_mem

/-- The second document is refused when a part of its line is taken. -/
example :
    let ingester : Ingester := { header := ⟨["a"], by decide, by decide, by decide⟩ }
    let sink : Sink := { answers := [.take 10, .interrupt "signal", .take 2, .fail "disk full"] }
    let outcome := ingester.ingest (.ofBytes [120, 10, 10, 121, 10] 7) sink
    outcome.1 = .error (.encode ⟨"disk full"⟩ 9 ⟨1, 0⟩) ∧
      outcome.2.writer.sink.contents = Utf8.encode "\x7b\"a\":\"x\"\x7d\n\x7b\"" := by
  decide +kernel

end Ingester

end CsvImport

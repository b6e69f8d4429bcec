import CsvImport.Job
import CsvImport.Proofs.Documents
import CsvImport.Proofs.Writing
import Mathlib.Logic.Basic

/-!
# Ingestion

What an ingestion leaves behind is put together from what its items become: a line for
every document, and nothing at all if one of the items fails.
-/

namespace CsvImport

namespace Counts

@[simp]
theorem written_add (first second : Counts) :
    (first + second).written = first.written + second.written := rfl

@[simp]
theorem skipped_add (first second : Counts) :
    (first + second).skipped = first.skipped + second.skipped := rfl

theorem add_assoc (first second third : Counts) :
    first + second + third = first + (second + third) :=
  congrArg₂ Counts.mk (Nat.add_assoc ..) (Nat.add_assoc ..)

theorem zero_add (counts : Counts) : ({} : Counts) + counts = counts :=
  congrArg₂ Counts.mk (Nat.zero_add _) (Nat.zero_add _)

end Counts

namespace ChunkOutput

def nothing : ChunkOutput := ⟨[], {}⟩

/-- One output behind another. -/
instance : Append ChunkOutput :=
  ⟨fun first second => ⟨first.bytes ++ second.bytes, first.counts + second.counts⟩⟩

theorem append_assoc (first second third : ChunkOutput) :
    first ++ second ++ third = first ++ (second ++ third) :=
  congrArg₂ ChunkOutput.mk (List.append_assoc ..) (Counts.add_assoc ..)

theorem nothing_append (output : ChunkOutput) : nothing ++ output = output :=
  congrArg₂ ChunkOutput.mk (List.nil_append _) (Counts.zero_add _)

end ChunkOutput

namespace Ingester

/-- How an ingestion goes on behind an item. -/
inductive Passes (ingester : Ingester) (run : Ingestion) :
    Except DecodeError (Item String) → Ingestion → Prop where
  | blank : Passes ingester run (.ok .blank) { run with blank := run.blank + 1 }
  | leftOut {row : Row String}
      (short : assemble ingester.policy ingester.header row.fields = .ok .skipped) :
      Passes ingester run (.ok (.row row)) { run with counts := run.counts + ⟨0, 1⟩ }
  | written {row : Row String} {doc : Document} {sink : Sink}
      (fits : assemble ingester.policy ingester.header row.fields = .ok (.document doc))
      (taken : run.writer.sink.writeAll Writer.rule (Utf8.encode doc.line) =
        (.ok (), sink)) :
      Passes ingester run (.ok (.row row)) { run with
        writer := ⟨sink, run.writer.bytesWritten + (Utf8.encode doc.line).length⟩
        counts := run.counts + ⟨1, 0⟩ }

/-- How an item fails when so much was counted before it, and the sink behind the failure. -/
inductive Fails (ingester : Ingester) (before : Counts) (sink : Sink) :
    Except DecodeError (Item String) → IngestError → Sink → Prop where
  | decode (e : DecodeError) : Fails ingester before sink (.error e) (.decode e before) sink
  | assemble {row : Row String} {mismatch : ArityMismatch}
      (refused : assemble ingester.policy ingester.header row.fields = .error mismatch) :
      Fails ingester before sink (.ok (.row row)) (.assemble mismatch row.line before) sink
  | encode {row : Row String} {doc : Document} {cause : String} {after : Sink}
      (fits : assemble ingester.policy ingester.header row.fields = .ok (.document doc))
      (refused : sink.writeAll Writer.rule (Utf8.encode doc.line) =
        (.error cause, after)) :
      Fails ingester before sink (.ok (.row row)) (.encode ⟨cause⟩ row.line before) after

theorem items_cons (ingester : Ingester) (run : Ingestion)
    (item : Except DecodeError (Item String)) (later : List (Except DecodeError (Item String))) :
    (∃ next, ingester.Passes run item next ∧
      ingester.items run (item :: later) = ingester.items next later) ∨
    ∃ e sink, ingester.Fails run.counts run.writer.sink item e sink ∧
      ingester.items run (item :: later) =
        (some e, { run with writer := { run.writer with sink } }) := by
  rcases item with e | row | _
  · exact .inr ⟨_, _, .decode e, rfl⟩
  · rcases found : assemble ingester.policy ingester.header row.fields with mismatch | doc | _
    · refine .inr ⟨_, _, .assemble found, ?_⟩
      rw [items, found]
    · rcases taken : run.writer.sink.writeAll Writer.rule (Utf8.encode doc.line) with
        ⟨cause | ⟨⟩, after⟩
      · refine .inr ⟨_, _, .encode found taken, ?_⟩
        simp only [items, found, Writer.write, taken]
      · refine .inl ⟨_, .written found taken, ?_⟩
        simp only [items, found, Writer.write, taken]
    · refine .inl ⟨_, .leftOut found, ?_⟩
      rw [items, found]
  · exact .inl ⟨_, .blank, rfl⟩

/-- What an item becomes, unless it fails. -/
def itemOutput? (ingester : Ingester) : Except DecodeError (Item String) → Option ChunkOutput
  | .error _ => none
  | .ok .blank => some .nothing
  | .ok (.row row) =>
      match assemble ingester.policy ingester.header row.fields with
      | .error _ => none
      | .ok .skipped => some ⟨[], ⟨0, 1⟩⟩
      | .ok (.document doc) => some ⟨Utf8.encode doc.line, ⟨1, 0⟩⟩

def output? (ingester : Ingester) : List (Except DecodeError (Item String)) → Option ChunkOutput
  | [] => some .nothing
  | item :: later => do
      let first ← ingester.itemOutput? item
      let rest ← ingester.output? later
      return first ++ rest

variable (ingester : Ingester)

theorem output?_append (front back : List (Except DecodeError (Item String))) :
    ingester.output? (front ++ back) = (do
      let first ← ingester.output? front
      let rest ← ingester.output? back
      return first ++ rest) := by
  induction front with
  | nil =>
      rw [List.nil_append, output?]
      cases ingester.output? back with
      | none => rfl
      | some rest => exact congrArg some (ChunkOutput.nothing_append rest).symm
  | cons item later ih =>
      rw [List.cons_append, output?, output?, ih]
      cases ingester.itemOutput? item with
      | none => rfl
      | some first =>
          cases ingester.output? later with
          | none => rfl
          | some next =>
              cases ingester.output? back with
              | none => rfl
              | some rest => exact congrArg some (ChunkOutput.append_assoc first next rest).symm

section

variable {run next : Ingestion} {item : Except DecodeError (Item String)} {output : ChunkOutput}
  {items : List (Except DecodeError (Item String))} {before : Counts} {sink after : Sink}
  {e : IngestError}

variable {ingester} in
/-- What an item becomes is written and counted when it is passed. -/
theorem Passes.itemOutput? (passes : ingester.Passes run item next) :
    ∃ output, ingester.itemOutput? item = some output ∧
      (run.writer.sink.Accepting → next.writer.sink.Accepting) ∧
      next.writer.sink.contents = run.writer.sink.contents ++ output.bytes ∧
      next.counts = run.counts + output.counts := by
  cases passes with
  | blank => exact ⟨_, rfl, id, (List.append_nil _).symm, rfl⟩
  | leftOut short =>
      refine ⟨⟨[], ⟨0, 1⟩⟩, ?_, id, (List.append_nil _).symm, rfl⟩
      simp only [Ingester.itemOutput?, short]
  | @written row doc sink fits taken =>
      refine ⟨⟨Utf8.encode doc.line, ⟨1, 0⟩⟩, ?_, fun accepting => ?_,
        Sink.contents_writeAll taken, rfl⟩
      · simp only [Ingester.itemOutput?, fits]
      · obtain ⟨after, written, still⟩ :=
          accepting.writeAll Writer.rule (Utf8.encode doc.line)
        cases taken.symm.trans written
        exact still

variable {ingester} in
/-- An item fails in a sink that takes everything if it becomes nothing. -/
theorem Fails.itemOutput? (fails : ingester.Fails before sink item e after)
    (accepting : sink.Accepting) : ingester.itemOutput? item = none := by
  cases fails with
  | decode e => rfl
  | assemble refused => simp only [Ingester.itemOutput?, refused]
  | @encode row doc cause after fits refused =>
      obtain ⟨next, taken, -⟩ := accepting.writeAll Writer.rule (Utf8.encode doc.line)
      cases taken.symm.trans refused

/-- An ingestion goes on behind an item that becomes something. -/
theorem items_of_itemOutput? (accepting : run.writer.sink.Accepting)
    (found : ingester.itemOutput? item = some output)
    (later : List (Except DecodeError (Item String))) :
    ∃ next, ingester.items run (item :: later) = ingester.items next later ∧
      next.writer.sink.Accepting ∧
      next.writer.sink.contents = run.writer.sink.contents ++ output.bytes ∧
      next.counts = run.counts + output.counts := by
  rcases ingester.items_cons run item later with ⟨next, passes, same⟩ | ⟨e, after, fails, -⟩
  · obtain ⟨_, became, still, held, counted⟩ := passes.itemOutput?
    cases found.symm.trans became
    exact ⟨next, same, still accepting, held, counted⟩
  · cases found.symm.trans (fails.itemOutput? accepting)

theorem items_of_itemOutput?_eq_none (failed : ingester.itemOutput? item = none) :
    ∃ e after, ingester.items run (item :: items) = (some e, after) := by
  rcases ingester.items_cons run item items with ⟨next, passes, -⟩ | ⟨e, after, -, same⟩
  · obtain ⟨_, became, -⟩ := passes.itemOutput?
    cases failed.symm.trans became
  · exact ⟨e, _, same⟩

theorem items_of_output? (accepting : run.writer.sink.Accepting)
    (found : ingester.output? items = some output) :
    ∃ after, ingester.items run items = (none, after) ∧
      after.writer.sink.contents = run.writer.sink.contents ++ output.bytes ∧
      after.counts = run.counts + output.counts := by
  induction items generalizing run output with
  | nil =>
      cases found
      exact ⟨run, rfl, (List.append_nil _).symm, rfl⟩
  | cons item later ih =>
      rw [output?] at found
      obtain ⟨first, picked, found⟩ := Option.bind_eq_some_iff.mp found
      obtain ⟨rest, more, found⟩ := Option.bind_eq_some_iff.mp found
      cases found
      obtain ⟨next, same, still, held, counted⟩ :=
        ingester.items_of_itemOutput? accepting picked later
      obtain ⟨after, done, contents, counts⟩ := ih still more
      refine ⟨after, same.trans done, ?_, ?_⟩
      · rw [contents, held]
        exact List.append_assoc ..
      · rw [counts, counted]
        exact Counts.add_assoc ..

theorem items_of_output?_eq_none (accepting : run.writer.sink.Accepting)
    (failed : ingester.output? items = none) :
    ∃ e after, ingester.items run items = (some e, after) := by
  induction items generalizing run with
  | nil => cases failed
  | cons item later ih =>
      cases first : ingester.itemOutput? item with
      | none => exact ingester.items_of_itemOutput?_eq_none first
      | some output =>
          obtain ⟨next, same, still, _, _⟩ :=
            ingester.items_of_itemOutput? accepting first later
          rw [same]
          refine ih still ?_
          cases found : ingester.output? later with
          | none => rfl
          | some rest =>
              rw [output?, first, found] at failed
              cases failed

end

theorem lineFeeds_of_output? {items : List (Except DecodeError (Item String))}
    {output : ChunkOutput} (found : ingester.output? items = some output) :
    output.bytes.lineFeeds = output.counts.written := by
  induction items generalizing output with
  | nil =>
      cases found
      rfl
  | cons item later ih =>
      rw [output?] at found
      obtain ⟨first, picked, found⟩ := Option.bind_eq_some_iff.mp found
      obtain ⟨rest, more, found⟩ := Option.bind_eq_some_iff.mp found
      cases found
      have here : first.bytes.lineFeeds = first.counts.written := by
        unfold itemOutput? at picked
        split at picked
        · cases picked
        · cases picked
          rfl
        · split at picked
          · cases picked
          · cases picked
            rfl
          · rename_i doc assembled
            obtain rfl := Option.some.inj picked
            exact Document.lineFeeds_line doc
      exact List.count_append.trans (congrArg₂ (· + ·) here (ih more))

def outputOf? (decoder : Decoder) : Option ChunkOutput :=
  let (result, run) := ingester.ingest decoder {}
  (result.map fun counts => (⟨run.writer.sink.contents, counts⟩ : ChunkOutput)).toOption

theorem outputOf?_eq (decoder : Decoder) :
    ingester.outputOf? decoder = ingester.output? (decoder.records ingester.dialect).1 := by
  have accepting : Sink.Accepting ({ writer := { sink := {} } } : Ingestion).writer.sink :=
    Sink.accepting_default
  unfold outputOf? ingest
  generalize (decoder.records ingester.dialect).1 = items
  cases found : ingester.output? items with
  | none =>
      obtain ⟨e, after, failed⟩ := ingester.items_of_output?_eq_none accepting found
      rw [failed]
      rfl
  | some output =>
      obtain ⟨after, done, contents, counts⟩ := ingester.items_of_output? accepting found
      rw [done]
      refine congrArg some (congrArg₂ ChunkOutput.mk ?_ ?_)
      · exact contents
      · exact counts.trans (Counts.zero_add _)

end Ingester

namespace Job

def output? (job : Job) (source : Source) (chunk : Chunk) : Option ChunkOutput :=
  (job.ingest source chunk).1.toOption

def failure? (job : Job) (source : Source) (chunk : Chunk) : Option Failure :=
  match (job.ingest source chunk).1 with
  | .ok _ => none
  | .error e => some (.ofError chunk.id e)

theorem output?_eq (job : Job) (source : Source) (chunk : Chunk) :
    job.output? source chunk =
      (job.ingester source).output? ((source.chunkDecoder chunk).records job.dialect).1 :=
  (job.ingester source).outputOf?_eq (source.chunkDecoder chunk)

theorem lineFeeds_output? {job : Job} {source : Source} {chunk : Chunk} {output : ChunkOutput}
    (found : job.output? source chunk = some output) :
    output.bytes.lineFeeds = output.counts.written := by
  rw [output?_eq] at found
  exact (job.ingester source).lineFeeds_of_output? found

end Job

end CsvImport

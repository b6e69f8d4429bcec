import CsvImport.Proofs.ChunkedDecoding
import CsvImport.Proofs.Flights
import CsvImport.Proofs.Ingestion
import CsvImport.Proofs.Loading

/-!
# Reading in one go

When every chunk of a source can be ingested, the outputs of the chunks are together the
output of one ingestion of all the data behind the header.
-/

namespace CsvImport

namespace ChunkOutput

def join (outputs : List ChunkOutput) : ChunkOutput :=
  outputs.foldr (· ++ ·) nothing

theorem join_cons (first : ChunkOutput) (more : List ChunkOutput) :
    join (first :: more) = first ++ join more := rfl

theorem join_append (front back : List ChunkOutput) :
    join (front ++ back) = join front ++ join back := by
  induction front with
  | nil => exact (nothing_append _).symm
  | cons first more ih => rw [List.cons_append, join_cons, join_cons, ih, append_assoc]

theorem bytes_join (outputs : List ChunkOutput) :
    (join outputs).bytes = outputs.flatMap (·.bytes) := by
  induction outputs with
  | nil => rfl
  | cons first more ih =>
      rw [List.flatMap_cons, ← ih]
      rfl

theorem written_join (outputs : List ChunkOutput) :
    (join outputs).counts.written = (outputs.map (·.counts.written)).sum := by
  induction outputs with
  | nil => rfl
  | cons first more ih =>
      rw [List.map_cons, List.sum_cons, ← ih]
      rfl

theorem skipped_join (outputs : List ChunkOutput) :
    (join outputs).counts.skipped = (outputs.map (·.counts.skipped)).sum := by
  induction outputs with
  | nil => rfl
  | cons first more ih =>
      rw [List.map_cons, List.sum_cons, ← ih]
      rfl

end ChunkOutput

namespace Decoder

theorem eq_map_decoded {α : Type} {items : List (Except DecodeError α)}
    (complete : failure? items = none) : items = (decoded items).map .ok := by
  induction items with
  | nil => rfl
  | cons item later ih =>
      cases item with
      | error e => cases complete
      | ok found => exact congrArg (Except.ok found :: ·) (ih complete)

theorem flatten_eq_map_decoded {α : Type} {parts : List (List (Except DecodeError α))}
    (complete : ∀ part ∈ parts, failure? part = none) :
    parts.flatten = (parts.flatMap decoded).map .ok := by
  induction parts with
  | nil => rfl
  | cons part later ih =>
      rw [List.flatten_cons, List.flatMap_cons, List.map_append,
        ← ih fun part member => complete part (List.mem_cons_of_mem _ member),
        ← eq_map_decoded (complete part (List.mem_cons_self ..))]

end Decoder

namespace Chunk

open Decoder

variable {d : Dialect} {data : Bytes} {start target line : Nat}

/-- If the last group does not fail, then nothing does. -/
theorem failure?_of_itemsEach {groups : List (List Extent)} (are : AreExtents d groups.flatten)
    (filled : ∀ members ∈ groups, members ≠ [])
    (complete : ∀ part ∈ itemsEach d line groups, failure? part = none) :
    failure? ((Extent.items d line 0 groups.flatten).map asText) = none := by
  rcases List.eq_nil_or_concat' groups with rfl | ⟨earlier, last, rfl⟩
  · rfl
  · obtain ⟨parts, part, same, -, failed⟩ :=
      failure?_itemsEach are (filled last (by simp)) line 0
    rw [failed, complete part (by simp [same])]
    rfl

/-- If nothing fails, then no group does. -/
theorem failure?_of_mem_itemsEach {groups : List (List Extent)}
    (are : AreExtents d groups.flatten) (filled : ∀ members ∈ groups, members ≠ [])
    (complete : failure? ((Extent.items d line 0 groups.flatten).map asText) = none) :
    ∀ part ∈ itemsEach d line groups, failure? part = none := by
  rcases List.eq_nil_or_concat' groups with rfl | ⟨earlier, last, rfl⟩
  · exact fun part member => absurd member List.not_mem_nil
  · obtain ⟨parts, part, same, fine, failed⟩ :=
      failure?_itemsEach are (filled last (by simp)) line 0
    rw [complete] at failed
    rw [same]
    intro other member
    rcases List.mem_append.mp member with before | here
    · exact fine other before
    · rw [List.mem_singleton.mp here]
      exact Option.map_eq_none_iff.mp failed.symm

/-- A plan starts at the end of the data at the latest. -/
theorem plan_min (d : Dialect) (data : Bytes) (start target : Nat) :
    plan d data (min start data.length) target = plan d data start target := by
  unfold plan
  rw [Nat.min_assoc, Nat.min_self]

theorem drop_min_length (data : Bytes) (start : Nat) :
    data.drop (min start data.length) = data.drop start := by
  rcases Nat.le_total start data.length with within | beyond
  · rw [Nat.min_eq_left within]
  · rw [Nat.min_eq_right beyond, List.drop_length, List.drop_eq_nil_of_le beyond]

/-- If no range fails, then the items of the ranges are those of the whole. -/
theorem flatten_decodeEach (accepted : d.Accepted)
    (complete : ∀ part ∈ decodeEach d data line (plan d data start target),
      failure? part = none) :
    (decodeEach d data line (plan d data start target)).flatten =
      ((Decoder.ofBytes (data.drop start) line).records d).1 := by
  have within : min start data.length ≤ data.length := Nat.min_le_right ..
  rw [← plan_min, decodeEach_plan_eq accepted within] at complete ⊢
  rw [← drop_min_length, @records_drop d data (min start data.length) target line]
  have whole := failure?_of_itemsEach areExtents_planned (fun _ => ne_nil_of_mem_group) complete
  rw [flatten_eq_map_decoded complete, decoded_itemsEach d line 0, ← eq_map_decoded whole]

/-- If the whole does not fail, then no range does. -/
theorem failure?_of_mem_decodeEach (accepted : d.Accepted)
    (complete : failure? ((Decoder.ofBytes (data.drop start) line).records d).1 = none) :
    ∀ part ∈ decodeEach d data line (plan d data start target), failure? part = none := by
  have within : min start data.length ≤ data.length := Nat.min_le_right ..
  rw [← plan_min, decodeEach_plan_eq accepted within]
  rw [← drop_min_length, @records_drop d data (min start data.length) target line] at complete
  exact failure?_of_mem_itemsEach areExtents_planned (fun _ => ne_nil_of_mem_group) complete

end Chunk

namespace Ingester

variable {ingester : Ingester}

/-- What becomes something has no errors in it. -/
theorem failure?_of_output? {items : List (Except DecodeError (Item String))}
    {output : ChunkOutput} (found : ingester.output? items = some output) :
    Decoder.failure? items = none := by
  induction items generalizing output with
  | nil => rfl
  | cons item later ih =>
      rw [output?] at found
      obtain ⟨first, picked, found⟩ := Option.bind_eq_some_iff.mp found
      obtain ⟨rest, more, _⟩ := Option.bind_eq_some_iff.mp found
      cases item with
      | error e => cases picked
      | ok => exact ih more

theorem output?_flatten {parts : List (List (Except DecodeError (Item String)))}
    {outputs : List ChunkOutput} (known : parts.map ingester.output? = outputs.map some) :
    ingester.output? parts.flatten = some (ChunkOutput.join outputs) := by
  induction parts generalizing outputs with
  | nil =>
      cases outputs with
      | nil => rfl
      | cons => cases known
  | cons part later ih =>
      cases outputs with
      | nil => cases known
      | cons output more =>
          obtain ⟨here, behind⟩ := List.cons.inj known
          rw [List.flatten_cons, output?_append, here, ih behind]
          rfl

/-- If the whole becomes something, then so does each part. -/
theorem isSome_of_flatten {parts : List (List (Except DecodeError (Item String)))}
    {output : ChunkOutput} (found : ingester.output? parts.flatten = some output) :
    ∀ part ∈ parts, (ingester.output? part).isSome := by
  induction parts generalizing output with
  | nil => exact fun part member => absurd member List.not_mem_nil
  | cons first later ih =>
      rw [List.flatten_cons, output?_append] at found
      obtain ⟨here, picked, found⟩ := Option.bind_eq_some_iff.mp found
      obtain ⟨rest, more, _⟩ := Option.bind_eq_some_iff.mp found
      intro part member
      rcases List.mem_cons.mp member with rfl | behind
      · exact Option.isSome_of_eq_some picked
      · exact ih more part behind

end Ingester

namespace Source

/-- The numbered chunks of a source are decoded like its ranges. -/
theorem map_number (d : Dialect) (path : String) (data : Bytes) (index line : Nat)
    (ranges : List ByteRange) :
    ((number path data index line ranges).map fun chunk =>
        ((Decoder.ofBytes (chunk.id.range.slice data) chunk.firstLine).records d).1) =
      Chunk.decodeEach d data line ranges := by
  induction ranges generalizing index line with
  | nil => rfl
  | cons range later ih =>
      unfold number Chunk.decodeEach
      rw [List.map_cons, ih]

/-- The chunks of a prepared source are decoded like the ranges of its plan. -/
theorem map_chunks {d : Dialect} {configured : Option Header} {chunkSize : Nat} {path : String}
    {data : Bytes} {source : Source} {found : Header.Split}
    (prepared : prepare d configured chunkSize path data = .ok (some source))
    (parts : split d configured data = .ok (some found)) :
    (source.chunks.map fun chunk => ((source.chunkDecoder chunk).records d).1) =
      Chunk.decodeEach d data found.dataLine (Chunk.plan d data found.dataStart chunkSize) := by
  obtain ⟨_, same, rfl⟩ := prepare_ok prepared
  rw [parts] at same
  cases same
  exact map_number d path data 0 found.dataLine _

end Source

namespace Job

def sourceAt? (job : Job) (chunkSize : Nat) (session : Session) (path : String) :
    Option Source :=
  match (load path session).1 with
  | .error _ => none
  | .ok data => (Source.prepare job.dialect job.header chunkSize path data).toOption.join

/-- The output of one ingestion of all the data of a source, if that succeeds. -/
def sequential? (job : Job) (session : Session) (path : String) : Option ChunkOutput :=
  match (load path session).1 with
  | .error _ => none
  | .ok data =>
      match Source.split job.dialect job.header data with
      | .error _ => none
      | .ok none => some .nothing
      | .ok (some found) =>
          let ingester : Ingester := {
            header := found.header
            dialect := job.dialect
            policy := job.config.csv.policy }
          ingester.outputOf? (Decoder.ofBytes (data.drop found.dataStart) found.dataLine)

def Readable (job : Job) (session : Session) (path : String) : Prop :=
  ∃ data found, (load path session).1 = .ok data ∧
    Source.split job.dialect job.header data = .ok found

section

variable {job : Job} {chunkSize : Nat} {session : Session} {path : String}

theorem sourceAt?_of_load {data : Bytes} (loaded : (load path session).1 = .ok data) :
    job.sourceAt? chunkSize session path =
      (Source.prepare job.dialect job.header chunkSize path data).toOption.join := by
  unfold sourceAt?
  rw [loaded]

/-- If all chunks can be ingested, their outputs are together that of the whole data. -/
theorem outputOf?_of_complete (accepted : job.dialect.Accepted) {data : Bytes} {source : Source}
    {found : Header.Split} (split : Source.split job.dialect job.header data = .ok (some found))
    (prepared : Source.prepare job.dialect job.header chunkSize path data = .ok (some source))
    {outputs : List ChunkOutput}
    (complete : source.chunks.map (job.output? source) = outputs.map some) :
    (job.ingester source).outputOf?
        (Decoder.ofBytes (data.drop found.dataStart) found.dataLine) =
      some (ChunkOutput.join outputs) := by
  have parts := Source.map_chunks prepared split
  have known : (Chunk.decodeEach job.dialect data found.dataLine
      (Chunk.plan job.dialect data found.dataStart chunkSize)).map (job.ingester source).output? =
        outputs.map some := by
    rw [← parts, ← complete, List.map_map]
    exact List.map_congr_left fun chunk _ => (job.output?_eq source chunk).symm
  have fine : ∀ part ∈ Chunk.decodeEach job.dialect data found.dataLine
      (Chunk.plan job.dialect data found.dataStart chunkSize), Decoder.failure? part = none := by
    intro part member
    have listed := List.mem_map_of_mem (f := (job.ingester source).output?) member
    rw [known] at listed
    obtain ⟨output, _, same⟩ := List.mem_map.mp listed
    exact Ingester.failure?_of_output? same.symm
  rw [Ingester.outputOf?_eq]
  change (job.ingester source).output? (Decoder.records job.dialect _).1 = _
  rw [← Chunk.flatten_decodeEach accepted fine]
  exact Ingester.output?_flatten known

/-- If the whole data can be ingested, then so can every chunk. -/
theorem isSome_of_outputOf? (accepted : job.dialect.Accepted) {data : Bytes} {source : Source}
    {found : Header.Split} (split : Source.split job.dialect job.header data = .ok (some found))
    (prepared : Source.prepare job.dialect job.header chunkSize path data = .ok (some source))
    {output : ChunkOutput}
    (whole : (job.ingester source).outputOf?
      (Decoder.ofBytes (data.drop found.dataStart) found.dataLine) = some output) :
    ∀ chunk ∈ source.chunks, (job.output? source chunk).isSome := by
  rw [Ingester.outputOf?_eq] at whole
  change (job.ingester source).output? (Decoder.records job.dialect _).1 = _ at whole
  have fine := Ingester.failure?_of_output? whole
  rw [← Chunk.flatten_decodeEach accepted
    (@Chunk.failure?_of_mem_decodeEach _ _ _ chunkSize _ accepted fine)] at whole
  intro chunk member
  rw [job.output?_eq source chunk]
  refine Ingester.isSome_of_flatten whole _ ?_
  rw [← Source.map_chunks prepared split]
  exact List.mem_map_of_mem member

/-- If all chunks at a path can be ingested, their outputs are together the sequential one. -/
theorem sequential?_of_complete (accepted : job.dialect.Accepted)
    (readable : job.Readable session path) {outputs : List ChunkOutput}
    (complete : ((job.sourceAt? chunkSize session path).toList.flatMap fun source =>
      source.chunks.map (job.output? source)) = outputs.map some) :
    job.sequential? session path = some (ChunkOutput.join outputs) := by
  obtain ⟨data, found, loaded, split⟩ := readable
  rw [sourceAt?_of_load loaded] at complete
  unfold sequential?
  simp only [loaded, split]
  unfold Source.prepare at complete
  rw [split] at complete
  cases found with
  | none =>
      obtain rfl := List.map_eq_nil_iff.mp complete.symm
      rfl
  | some found =>
      have prepared : Source.prepare job.dialect job.header chunkSize path data = .ok (some {
          path, header := found.header, data
          chunks := Source.number path data 0 found.dataLine
            (Chunk.plan job.dialect data found.dataStart chunkSize) }) := by
        unfold Source.prepare
        rw [split]
        rfl
      exact outputOf?_of_complete accepted split prepared
        ((List.append_nil _).symm.trans complete)

end

end Job

end CsvImport

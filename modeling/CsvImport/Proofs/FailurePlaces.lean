import CsvImport.Proofs.ChunkedDecoding
import CsvImport.Proofs.FirstFailure

/-!
# Where failures are

The decoder of a chunk goes through the records of a source from the front of its chunk, as a
decoder of the whole source does once it is there.  It numbers lines from the front of the source
but counts bytes from the front of the chunk.  So the line of an unterminated quote does not depend
on how a source is cut, and its offset does: it is a position in the source only with the start of
the chunk added to it.
-/

namespace CsvImport

namespace Decoder

variable {d : Dialect}

/-- Calls take extents that have others behind them as they take them alone. -/
theorem calls_left {members later : List Extent} (are : AreExtents d (members ++ later))
    {line offset k : Nat} {item : Except DecodeError (Item String)}
    (found : (atLines members.flatten line offset).nthCall d k = some item) :
    let alone := (atLines members.flatten line offset).afterCalls d k
    let after := (atLines (members ++ later).flatten line offset).afterCalls d k
    (atLines (members ++ later).flatten line offset).nthCall d k = some item ∧
      after.line = alone.line ∧ after.offset = alone.offset := by
  intro alone after
  have called := found
  rw [nthCall_extents are.left] at called
  obtain ⟨extent, listed, -⟩ := Option.map_eq_some_iff.mp called
  have within := (List.getElem?_eq_some_iff.mp listed).1
  have front : (members ++ later).take k = members.take k :=
    List.take_append_of_le_length (Nat.le_of_lt within)
  have same : (members ++ later)[k]? = members[k]? := List.getElem?_append_left within
  refine ⟨?_, ?_, ?_⟩
  · rw [nthCall_extents are, front, same]
    exact called
  · change ((atLines (members ++ later).flatten line offset).afterCalls d k).line =
      ((atLines members.flatten line offset).afterCalls d k).line
    rw [afterCalls_extents are, afterCalls_extents are.left, front]
    rfl
  · change ((atLines (members ++ later).flatten line offset).afterCalls d k).offset =
      ((atLines members.flatten line offset).afterCalls d k).offset
    rw [afterCalls_extents are, afterCalls_extents are.left, front]
    rfl

theorem afterCalls_add (d : Dialect) (decoder : Decoder) (n k : Nat) :
    decoder.afterCalls d (n + k) = (decoder.afterCalls d n).afterCalls d k := by
  rw [Nat.add_comm]
  exact Function.iterate_add_apply ..

theorem unique_of_error {bytes : Bytes} {firstLine n m : Nat} {e other : DecodeError}
    (failed : (ofBytes bytes firstLine).nthCall d n = some (.error e))
    (again : (ofBytes bytes firstLine).nthCall d m = some (.error other)) : n = m := by
  have are := areExtents_extents d bytes.lines
  have last {k : Nat} {e : DecodeError}
      (failed : (ofBytes bytes firstLine).nthCall d k = some (.error e)) :
      k + 1 = (extents d bytes.lines).length := by
    rw [ofBytes_eq, ← flatten_extents d bytes.lines, nthCall_extents are] at failed
    obtain ⟨extent, listed, read⟩ := Option.map_eq_some_iff.mp failed
    exact last_of_error are listed read
  exact Nat.succ.inj ((last failed).trans (last again).symm)

end Decoder

namespace Ingester

/-- An ingestion that fails to decode stops at a call that fails so. -/
theorem nthCall_of_ingest {ingester : Ingester} {decoder : Decoder} {sink : Sink}
    {e : DecodeError} {before : Counts}
    (failed : (ingester.ingest decoder sink).1 = .error (.decode e before)) :
    ∃ n, decoder.nthCall ingester.dialect n = some (.error e) := by
  rcases ingester.ingest_stops decoder sink with ⟨run, -, ended⟩ |
    ⟨done, failing, later, run, stopped, after, split, -, fails, ended⟩
  · rw [ended] at failed
    cases failed
  · rw [ended] at failed
    obtain rfl := Except.error.inj failed
    have listed : (decoder.records ingester.dialect).1[done.length]? = some failing := by
      rw [split]
      simp
    have fine := Decoder.fine_of_records (List.getElem?_eq_some_iff.mp listed).1
    cases fails
    exact ⟨done.length, (decoder.getElem?_records fine).symm.trans listed⟩

end Ingester

namespace Source

variable {d : Dialect} {configured : Option Header} {chunkSize : Nat} {path : String}
  {data : Bytes} {source : Source} {chunk : Chunk}

/-- A chunk holds some of the extents in a row that its source falls into behind an optional byte
order mark. -/
theorem extents_of_chunk (accepted : d.Accepted)
    (prepared : prepare d configured chunkSize path data = .ok (some source))
    (member : chunk ∈ source.chunks) :
    ∃ front members later, Decoder.AreExtents d (front ++ (members ++ later)) ∧
      Bytes.Physical (front ++ (members ++ later)).flatten ∧
      data.afterByteOrderMark = (front ++ (members ++ later)).flatten.flatten ∧
      source.chunkBytes chunk = members.flatten.flatten ∧ members ≠ [] ∧
      chunk.id.range.start = data.byteOrderMarkLength + Chunk.extentSize front ∧
      chunk.firstLine = 1 + Bytes.lineFeeds (data.take chunk.id.range.start) := by
  obtain ⟨found, parts, rfl⟩ := prepare_ok prepared
  obtain ⟨n, start, -⟩ := split_calls parts
  have splits := splits_of_split parts chunkSize path
  have listed := List.mem_map_of_mem (f := fun chunk => chunk.id.range) member
  have within : chunk.id.range.start < chunk.id.range.stop ∧
      chunk.id.range.stop ≤ data.length := (splits.tiles.bounds listed).2
  have firstLine := splits.firstLine chunk member
  rw [range_number] at listed
  obtain ⟨front, members, later, all, place, bytes⟩ :=
    Chunk.extents_of_mem_plan accepted splits.tiles.le listed
  obtain ⟨first, rest, are, -, physical, flat, behind, -⟩ :=
    Decoder.afterCalls_ofBytes d data.afterByteOrderMark 1 n
  have taken : found.dataStart = data.byteOrderMarkLength + Chunk.extentSize first := by
    rw [start, behind]
    rfl
  have left : data.drop found.dataStart = rest.flatten.flatten := by
    rw [taken, ← List.drop_drop]
    change data.afterByteOrderMark.drop first.flatten.flatten.length = _
    rw [flat, List.drop_left]
  have same : rest = front ++ (members ++ later) := by
    rw [← all, left, physical.right.lines_flatten]
    exact are.right.symm
  subst same
  refine ⟨first ++ front, members, later, ?_, ?_, ?_, bytes, ?_, ?_, firstLine⟩
  · rwa [List.append_assoc]
  · rwa [List.append_assoc, List.flatten_append]
  · rwa [List.append_assoc, List.flatten_append, List.flatten_append]
  · rintro rfl
    have size := congrArg List.length bytes
    rw [ByteRange.slice, ByteRange.size, List.length_take, List.length_drop] at size
    simp only [List.flatten_nil, List.length_nil] at size
    omega
  · rw [place, taken]
    simp [Chunk.extentSize, Nat.add_assoc]

/-- Some calls of a decoder of the whole source lead to the front of a chunk. -/
theorem calls_reach_chunk (accepted : d.Accepted)
    (prepared : prepare d configured chunkSize path data = .ok (some source))
    (member : chunk ∈ source.chunks) :
    ∃ n members later, Decoder.AreExtents d (members ++ later) ∧
      source.chunkDecoder chunk = Decoder.atLines members.flatten chunk.firstLine 0 ∧
      data.byteOrderMarkLength ≤ chunk.id.range.start ∧
      (Decoder.ofBytes data.afterByteOrderMark).afterCalls d n =
        (Decoder.atLines (members ++ later).flatten chunk.firstLine 0).moved
          (chunk.id.range.start - data.byteOrderMarkLength) := by
  obtain ⟨front, members, later, are, physical, flat, bytes, filled, start, firstLine⟩ :=
    extents_of_chunk accepted prepared member
  have nonempty : (members ++ later).flatten ≠ [] := by
    intro nothing
    obtain ⟨extent, others, rfl⟩ := List.exists_cons_of_ne_nil filled
    refine are.right.ne_nil (List.mem_cons_self ..) ?_
    exact List.flatten_eq_nil_iff.mp nothing _ (List.mem_cons_self ..)
  have counted : chunk.firstLine = 1 + front.flatten.length := by
    have taken : data.afterByteOrderMark.take (Chunk.extentSize front) = front.flatten.flatten := by
      rw [flat, List.flatten_append, List.flatten_append]
      exact List.take_left
    rw [List.flatten_append] at physical
    rw [firstLine, start, List.take_add, Bytes.lineFeeds_append, Bytes.lineFeeds_take_byteOrderMark,
      Nat.zero_add]
    change 1 + Bytes.lineFeeds (data.afterByteOrderMark.take (Chunk.extentSize front)) = _
    rw [taken, physical.lineFeeds_flatten nonempty]
  refine ⟨front.length, members, later, are.right, ?_, ?_, ?_⟩
  · rw [chunkDecoder, bytes, Decoder.ofBytes_eq]
    rw [List.flatten_append, List.flatten_append] at physical
    rw [physical.right.left.lines_flatten]
  · rw [start]
    exact Nat.le_add_right ..
  · have behind := Decoder.afterCalls_extents are 1 0 front.length
    rw [List.drop_left, List.take_left, ← counted] at behind
    rw [Decoder.ofBytes_eq, flat, physical.lines_flatten, behind, start, Nat.add_sub_cancel_left]
    rfl

/-- A chunk is decoded as the whole source is, with the offsets of errors counted from the front of
the chunk. -/
theorem calls_of_chunk (accepted : d.Accepted)
    (prepared : prepare d configured chunkSize path data = .ok (some source))
    (member : chunk ∈ source.chunks) :
    ∃ n, ∀ k item, (source.chunkDecoder chunk).nthCall d k = some item →
      let whole := Decoder.ofBytes data.afterByteOrderMark
      let shift := chunk.id.range.start - data.byteOrderMarkLength
      data.byteOrderMarkLength ≤ chunk.id.range.start ∧
      whole.nthCall d (n + k) = some (item.mapError (·.moved shift)) ∧
      (whole.afterCalls d (n + k)).offset =
        ((source.chunkDecoder chunk).afterCalls d k).offset + shift := by
  obtain ⟨n, members, later, are, decoder, within, reached⟩ :=
    calls_reach_chunk accepted prepared member
  refine ⟨n, fun k item found => ?_⟩
  intro whole shift
  rw [decoder] at found ⊢
  obtain ⟨called, -, offset⟩ := Decoder.calls_left are found
  have goesOn : whole.afterCalls d (n + k) =
      ((Decoder.atLines (members ++ later).flatten chunk.firstLine 0).afterCalls d k).moved
        shift := by
    rw [Decoder.afterCalls_add, reached, Decoder.afterCalls_moved]
  refine ⟨within, ?_, ?_⟩
  · have yields := Decoder.nthCall_moved d
      (Decoder.atLines (members ++ later).flatten chunk.firstLine 0) shift k
    rw [called] at yields
    rw [Decoder.nthCall, Decoder.afterCalls_add, reached]
    exact yields
  · rw [goesOn, ← offset]
    rfl

/-- Whether some ingestion of a chunk fails for a quote that stays open, at this line and offset. -/
def LeavesQuoteOpen (d : Dialect) (source : Source) (chunk : Chunk) (line offset : Nat) : Prop :=
  ∃ (ingester : Ingester) (sink : Sink) (before : Counts), ingester.dialect = d ∧
    (ingester.ingest (source.chunkDecoder chunk) sink).1 =
      .error (.decode (.unterminatedQuote line offset) before)

/-- A decoder of the whole source fails where a chunk does, as far behind the front of the chunk as
the offset tells. -/
theorem LeavesQuoteOpen.whole (accepted : d.Accepted)
    (prepared : prepare d configured chunkSize path data = .ok (some source))
    (member : chunk ∈ source.chunks) {line offset : Nat}
    (opened : LeavesQuoteOpen d source chunk line offset) :
    ∃ n, let whole := Decoder.ofBytes data.afterByteOrderMark
      data.byteOrderMarkLength + (whole.afterCalls d n).offset = chunk.id.range.start + offset ∧
      whole.nthCall d n =
        some (.error (.unterminatedQuote line (whole.afterCalls d n).offset)) := by
  obtain ⟨ingester, sink, before, rfl, failed⟩ := opened
  obtain ⟨k, called⟩ := Ingester.nthCall_of_ingest failed
  obtain ⟨n, each⟩ := calls_of_chunk accepted prepared member
  obtain ⟨within, yields, reached⟩ := each k _ called
  have counted : offset = ((source.chunkDecoder chunk).afterCalls ingester.dialect k).offset := by
    rcases Decoder.error_of_next called with same | ⟨cause, same⟩
    · exact (DecodeError.unterminatedQuote.inj same).2
    · cases same
  rw [← counted] at reached
  refine ⟨n + k, ?_, ?_⟩
  · rw [reached]
    omega
  · rw [yields, reached]
    rfl

/-- An ingestion of a chunk that fails for an unterminated quote reports the line on which the
failing record stands in the source, and the offset of the record in the chunk.  With the start of
the chunk added, the offset is the byte at which a decoder of the whole source fails, with the same
line.  Only for a chunk at the front of the source does the offset alone say that.  However the
source is cut, and wherever its header comes from, the chunks that fail so agree on the line and on
this byte. -/
theorem place_of_unterminatedQuote (accepted : d.Accepted)
    (prepared : prepare d configured chunkSize path data = .ok (some source))
    (member : chunk ∈ source.chunks) {line offset : Nat}
    (opened : LeavesQuoteOpen d source chunk line offset) :
    let whole := Decoder.ofBytes data.afterByteOrderMark
    let place := chunk.id.range.start + offset
    (∃ n, data.byteOrderMarkLength + (whole.afterCalls d n).offset = place ∧
      whole.nthCall d n =
        some (.error (.unterminatedQuote line (whole.afterCalls d n).offset))) ∧
    line = 1 + Bytes.lineFeeds (data.take place) ∧
    (offset = place ↔ chunk.id.range.start = 0) ∧
    ∀ (otherHeader : Option Header) (otherSize : Nat) (otherPath : String) (other : Source)
      (part : Chunk) (otherLine otherOffset : Nat),
      prepare d otherHeader otherSize otherPath data = .ok (some other) → part ∈ other.chunks →
      LeavesQuoteOpen d other part otherLine otherOffset →
      otherLine = line ∧ part.id.range.start + otherOffset = place := by
  intro whole place
  obtain ⟨n, reached, failed⟩ := opened.whole accepted prepared member
  refine ⟨⟨n, reached, failed⟩, ?_, ?_, ?_⟩
  · have counted := (Decoder.line_of_next failed rfl).trans
      (Decoder.line_afterCalls (Decoder.offset_lt_of_nthCall failed))
    change line = 1 + Bytes.lineFeeds (data.take (chunk.id.range.start + offset))
    rw [← reached, List.take_add, Bytes.lineFeeds_append, Bytes.lineFeeds_take_byteOrderMark,
      Nat.zero_add]
    exact counted
  · change offset = chunk.id.range.start + offset ↔ _
    omega
  · intro otherHeader otherSize otherPath other part otherLine otherOffset otherPrepared listed
      otherOpened
    obtain ⟨m, otherReached, otherFailed⟩ := otherOpened.whole accepted otherPrepared listed
    obtain rfl := Decoder.unique_of_error failed otherFailed
    have same := failed.symm.trans otherFailed
    simp only [Option.some.injEq, Except.error.injEq, DecodeError.unterminatedQuote.injEq] at same
    exact ⟨same.1.symm, otherReached.symm.trans reached⟩

/-- The second record of a source whose last quote stays open, in a chunk of its own. -/
theorem place_of_unterminatedQuote_lastChunk :
    let data : Bytes := [97, 10, 49, 10, 34, 120]
    let header : Header := ⟨["a"], by decide, by decide, by decide⟩
    let first : Chunk := ⟨⟨"in.csv", 0, ⟨2, 4⟩⟩, 2⟩
    let last : Chunk := ⟨⟨"in.csv", 1, ⟨4, 6⟩⟩, 3⟩
    let source : Source := { path := "in.csv", header, chunks := [first, last], data }
    Dialect.Accepted {} ∧ prepare {} none 1 "in.csv" data = .ok (some source) ∧
      last ∈ source.chunks ∧ LeavesQuoteOpen {} source last 3 0 ∧
      3 = 1 + Bytes.lineFeeds (data.take 4) ∧
      ∃ n, ((Decoder.ofBytes data).afterCalls {} n).offset = 4 ∧
        (Decoder.ofBytes data).nthCall {} n = some (.error (.unterminatedQuote 3 4)) := by
  intro data header first last source
  have prepared : prepare {} none 1 "in.csv" data = .ok (some source) := by decide +kernel
  have member : last ∈ source.chunks := .tail _ (.head _)
  have opened : LeavesQuoteOpen {} source last 3 0 := by
    refine ⟨{ header }, {}, {}, rfl, ?_⟩
    decide +kernel
  obtain ⟨⟨n, reached, failed⟩, line, -⟩ :=
    place_of_unterminatedQuote Dialect.accepted_default prepared member opened
  change 0 + ((Decoder.ofBytes data).afterCalls {} n).offset = 4 at reached
  rw [Nat.zero_add] at reached
  refine ⟨Dialect.accepted_default, prepared, member, opened, line, n, reached, ?_⟩
  rw [← reached]
  exact failed

/-- A record at byte 4 of a source is reported at byte 0 if it is in a chunk of its own, and at byte
2 if the record in front of it is in the same chunk. -/
theorem offset_dependsOn_chunkSize :
    let data : Bytes := [97, 10, 49, 10, 34, 120]
    let header : Header := ⟨["a"], by decide, by decide, by decide⟩
    let ingester : Ingester := { header }
    let first : Chunk := ⟨⟨"in.csv", 0, ⟨2, 4⟩⟩, 2⟩
    let last : Chunk := ⟨⟨"in.csv", 1, ⟨4, 6⟩⟩, 3⟩
    let both : Chunk := ⟨⟨"in.csv", 0, ⟨2, 6⟩⟩, 2⟩
    let cut : Source := { path := "in.csv", header, chunks := [first, last], data }
    let uncut : Source := { path := "in.csv", header, chunks := [both], data }
    prepare {} none 1 "in.csv" data = .ok (some cut) ∧
      prepare {} none 8 "in.csv" data = .ok (some uncut) ∧
      (ingester.ingest (cut.chunkDecoder last) {}).1 =
        .error (.decode (.unterminatedQuote 3 0) ⟨0, 0⟩) ∧
      (ingester.ingest (uncut.chunkDecoder both) {}).1 =
        .error (.decode (.unterminatedQuote 3 2) ⟨1, 0⟩) ∧
      ((Decoder.ofBytes data).afterCalls {} 2).offset = 4 ∧
      (Decoder.ofBytes data).nthCall {} 2 = some (.error (.unterminatedQuote 3 4)) := by
  intro data header ingester first last both cut uncut
  decide +kernel

end Source

end CsvImport

import CsvImport.Proofs.Flights
import CsvImport.Proofs.Reading
import Mathlib.Data.List.Basic

/-!
# Headers inside and outside of a source

A header can stand in front of the data or be given apart from it.  Either way the data
falls into the same chunks: a record in front only moves their ranges and their line numbers,
and no ingestion depends on these but for the line of its error.
-/

namespace CsvImport

namespace Bytes

theorem Whole.drop {bytes : Bytes} (whole : Whole bytes) (n : Nat) : Whole (bytes.drop n) := by
  induction n generalizing bytes with
  | zero => exact whole
  | succ n ih =>
      cases bytes with
      | nil => exact whole_nil
      | cons b later => exact ih whole.tail

/-- A byte order mark is found in whole lines or not at all. -/
theorem byteOrderMarkLength_append {front : Bytes} (whole : Whole front) (nonempty : front ≠ [])
    (later : Bytes) : byteOrderMarkLength (front ++ later) = byteOrderMarkLength front := by
  have same : byteOrderMark <+: front ++ later ↔ byteOrderMark <+: front := by
    constructor
    · intro marked
      rcases List.prefix_or_prefix_of_prefix marked (List.prefix_append front later) with
        inside | around
      · exact inside
      · -- The mark has no line feed, and the front ends with one.
        obtain ⟨b, last⟩ := Option.isSome_iff_exists.mp (List.getLast?_isSome.mpr nonempty)
        obtain rfl := whole b last
        have member := around.subset (List.mem_of_getLast? last)
        exact absurd member (by decide)
    · exact fun marked => marked.trans (List.prefix_append front later)
  unfold byteOrderMarkLength
  simp only [List.isPrefixOf_iff_prefix, same]

theorem afterByteOrderMark_append {front : Bytes} (whole : Whole front) (nonempty : front ≠ [])
    (later : Bytes) : afterByteOrderMark (front ++ later) = afterByteOrderMark front ++ later := by
  have within : byteOrderMarkLength front ≤ front.length := by
    unfold byteOrderMarkLength
    split
    · rename_i marked
      exact (List.isPrefixOf_iff_prefix.mp marked).length_le
    · exact Nat.zero_le _
  unfold afterByteOrderMark
  rw [byteOrderMarkLength_append whole nonempty, List.drop_append_of_le_length within]

/-- A byte order mark holds no line feed. -/
theorem lineFeeds_afterByteOrderMark (bytes : Bytes) :
    lineFeeds (afterByteOrderMark bytes) = lineFeeds bytes := by
  unfold afterByteOrderMark byteOrderMarkLength
  split
  · rename_i marked
    obtain ⟨rest, rfl⟩ := List.isPrefixOf_iff_prefix.mp marked
    have parts : lineFeeds (byteOrderMark ++ rest) = lineFeeds byteOrderMark + lineFeeds rest :=
      List.count_append
    have none : lineFeeds byteOrderMark = 0 := by decide
    rw [List.drop_left, parts, none, Nat.zero_add]
  · rfl

end Bytes

/-! ## Later lines -/

def DecodeError.later (lines : Nat) : DecodeError → DecodeError
  | unterminatedQuote line offset => unterminatedQuote (line + lines) offset
  | readInput line cause => readInput (line + lines) cause

def Item.later {α : Type} (lines : Nat) : Item α → Item α
  | row r => row { r with line := r.line + lines }
  | blank => blank

def Decoder.later {α : Type} (lines : Nat) (item : Except DecodeError (Item α)) :
    Except DecodeError (Item α) :=
  (item.map (·.later lines)).mapError (·.later lines)

def IngestError.later (lines : Nat) : IngestError → IngestError
  | decode source before => decode (source.later lines) before
  | assemble source line before => assemble source (line + lines) before
  | encode source line before => encode source (line + lines) before

/-- A later first line moves the lines of items and errors and changes nothing else. -/
theorem Extent.items_later (d : Dialect) (line offset lines : Nat) (all : List Extent) :
    items d (line + lines) offset all = (items d line offset all).map (Decoder.later lines) := by
  induction all generalizing line offset with
  | nil => rfl
  | cons extent rest ih =>
      rw [items, items, List.map_cons, Nat.add_right_comm, ih]
      refine congrArg (· :: _) ?_
      unfold item Scan.ended
      split
      · rfl
      · split <;> rfl

theorem Decoder.records_later (d : Dialect) (bytes : Bytes) (line lines : Nat) :
    ((ofBytes bytes (line + lines)).records d).1 =
      ((ofBytes bytes line).records d).1.map (later lines) := by
  rw [ofBytes_eq, ofBytes_eq, records_lines, records_lines, Extent.items_later, List.map_map,
    List.map_map]
  refine List.map_congr_left fun item _ => ?_
  rcases item with e | _ | _ <;> rfl

namespace Ingester

variable (ingester : Ingester)

theorem items_later (lines : Nat) (run : Ingestion)
    (items : List (Except DecodeError (Item String))) :
    ingester.items run (items.map (Decoder.later lines)) =
      ((ingester.items run items).1.map (·.later lines), (ingester.items run items).2) := by
  induction items generalizing run with
  | nil => rfl
  | cons item rest ih =>
      rw [List.map_cons]
      rcases item with e | row | _
      · rfl
      · change ingester.items run (.ok (.row { row with line := row.line + lines }) ::
          rest.map (Decoder.later lines)) = _
        rw [Ingester.items, Ingester.items]
        rcases assemble ingester.policy ingester.header row.fields with mismatch | doc | _
        · rfl
        · simp only
          rcases run.writer.write doc with ⟨_ | _, writer⟩
          · rfl
          · exact ih _
        · exact ih _
      · exact ih _

/-- Where an ingestion begins shows in the line of its error only. -/
theorem ingest_later (bytes : Bytes) (line lines : Nat) (sink : Sink) :
    ingester.ingest (Decoder.ofBytes bytes (line + lines)) sink =
      ((ingester.ingest (Decoder.ofBytes bytes line) sink).1.mapError (·.later lines),
        (ingester.ingest (Decoder.ofBytes bytes line) sink).2) := by
  unfold ingest
  rw [Decoder.records_later, items_later]
  rcases ingester.items { writer := { sink } }
    ((Decoder.ofBytes bytes line).records ingester.dialect).1 with ⟨_ | e, run⟩ <;> rfl

end Ingester

/-! ## Later ranges -/

def ByteRange.moved (bytes : Nat) (range : ByteRange) : ByteRange :=
  ⟨range.start + bytes, range.stop + bytes⟩

def Chunk.moved (bytes lines : Nat) (chunk : Chunk) : Chunk :=
  ⟨{ chunk.id with range := chunk.id.range.moved bytes }, chunk.firstLine + lines⟩

/-- A moved range holds the same bytes behind a front of that length. -/
theorem ByteRange.slice_moved (front data : Bytes) (range : ByteRange) :
    (range.moved front.length).slice (front ++ data) = range.slice data := by
  have size : (range.moved front.length).size = range.size := Nat.add_sub_add_right ..
  unfold slice
  rw [size]
  change ((front ++ data).drop (range.start + front.length)).take _ = _
  rw [Nat.add_comm, ← List.drop_drop, List.drop_left]

namespace Chunk

theorem planFrom_moved (d : Dialect) (target start here bytes : Nat) (state : FieldState)
    (rest : Bytes) :
    planFrom d target (start + bytes) (here + bytes) state rest =
      (planFrom d target start here state rest).map (·.moved bytes) := by
  induction rest generalizing start here state with
  | nil =>
      by_cases within : start < here <;> simp [planFrom, ByteRange.moved, within]
  | cons b later ih =>
      have next : here + bytes + 1 = here + 1 + bytes := Nat.add_right_comm ..
      have size : here + 1 + bytes - (start + bytes) = here + 1 - start := by omega
      unfold planFrom
      rw [next, size]
      split
      · split
        · rw [ih, List.map_cons]
          rfl
        · exact ih ..
      · exact ih ..

/-- Data behind a front is planned like the data alone. -/
theorem plan_append (d : Dialect) (front data : Bytes) (target : Nat) :
    plan d (front ++ data) front.length target =
      (plan d data 0 target).map (·.moved front.length) := by
  have moved := planFrom_moved d (max target 1) 0 0 front.length .fieldStart data
  have within : front.length ≤ (front ++ data).length := by
    rw [List.length_append]
    exact Nat.le_add_right ..
  rw [Nat.zero_add] at moved
  unfold plan
  simp only [Nat.min_eq_left within, List.drop_left, Nat.zero_min, List.drop_zero]
  exact moved

end Chunk

/-- Ranges behind a front are numbered like those of the data alone. -/
theorem Source.number_moved (path : String) (front data : Bytes) (index line lines : Nat)
    (ranges : List ByteRange) :
    number path (front ++ data) index (line + lines) (ranges.map (·.moved front.length)) =
      (number path data index line ranges).map (·.moved front.length lines) := by
  induction ranges generalizing index line with
  | nil => rfl
  | cons range rest ih =>
      rw [List.map_cons, number, number, List.map_cons, ByteRange.slice_moved, Nat.add_right_comm,
        ih]
      rfl

/-! ## A header in front of the data -/

namespace Header

/-- Whether the bytes are one record behind an optional byte order mark. -/
def IsRecord (d : Dialect) (bytes : Bytes) : Prop :=
  ∃ row, ((Decoder.ofBytes bytes.afterByteOrderMark).records d).1 = [.ok (.row row)]

end Header

namespace Decoder

theorem nextRow_of_row {d : Dialect} {decoder after : Decoder} {row : Row String}
    (read : decoder.next d = (some (.ok (.row row)), after)) :
    decoder.nextRow d = (.ok (some row), after) := by
  rw [nextRow]
  split <;> simp_all

theorem nextRow_of_blank {d : Dialect} {decoder after : Decoder}
    (read : decoder.next d = (some (.ok .blank), after)) :
    decoder.nextRow d = after.nextRow d := by
  rw [nextRow]
  split <;> simp_all

/-- Lines that yield nothing but one item are the extent of that item. -/
theorem lines_of_records {d : Dialect} {lines : List Bytes} {line offset : Nat}
    {item : Except DecodeError (Item String)}
    (found : ((atLines lines line offset).records d).1 = [item]) :
    ∃ first more, lines = first :: more ∧ cutFirst d first more = (first :: more, []) ∧
      asText (Extent.item d line offset (first :: more)) = item := by
  cases lines with
  | nil =>
      rw [records_lines, extents_nil] at found
      cases found
  | cons first more =>
      rw [records_lines, extents_cons, Extent.items, List.map_cons] at found
      obtain ⟨same, none⟩ := List.cons.inj found
      have nothing : (cutFirst d first more).2 = [] := by
        cases rest : (cutFirst d first more).2 with
        | nil => rfl
        | cons next others =>
            rw [rest, extents_cons, Extent.items, List.map_cons] at none
            cases none
      have whole := cutFirst_append d first more
      rw [nothing, List.append_nil] at whole
      rw [whole] at same
      exact ⟨first, more, rfl, Prod.ext whole nothing, same⟩

end Decoder

namespace Header

/-- A record in front of the data is split off as the header that it is parsed as. -/
theorem split_append {d : Dialect} {front : Bytes} {header : Header}
    (ended : front.getLast? = some Bytes.lf) (one : IsRecord d front)
    (parsed : parse d front = .ok header) (data : Bytes) :
    split d (front ++ data) = .ok (some ⟨header, front.length, 1 + front.lineFeeds⟩) := by
  have nonempty : front ≠ [] := by
    rintro rfl
    cases ended
  have whole : front.Whole := by
    intro b last
    rw [ended] at last
    exact (Option.some.inj last).symm
  have inner : front.afterByteOrderMark.Whole := whole.drop _
  obtain ⟨row, decoded⟩ := one
  rw [Decoder.ofBytes_eq] at decoded
  obtain ⟨first, more, lines, cut, read⟩ := Decoder.lines_of_records decoded
  obtain ⟨item, raw, isRow⟩ : ∃ item, Extent.item d 1 0 (first :: more) = .ok item ∧
      Item.map Utf8.decodeLossy item = .row row := by
    cases raw : Extent.item d 1 0 (first :: more) with
    | error e =>
        rw [raw] at read
        cases read
    | ok item =>
        rw [raw] at read
        exact ⟨item, rfl, Except.ok.inj read⟩
  -- The header alone, and the header with the data behind it, begin with the same record.
  have alone := Decoder.next_lines d first more 1 0
  have around := Decoder.next_lines d first (more ++ data.lines) 1 0
  rw [cut, read] at alone
  rw [Decoder.cutFirst_right cut raw, read] at around
  unfold parse at parsed
  rw [Decoder.ofBytes_eq, lines, alone] at parsed
  have size : (first :: more).flatten = front.afterByteOrderMark := by
    rw [← lines, Bytes.flatten_lines]
  have counted : (first :: more).length = front.lineFeeds := by
    rw [← lines, Bytes.length_lines inner, Bytes.lineFeeds_afterByteOrderMark]
  have marked : front.byteOrderMarkLength + front.afterByteOrderMark.length = front.length := by
    unfold Bytes.afterByteOrderMark Bytes.byteOrderMarkLength
    split
    · rename_i marked
      have within := (List.isPrefixOf_iff_prefix.mp marked).length_le
      rw [List.length_drop]
      omega
    · exact Nat.zero_add _
  unfold split
  rw [Bytes.afterByteOrderMark_append whole nonempty, Decoder.ofBytes_eq,
    Bytes.lines_append inner, lines, List.cons_append, Decoder.nextRow_of_row around]
  simp only [Bytes.byteOrderMarkLength_append whole nonempty]
  simp only at parsed
  rw [parsed]
  simp only [Extent.bytes, size, counted, Nat.zero_add]
  have start := congrArg (fun bytes => (⟨header, bytes, 1 + front.lineFeeds⟩ : Split)) marked
  exact congrArg (fun found => Except.ok (some found)) start

end Header

namespace Source

/-- A header in front of the data and the same header given apart from it lead to the same
chunks.  The front only moves them, and where a chunk stands does not show in what becomes of
it but for the line of an error. -/
theorem prepare_front {d : Dialect} {front data : Bytes} {header : Header}
    (ended : front.getLast? = some Bytes.lf) (one : Header.IsRecord d front)
    (parsed : Header.parse d front = .ok header) (unmarked : ¬ Bytes.byteOrderMark <+: data)
    (chunkSize : Nat) (path : String) :
    ∃ within apart,
      prepare d none chunkSize path (front ++ data) = .ok (some within) ∧
        prepare d (some header) chunkSize path data = .ok (some apart) ∧
        within.header = header ∧ apart.header = header ∧
        within.chunks = apart.chunks.map (·.moved front.length front.lineFeeds) ∧
        ∀ chunk ∈ apart.chunks,
          let moved := chunk.moved front.length front.lineFeeds
          within.chunkBytes moved = apart.chunkBytes chunk ∧
            ∀ policy sink,
              let ingester : Ingester := { header, dialect := d, policy }
              let (result, run) := ingester.ingest (apart.chunkDecoder chunk) sink
              ingester.ingest (within.chunkDecoder moved) sink =
                (result.mapError (·.later front.lineFeeds), run) := by
  have start : data.byteOrderMarkLength = 0 := by
    unfold Bytes.byteOrderMarkLength
    rw [if_neg fun marked => unmarked (List.isPrefixOf_iff_prefix.mp marked)]
  refine ⟨{
      path, header, data := front ++ data
      chunks := number path (front ++ data) 0 (1 + front.lineFeeds)
        (Chunk.plan d (front ++ data) front.length chunkSize) }, {
      path, header, data
      chunks := number path data 0 1 (Chunk.plan d data 0 chunkSize) }, ?_, ?_, rfl, rfl, ?_, ?_⟩
  · unfold prepare split
    simp only [Header.split_append ended one parsed data]
    rfl
  · unfold prepare split
    rw [start]
    rfl
  · rw [Chunk.plan_append, number_moved]
  · intro chunk _
    have same := ByteRange.slice_moved front data chunk.id.range
    refine ⟨same, fun policy sink => ?_⟩
    unfold chunkDecoder chunkBytes Chunk.moved
    simp only
    rw [same]
    exact Ingester.ingest_later _ _ _ _ _

/-- A byte order mark and a header of two physical lines in front of one row. -/
theorem prepare_front_quotedName :
    let front : Bytes := [0xEF, 0xBB, 0xBF, 97, 44, 34, 98, 10, 34, 10]
    let data : Bytes := [49, 44, 50, 10]
    let header : Header := ⟨["a", "b\n"], ⟨by simp, by decide, by decide⟩⟩
    front.getLast? = some Bytes.lf ∧ Header.IsRecord {} front ∧
      Header.parse {} front = .ok header ∧ ¬ Bytes.byteOrderMark <+: data ∧
      ∃ within apart, prepare {} none 1 "rows.csv" (front ++ data) = .ok (some within) ∧
        prepare {} (some header) 1 "rows.csv" data = .ok (some apart) ∧
        apart.chunks = [⟨⟨"rows.csv", 0, ⟨0, 4⟩⟩, 1⟩] ∧
        within.chunks = [⟨⟨"rows.csv", 0, ⟨10, 14⟩⟩, 3⟩] := by
  intro front data header
  have ended : front.getLast? = some Bytes.lf := by decide
  have one : Header.IsRecord {} front := ⟨⟨["a", "b\n"], 1⟩, by decide +kernel⟩
  have parsed : Header.parse {} front = .ok header := by decide +kernel
  have unmarked : ¬ Bytes.byteOrderMark <+: data := by decide
  obtain ⟨within, apart, inside, outside, _, _, moved, _⟩ :=
    prepare_front ended one parsed unmarked 1 "rows.csv"
  have chunks : apart.chunks = [⟨⟨"rows.csv", 0, ⟨0, 4⟩⟩, 1⟩] := by
    have known : (prepare {} (some header) 1 "rows.csv" data).toOption.join.map (·.chunks) =
        some [⟨⟨"rows.csv", 0, ⟨0, 4⟩⟩, 1⟩] := by decide +kernel
    rw [outside] at known
    exact Option.some.inj known
  refine ⟨ended, one, parsed, unmarked, within, apart, inside, outside, chunks, ?_⟩
  rw [moved, chunks]
  decide

end Source

end CsvImport

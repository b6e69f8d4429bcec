import CsvImport.Proofs.Coarsening
import CsvImport.Proofs.HeaderModes
import CsvImport.Proofs.Interruptions

/-!
# How a source is split

A source that holds its own header is an optional byte order mark, blank lines, the record of the
names, and the data.  The chunks tile the data and each knows the line on which it begins, so
what is decoded in a chunk carries the line on which it stands in the whole source.
-/

namespace CsvImport

namespace Bytes

theorem lineFeeds_append (first later : Bytes) :
    lineFeeds (first ++ later) = lineFeeds first + lineFeeds later :=
  List.count_append

theorem byteOrderMarkLength_le (bytes : Bytes) : byteOrderMarkLength bytes ≤ bytes.length := by
  unfold byteOrderMarkLength
  split
  · rename_i marked
    exact (List.isPrefixOf_iff_prefix.mp marked).length_le
  · exact Nat.zero_le _

/-- There is no line feed up to the end of a byte order mark. -/
theorem lineFeeds_take_byteOrderMark (bytes : Bytes) :
    lineFeeds (bytes.take (byteOrderMarkLength bytes)) = 0 := by
  have parts := lineFeeds_append (bytes.take (byteOrderMarkLength bytes)) (afterByteOrderMark bytes)
  have whole : bytes.take (byteOrderMarkLength bytes) ++ afterByteOrderMark bytes = bytes :=
    List.take_append_drop ..
  rw [whole, lineFeeds_afterByteOrderMark] at parts
  omega

end Bytes

namespace Extent

theorem take_items (d : Dialect) (line offset n : Nat) (all : List Extent) :
    (items d line offset all).take n = items d line offset (all.take n) := by
  induction all generalizing line offset n with
  | nil => rw [items, List.take_nil, List.take_nil, items]
  | cons extent later ih =>
      cases n with
      | zero => rfl
      | succ n => rw [items, List.take_succ_cons, List.take_succ_cons, items, ih]

end Extent

namespace Decoder

variable {d : Dialect} {bytes : Bytes} {firstLine n : Nat}

/-! ## Lines of items -/

def lineOf? : Except DecodeError (Item String) → Option Nat
  | .ok (.row row) => some row.line
  | .ok .blank => none
  | .error e => some e.line

/-- The extents that so many calls take, and those behind them. -/
theorem afterCalls_ofBytes (d : Dialect) (bytes : Bytes) (firstLine n : Nat) :
    ∃ front rest : List Extent,
      AreExtents d (front ++ rest) ∧ (front ++ rest).take n = front ∧
      Bytes.Physical (front.flatten ++ rest.flatten) ∧
      bytes = front.flatten.flatten ++ rest.flatten.flatten ∧
      (ofBytes bytes firstLine).afterCalls d n =
        atLines rest.flatten (firstLine + front.flatten.length) front.flatten.flatten.length ∧
      (ofBytes bytes firstLine).nthCall d n = rest.head?.map fun extent =>
        asText (extent.item d (firstLine + front.flatten.length) front.flatten.flatten.length) := by
  have are := areExtents_extents d bytes.lines
  have whole := flatten_extents d bytes.lines
  have behind := afterCalls_extents are firstLine 0 n
  have called := nthCall_extents are firstLine 0 n
  have physical := Bytes.physical_lines bytes
  have flat := Bytes.flatten_lines bytes
  rw [whole, ← ofBytes_eq, Nat.zero_add] at behind called
  rw [← whole] at physical flat
  generalize extents d bytes.lines = all at are behind called physical flat
  have parts := List.take_append_drop n all
  rw [← parts, List.flatten_append] at physical flat
  rw [List.flatten_append] at flat
  refine ⟨all.take n, all.drop n, ?_, ?_, physical, flat.symm, behind, ?_⟩
  · rwa [parts]
  · rw [parts]
  · rw [called, List.head?_drop]

/-- A row and an error carry the number of the line that comes next. -/
theorem line_of_next {decoder : Decoder} {item : Except DecodeError (Item String)} {line : Nat}
    (found : (decoder.next d).1 = some item) (carried : line ∈ lineOf? item) :
    line = decoder.line := by
  rcases item with e | row | _
  · obtain rfl := Option.some.inj carried
    rcases error_of_next found with rfl | ⟨cause, rfl⟩ <;> rfl
  · obtain rfl := Option.some.inj carried
    exact line_of_row found
  · cases carried

/-- As long as a call yields something, bytes are left. -/
theorem offset_lt_of_nthCall {item : Except DecodeError (Item String)}
    (found : (ofBytes bytes firstLine).nthCall d n = some item) :
    ((ofBytes bytes firstLine).afterCalls d n).offset < bytes.length := by
  obtain ⟨front, rest, are, -, physical, flat, behind, called⟩ :=
    afterCalls_ofBytes d bytes firstLine n
  rw [called] at found
  obtain ⟨extent, head, -⟩ := Option.map_eq_some_iff.mp found
  have member : extent ∈ rest := List.mem_of_mem_head? head
  have nonempty := are.right.bytes_ne_nil physical.right member
  have some : rest.flatten.flatten ≠ [] := by
    intro nothing
    have each := List.flatten_eq_nil_iff.mp nothing
    refine nonempty (List.flatten_eq_nil_iff.mpr fun line listed => each line ?_)
    exact List.mem_flatten_of_mem member listed
  rw [behind, flat, List.length_append]
  exact Nat.lt_add_of_pos_right (List.length_pos_iff.mpr some)

theorem offset_le_length (d : Dialect) (bytes : Bytes) (firstLine n : Nat) :
    ((ofBytes bytes firstLine).afterCalls d n).offset ≤ bytes.length := by
  obtain ⟨front, rest, -, -, -, flat, behind, -⟩ := afterCalls_ofBytes d bytes firstLine n
  rw [behind, flat, List.length_append]
  exact Nat.le_add_right ..

/-- As long as bytes are left, the lines that are counted are the line feeds that were taken. -/
theorem line_afterCalls
    (more : ((ofBytes bytes firstLine).afterCalls d n).offset < bytes.length) :
    ((ofBytes bytes firstLine).afterCalls d n).line = firstLine +
      Bytes.lineFeeds (bytes.take ((ofBytes bytes firstLine).afterCalls d n).offset) := by
  obtain ⟨front, rest, -, -, physical, flat, behind, -⟩ := afterCalls_ofBytes d bytes firstLine n
  rw [behind] at more ⊢
  change front.flatten.flatten.length < bytes.length at more
  change firstLine + front.flatten.length =
    firstLine + Bytes.lineFeeds (bytes.take front.flatten.flatten.length)
  have left : rest.flatten ≠ [] := by
    intro nothing
    rw [flat, nothing, List.flatten_nil, List.append_nil] at more
    exact absurd more (Nat.lt_irrefl _)
  rw [flat, List.take_left, physical.lineFeeds_flatten left]

theorem records_take (d : Dialect) (bytes : Bytes) (firstLine n : Nat) :
    ((ofBytes (bytes.take ((ofBytes bytes firstLine).afterCalls d n).offset)
      firstLine).records d).1 = ((ofBytes bytes firstLine).records d).1.take n := by
  obtain ⟨front, rest, are, first, physical, flat, behind, -⟩ :=
    afterCalls_ofBytes d bytes firstLine n
  have all : extents d bytes.lines = front ++ rest := by
    rw [flat, ← List.flatten_append, physical.lines_flatten, ← List.flatten_append]
    exact are
  have alone : extents d front.flatten = front := are.left
  rw [behind, ofBytes_eq bytes, records_lines, all, ← List.map_take, Extent.take_items, first]
  change ((ofBytes (bytes.take front.flatten.flatten.length) firstLine).records d).1 = _
  rw [flat, List.take_left, ofBytes_eq, physical.left.lines_flatten, records_lines, alone]

/-! ## The first row -/

/-- The row that a call yields, if it yields one. -/
def asRow : Option (Except DecodeError (Item String)) → Except DecodeError (Option (Row String))
  | some (.ok (.row row)) => .ok (some row)
  | some (.error e) => .error e
  | some (.ok .blank) => .ok none
  | none => .ok none

theorem nextRow_of_other {decoder : Decoder} (other : decoder.nthCall d 0 ≠ some (.ok .blank)) :
    decoder.nextRow d = (asRow (decoder.nthCall d 0), decoder.afterCalls d 1) := by
  change (decoder.next d).1 ≠ _ at other
  change _ = (asRow (decoder.next d).1, (decoder.next d).2)
  rw [nextRow]
  split <;> simp_all [asRow]

/-- The next row is what the first call behind those of blank lines yields. -/
theorem nextRow_calls (d : Dialect) (decoder : Decoder) :
    ∃ blanks, (∀ k < blanks, decoder.nthCall d k = some (.ok .blank)) ∧
      decoder.nthCall d blanks ≠ some (.ok .blank) ∧
      decoder.nextRow d =
        (asRow (decoder.nthCall d blanks), decoder.afterCalls d (blanks + 1)) := by
  induction size : decoder.input.length using Nat.strongRecOn generalizing decoder with
  | _ size ih =>
      by_cases blank : decoder.nthCall d 0 = some (.ok .blank)
      · -- The calls behind a blank line are those of the decoder that it leaves.
        have read : decoder.next d = (some (.ok .blank), decoder.afterCalls d 1) :=
          Prod.ext blank rfl
        have shorter := next_length read
        obtain ⟨blanks, before, other, found⟩ := ih _ (size ▸ shorter) _ rfl
        refine ⟨blanks + 1, fun k within => ?_, other, (nextRow_of_blank read).trans found⟩
        cases k with
        | zero => exact blank
        | succ k => exact before k (Nat.lt_of_succ_lt_succ within)
      · exact ⟨0, fun k within => absurd within (Nat.not_lt_zero k), blank, nextRow_of_other blank⟩

def Leads (d : Dialect) (decoder : Decoder) (blanks : Nat) (row : Row String) : Prop :=
  (∀ k < blanks, decoder.nthCall d k = some (.ok .blank)) ∧
    decoder.nthCall d blanks = some (.ok (.row row))

theorem Leads.nextRow {decoder : Decoder} {blanks : Nat} {row : Row String}
    (leads : decoder.Leads d blanks row) :
    decoder.nextRow d = (.ok (some row), decoder.afterCalls d (blanks + 1)) := by
  induction blanks generalizing decoder with
  | zero => exact nextRow_of_row (Prod.ext leads.2 rfl)
  | succ blanks ih =>
      have read : decoder.next d = (some (.ok .blank), decoder.afterCalls d 1) :=
        Prod.ext (leads.1 0 (Nat.succ_pos blanks)) rfl
      have behind : (decoder.afterCalls d 1).Leads d blanks row :=
        ⟨fun k within => leads.1 (k + 1) (Nat.succ_lt_succ within), leads.2⟩
      exact (nextRow_of_blank read).trans (ih behind)

theorem leads_of_nextRow {decoder after : Decoder} {row : Row String}
    (found : decoder.nextRow d = (.ok (some row), after)) :
    ∃ blanks, decoder.Leads d blanks row := by
  obtain ⟨blanks, before, other, next⟩ := nextRow_calls d decoder
  rw [found] at next
  have same := congrArg Prod.fst next
  dsimp only at same
  refine ⟨blanks, before, ?_⟩
  rcases call : decoder.nthCall d blanks with _ | e | row' | _
  · rw [call] at same
    cases same
  · rw [call] at same
    cases same
  · rw [call] at same
    cases same
    rfl
  · exact absurd call other

theorem nthCall_ofBytes (d : Dialect) (bytes : Bytes) (firstLine n : Nat) :
    (ofBytes bytes firstLine).nthCall d n = ((ofBytes bytes firstLine).records d).1[n]? :=
  nthCall_lines d bytes.lines firstLine 0 n

/-- The rows that calls lead to stand in the list of all items. -/
theorem Leads.records_take {blanks : Nat} {row : Row String}
    (leads : (ofBytes bytes firstLine).Leads d blanks row) :
    ((ofBytes bytes firstLine).records d).1.take (blanks + 1) =
      List.replicate blanks (.ok .blank) ++ [.ok (.row row)] := by
  obtain ⟨before, last⟩ := leads
  simp only [nthCall_ofBytes] at before last
  generalize ((ofBytes bytes firstLine).records d).1 = items at before last
  have within : blanks < items.length := (List.getElem?_eq_some_iff.mp last).1
  rw [List.take_add_one, last]
  refine congrArg (· ++ _) (List.eq_replicate_iff.mpr ⟨?_, fun item member => ?_⟩)
  · rw [List.length_take]
    omega
  · obtain ⟨k, here⟩ := List.mem_iff_getElem?.mp member
    have inside := (List.getElem?_eq_some_iff.mp here).1
    rw [List.length_take] at inside
    rw [List.getElem?_take_of_lt (by omega), before k (by omega)] at here
    exact (Option.some.inj here).symm

/-- There is no row exactly when there are only blank lines. -/
theorem nextRow_eq_none_iff (d : Dialect) (bytes : Bytes) (firstLine : Nat) :
    ((ofBytes bytes firstLine).nextRow d).1 = .ok none ↔
      ∀ item ∈ ((ofBytes bytes firstLine).records d).1, item = .ok .blank := by
  obtain ⟨blanks, before, other, next⟩ := nextRow_calls d (ofBytes bytes firstLine)
  rw [next]
  simp only [nthCall_ofBytes] at before other ⊢
  generalize ((ofBytes bytes firstLine).records d).1 = items at before other ⊢
  constructor
  · intro none item member
    obtain ⟨k, here⟩ := List.mem_iff_getElem?.mp member
    have ended : items[blanks]? = .none := by
      rcases call : items[blanks]? with _ | e | row | _
      · rfl
      · rw [call] at none
        cases none
      · rw [call] at none
        cases none
      · exact absurd call other
    have within := (List.getElem?_eq_some_iff.mp here).1
    have beyond := List.getElem?_eq_none_iff.mp ended
    rw [before k (by omega)] at here
    exact (Option.some.inj here).symm
  · intro blank
    cases call : items[blanks]? with
    | none => rfl
    | some item =>
        rw [call, blank item (List.mem_of_getElem? call)] at other
        exact absurd rfl other

end Decoder

/-! ## Splitting a source -/

namespace Header

/-- Accepted names are the header's, trimmed if that is asked for. -/
theorem names_of_ofNames {trim : Bool} {names : List String} {header : Header}
    (accepted : ofNames trim names = .ok header) :
    header.names = if trim then names.map Text.trim else names := by
  unfold ofNames at accepted
  dsimp only at accepted
  split at accepted
  · cases accepted
  · split at accepted
    · cases accepted
    · cases accepted
      rfl

/-- The header of a source is what the fields of its first row make. -/
theorem split_of_leads {d : Dialect} {bytes : Bytes} {blanks : Nat} {row : Row String}
    (leads : (Decoder.ofBytes bytes.afterByteOrderMark).Leads d blanks row) :
    let after := (Decoder.ofBytes bytes.afterByteOrderMark).afterCalls d (blanks + 1)
    split d bytes = (ofNames d.trimHeader row.fields).map fun header =>
      some ⟨header, bytes.byteOrderMarkLength + after.offset, after.line⟩ := by
  intro after
  unfold split
  rw [leads.nextRow]
  simp only
  cases ofNames d.trimHeader row.fields <;> rfl

end Header

namespace Source

theorem range_number (path : String) (data : Bytes) (index line : Nat)
    (ranges : List ByteRange) :
    (number path data index line ranges).map (·.id.range) = ranges := by
  induction ranges generalizing index line with
  | nil => rfl
  | cons range later ih =>
      unfold number
      rw [List.map_cons, ih]

/-- The first line of a chunk counts the line feeds between the first range and its own. -/
theorem firstLine_number {path : String} {data : Bytes} {index line start stop : Nat}
    {ranges : List ByteRange} (tiles : Chunk.Tiles start stop ranges) {chunk : Chunk}
    (member : chunk ∈ number path data index line ranges) :
    chunk.firstLine + Bytes.lineFeeds (data.take start) =
      line + Bytes.lineFeeds (data.take chunk.id.range.start) := by
  induction tiles generalizing index line with
  | nil => cases member
  | @cons start middle stop later nonempty rest ih =>
      rcases List.mem_cons.mp member with rfl | member
      · rfl
      · have behind := ih member
        have parts : data.take middle =
            data.take start ++ (ByteRange.mk start middle).slice data := by
          rw [ByteRange.slice, ByteRange.size, ← List.take_add,
            Nat.add_sub_cancel' (Nat.le_of_lt nonempty)]
        rw [parts, Bytes.lineFeeds_append] at behind
        omega

/--
How the chunks of a source stand in its bytes: they tile what is behind a position, are numbered
in order and know the lines on which they begin, and what is decoded in them carries the line
on which it begins.
-/
structure Splits (d : Dialect) (source : Source) (start : Nat) : Prop where
  tiles : Chunk.Tiles start source.data.length (source.chunks.map (·.id.range))
  bytes : (source.chunks.map source.chunkBytes).flatten = source.data.drop start
  indices : source.chunks.map (·.id.index) = List.range source.chunks.length
  firstLine : ∀ chunk ∈ source.chunks,
    chunk.firstLine = 1 + Bytes.lineFeeds (source.data.take chunk.id.range.start)
  line : ∀ chunk ∈ source.chunks, ∀ n item,
    (source.chunkDecoder chunk).nthCall d n = some item →
    ∀ line ∈ Decoder.lineOf? item,
      line = 1 + Bytes.lineFeeds (source.data.take
        (chunk.id.range.start + ((source.chunkDecoder chunk).afterCalls d n).offset))

/-- What is decoded in a chunk carries the line on which it begins if the chunk knows its own. -/
theorem line_of_chunk {d : Dialect} {source : Source} {chunk : Chunk} {n line : Nat}
    {item : Except DecodeError (Item String)}
    (known : chunk.firstLine = 1 + Bytes.lineFeeds (source.data.take chunk.id.range.start))
    (found : (source.chunkDecoder chunk).nthCall d n = some item)
    (carried : line ∈ Decoder.lineOf? item) :
    line = 1 + Bytes.lineFeeds (source.data.take
      (chunk.id.range.start + ((source.chunkDecoder chunk).afterCalls d n).offset)) := by
  have within := Decoder.offset_lt_of_nthCall found
  have counted := (Decoder.line_of_next found carried).trans (Decoder.line_afterCalls within)
  change ((source.chunkDecoder chunk).afterCalls d n).offset < (source.chunkBytes chunk).length
    at within
  change line = chunk.firstLine + Bytes.lineFeeds ((source.chunkBytes chunk).take
    ((source.chunkDecoder chunk).afterCalls d n).offset) at counted
  generalize ((source.chunkDecoder chunk).afterCalls d n).offset = offset at within counted ⊢
  have inside : (source.chunkBytes chunk).take offset =
      (source.data.drop chunk.id.range.start).take offset := by
    rw [chunkBytes, ByteRange.slice, List.length_take] at within
    rw [chunkBytes, ByteRange.slice, List.take_take, Nat.min_eq_left (by omega)]
  rw [counted, known, inside, List.take_add, Bytes.lineFeeds_append, Nat.add_assoc]

/-- A source is split behind a position if data that is left there begins on the line that it is
numbered from. -/
theorem splits_number (d : Dialect) (chunkSize : Nat) (path : String) (header : Header)
    {data : Bytes} {start line : Nat} (within : start ≤ data.length)
    (counted : start < data.length → line = 1 + Bytes.lineFeeds (data.take start)) :
    Splits d {
      path, header, data
      chunks := number path data 0 line (Chunk.plan d data start chunkSize) } start := by
  have tiles := Chunk.tiles_plan d data start chunkSize
  rw [Nat.min_eq_left within] at tiles
  have firstLine : ∀ chunk ∈ number path data 0 line (Chunk.plan d data start chunkSize),
      chunk.firstLine = 1 + Bytes.lineFeeds (data.take chunk.id.range.start) := by
    intro chunk member
    have relative := firstLine_number tiles member
    have listed : chunk.id.range ∈ Chunk.plan d data start chunkSize := by
      rw [← range_number path data 0 line (Chunk.plan d data start chunkSize)]
      exact List.mem_map_of_mem member
    have bounds := tiles.bounds listed
    rw [counted (by omega)] at relative
    omega
  constructor
  · exact (range_number path data 0 line _).symm ▸ tiles
  · have pieces := tiles.flatten_slice_drop
    rw [← range_number path data 0 line (Chunk.plan d data start chunkSize), List.map_map] at pieces
    exact pieces
  · exact Chunk.numbered_number path data line _
  · exact firstLine
  · exact fun chunk member n item found line carried =>
      line_of_chunk (firstLine chunk member) found carried

/-- A source is split behind its byte order mark and what calls take there. -/
theorem splits_behind_calls (d : Dialect) (chunkSize : Nat) (path : String) (header : Header)
    (data : Bytes) (n : Nat) :
    let after := (Decoder.ofBytes data.afterByteOrderMark).afterCalls d n
    let start := data.byteOrderMarkLength + after.offset
    Splits d {
      path, header, data
      chunks := number path data 0 after.line (Chunk.plan d data start chunkSize) } start := by
  intro after start
  have taken : after.offset ≤ data.afterByteOrderMark.length := Decoder.offset_le_length ..
  have marked := data.byteOrderMarkLength_le
  have size : data.afterByteOrderMark.length = data.length - data.byteOrderMarkLength :=
    List.length_drop
  refine splits_number d chunkSize path header (by omega) fun more => ?_
  have counted : after.line = 1 + Bytes.lineFeeds (data.afterByteOrderMark.take after.offset) :=
    Decoder.line_afterCalls (show after.offset < data.afterByteOrderMark.length by omega)
  rw [counted, List.take_add, Bytes.lineFeeds_append, Bytes.lineFeeds_take_byteOrderMark,
    Nat.zero_add]
  rfl

theorem prepare_eq_none_iff (d : Dialect) (chunkSize : Nat) (path : String) (data : Bytes) :
    prepare d none chunkSize path data = .ok none ↔
      ((Decoder.ofBytes data.afterByteOrderMark).nextRow d).1 = .ok none := by
  unfold prepare split Header.split
  rcases (Decoder.ofBytes data.afterByteOrderMark).nextRow d with ⟨e | _ | row, after⟩
  · exact ⟨nofun, nofun⟩
  · exact ⟨fun _ => rfl, fun _ => rfl⟩
  · simp only
    cases Header.ofNames d.trimHeader row.fields <;> exact ⟨nofun, nofun⟩

/-- The source whose header is the row that the decoder of its bytes leads to. -/
theorem prepare_of_leads {d : Dialect} {data : Bytes} {blanks : Nat} {row : Row String}
    (leads : (Decoder.ofBytes data.afterByteOrderMark).Leads d blanks row) (chunkSize : Nat)
    (path : String) :
    let after := (Decoder.ofBytes data.afterByteOrderMark).afterCalls d (blanks + 1)
    prepare d none chunkSize path data =
      (Header.ofNames d.trimHeader row.fields).map fun header => some {
        path, header, data
        chunks := number path data 0 after.line
          (Chunk.plan d data (data.byteOrderMarkLength + after.offset) chunkSize) } := by
  intro after
  unfold prepare split
  rw [Header.split_of_leads leads]
  cases Header.ofNames d.trimHeader row.fields <;> rfl

/-- What a source is split at is a row that the decoder of its bytes leads to. -/
theorem leads_of_split {d : Dialect} {data : Bytes} {found : Header.Split}
    (parts : split d none data = .ok (some found)) :
    ∃ blanks row, (Decoder.ofBytes data.afterByteOrderMark).Leads d blanks row := by
  unfold split Header.split at parts
  rcases next : (Decoder.ofBytes data.afterByteOrderMark).nextRow d with ⟨e | _ | row, after⟩
  · rw [next] at parts
    cases parts
  · rw [next] at parts
    cases parts
  · obtain ⟨blanks, leads⟩ := Decoder.leads_of_nextRow next
    exact ⟨blanks, row, leads⟩

/-- A source is split behind its byte order mark and some calls, none if its header is given apart
from it. -/
theorem split_calls {d : Dialect} {configured : Option Header} {data : Bytes} {found : Header.Split}
    (parts : split d configured data = .ok (some found)) :
    ∃ n, let after := (Decoder.ofBytes data.afterByteOrderMark).afterCalls d n
      found.dataStart = data.byteOrderMarkLength + after.offset ∧ found.dataLine = after.line := by
  cases configured with
  | some header =>
      cases parts
      exact ⟨0, rfl, rfl⟩
  | none =>
      obtain ⟨blanks, row, leads⟩ := leads_of_split parts
      have same := Header.split_of_leads leads
      refine ⟨blanks + 1, ?_⟩
      change Header.split d data = _ at parts
      rw [parts] at same
      cases accepted : Header.ofNames d.trimHeader row.fields with
      | error e =>
          rw [accepted] at same
          cases same
      | ok header =>
          rw [accepted] at same
          cases same
          exact ⟨rfl, rfl⟩

/-- What a source is split into stands in its bytes as told, whatever the size of the chunks. -/
theorem splits_of_split {d : Dialect} {configured : Option Header} {data : Bytes}
    {found : Header.Split} (parts : split d configured data = .ok (some found)) (chunkSize : Nat)
    (path : String) :
    Splits d {
      path, header := found.header, data
      chunks := number path data 0 found.dataLine
        (Chunk.plan d data found.dataStart chunkSize) } found.dataStart := by
  obtain ⟨n, start, line⟩ := split_calls parts
  rw [start, line]
  exact splits_behind_calls d chunkSize path found.header data n

/-- A source that holds its own header is split into an optional byte order mark, blank lines, the
record of the names and the chunks.  There is none exactly if it holds blank lines
only.  With a configured header the chunks follow the byte order mark. -/
theorem prepare_splits (d : Dialect) (chunkSize : Nat) (path : String) (data : Bytes) :
    let decoder := Decoder.ofBytes data.afterByteOrderMark
    (prepare d none chunkSize path data = .ok none ↔
      ∀ item ∈ (decoder.records d).1, item = .ok .blank) ∧
    (∀ source, prepare d none chunkSize path data = .ok (some source) →
      ∃ front rest blanks row,
        data = data.take data.byteOrderMarkLength ++ front ++ rest ∧
        ((Decoder.ofBytes front).records d).1 =
          List.replicate blanks (.ok .blank) ++ [.ok (.row row)] ∧
        decoder.Leads d blanks row ∧
        (decoder.afterCalls d (blanks + 1)).offset = front.length ∧
        source.header.names =
          (if d.trimHeader then row.fields.map Text.trim else row.fields) ∧
        source.data = data ∧
        source.Splits d (data.byteOrderMarkLength + front.length)) ∧
    (∀ blanks row header, decoder.Leads d blanks row →
      Header.ofNames d.trimHeader row.fields = .ok header →
      ∃ source, prepare d none chunkSize path data = .ok (some source) ∧
        source.header = header) ∧
    ∀ header, ∃ source, prepare d (some header) chunkSize path data = .ok (some source) ∧
      source.header = header ∧ source.data = data ∧
      source.Splits d data.byteOrderMarkLength := by
  intro decoder
  refine ⟨?_, fun source prepared => ?_, fun blanks row header leads accepted => ?_,
    fun header => ?_⟩
  · exact (prepare_eq_none_iff d chunkSize path data).trans (Decoder.nextRow_eq_none_iff ..)
  · obtain ⟨found, parts, -⟩ := prepare_ok prepared
    obtain ⟨blanks, row, leads⟩ := leads_of_split parts
    have built := prepare_of_leads leads chunkSize path
    rw [prepared] at built
    cases accepted : Header.ofNames d.trimHeader row.fields with
    | error e =>
        rw [accepted] at built
        cases built
    | ok header =>
        rw [accepted] at built
        cases built
        have size : (data.afterByteOrderMark.take
            (decoder.afterCalls d (blanks + 1)).offset).length =
              (decoder.afterCalls d (blanks + 1)).offset := by
          rw [List.length_take, Nat.min_eq_left (Decoder.offset_le_length ..)]
        refine ⟨data.afterByteOrderMark.take (decoder.afterCalls d (blanks + 1)).offset,
          data.afterByteOrderMark.drop (decoder.afterCalls d (blanks + 1)).offset, blanks, row,
          ?_, ?_, leads, size.symm, Header.names_of_ofNames accepted, rfl, ?_⟩
        · rw [List.append_assoc, List.take_append_drop]
          exact (List.take_append_drop ..).symm
        · exact (Decoder.records_take ..).trans leads.records_take
        · rw [size]
          exact splits_behind_calls d chunkSize path header data (blanks + 1)
  · have found := prepare_of_leads leads chunkSize path
    rw [accepted] at found
    exact ⟨_, found, rfl⟩
  · refine ⟨_, rfl, rfl, rfl, splits_number d chunkSize path header ?_ fun _ => ?_⟩
    · exact data.byteOrderMarkLength_le
    · rw [Bytes.lineFeeds_take_byteOrderMark]

/-- A byte order mark, a blank line and the header, then a record of two lines, a blank line and
a record. -/
example :
    let data : Bytes :=
      [0xEF, 0xBB, 0xBF, 10, 97, 10, 34, 120, 10, 121, 34, 10, 10, 122, 10]
    (prepare {} none 1 "in.csv" data).toOption.join.map
        (·.chunks.map fun chunk => (chunk.id.range, chunk.firstLine)) =
      some [(⟨6, 12⟩, 3), (⟨12, 13⟩, 5), (⟨13, 15⟩, 6)] := by
  decide +kernel

end Source

end CsvImport

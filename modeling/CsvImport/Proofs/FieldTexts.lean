import CsvImport.Proofs.Characters
import CsvImport.Proofs.ChunkedDecoding
import CsvImport.Proofs.HeaderNames

/-!
# The texts of fields

Delimiters, quotes and line ends are ASCII in an accepted dialect, so a scan of a text drops and
separates whole characters only.  Every field that is collected from a text is therefore the bytes
of a text, which is read back exactly, and brings no character that is not in the source.
-/

namespace CsvImport

namespace Scan

open Utf8

/-- Whether the fields of a scan are whole characters, which are found in the characters taken so
far in the same order. -/
structure Holds (scan : Scan) (closed : List (List Char)) (field taken : List Char) : Prop where
  closed_eq : scan.closed.reverse = closed.map encodeChars
  field_eq : scan.field.reverse = encodeChars field
  sublist : (closed.flatten ++ field).Sublist taken

namespace Holds

variable {d : Dialect} {scan : Scan} {closed : List (List Char)} {field taken : List Char}

theorem fresh : Holds {} [] [] [] where
  closed_eq := rfl
  field_eq := rfl
  sublist := .slnil

theorem skip (holds : scan.Holds closed field taken) (skipped : List Char) :
    scan.Holds closed field (taken ++ skipped) :=
  { holds with sublist := holds.sublist.trans (List.sublist_append_left ..) }

/-- A character whose bytes are put behind the current field. -/
theorem push (holds : scan.Holds closed field taken) {after : Scan} (c : Char)
    (same : after.closed = scan.closed)
    (pushed : after.field = (String.utf8EncodeChar c).reverse ++ scan.field) :
    after.Holds closed (field ++ [c]) (taken ++ [c]) := by
  constructor
  · rw [same, holds.closed_eq]
  · have bytes : encodeChars [c] = String.utf8EncodeChar c := List.flatMap_singleton ..
    rw [pushed, List.reverse_append, List.reverse_reverse, holds.field_eq, encodeChars_append,
      bytes]
  · rw [← List.append_assoc]
    exact holds.sublist.append_right [c]

theorem close (holds : scan.Holds closed field taken) (c : Char) :
    scan.close.Holds (closed ++ [field]) [] (taken ++ [c]) := by
  constructor
  · change (scan.field.reverse :: scan.closed).reverse = _
    rw [List.reverse_cons, holds.closed_eq, holds.field_eq, List.map_append, List.map_singleton]
  · rfl
  · rw [List.flatten_append, List.flatten_singleton, List.append_nil]
    exact holds.sublist.trans (List.sublist_append_left ..)

/-- A state does not show in the fields. -/
theorem withState (holds : scan.Holds closed field taken) (state : FieldState) :
    Holds { scan with state } closed field taken :=
  { holds with }

/-- An ASCII character is kept, or dropped, or closes the current field. -/
theorem step (holds : scan.Holds closed field taken) {c : Char} {b : UInt8}
    (single : String.utf8EncodeChar c = [b]) :
    ∃ closed' field', (scan.step d b).Holds closed' field' (taken ++ [c]) := by
  have moved := holds.withState (scan.state.next d b)
  unfold Scan.step
  split
  · exact ⟨_, _, moved.close c⟩
  · split
    · refine ⟨_, _, moved.push c rfl ?_⟩
      rw [single]
      rfl
    · exact ⟨_, _, moved.skip [c]⟩

end Holds

variable {d : Dialect}

/-- Bytes beyond ASCII are put behind the current field. -/
theorem line_high (accepted : d.Accepted) (scan : Scan) {bytes : Bytes}
    (high : ∀ b ∈ bytes, ¬b < 128) (later : Bytes) :
    ∃ after : Scan, after.closed = scan.closed ∧ after.field = bytes.reverse ++ scan.field ∧
      scan.line d (bytes ++ later) = after.line d later := by
  induction bytes generalizing scan with
  | nil => exact ⟨scan, rfl, rfl, rfl⟩
  | cons b bytes ih =>
      have beyond : ¬b < 128 := high b (List.mem_cons_self ..)
      have apart {small : UInt8} (ascii : small < 128) : b ≠ small := fun same =>
        beyond (same ▸ ascii)
      have notDelimiter := apart accepted.delimiter_ascii
      have notQuote := apart accepted.quote_ascii
      have goesOn : endsRecord b (bytes ++ later) = false := by
        have notLf : b ≠ Bytes.lf := apart (by decide)
        have notCr : b ≠ Bytes.cr := apart (by decide)
        simp [endsRecord, notLf, notCr]
      have stepped : scan.step d b = { scan with
          state := scan.state.next d b
          field := b :: scan.field } := by
        have kept : keeps d scan.state b = true := by
          cases scan.state <;> simp [keeps, notDelimiter, notQuote]
        have open_ : closes d scan.state b = false := by simp [closes, notDelimiter]
        simp only [step, open_, kept, push, Bool.false_eq_true, ↓reduceIte]
      obtain ⟨after, closed, field, same⟩ :=
        ih (scan.step d b) fun other member => high other (List.mem_cons_of_mem b member)
      refine ⟨after, ?_, ?_, ?_⟩
      · rw [closed, stepped]
      · rw [field, stepped, List.reverse_cons, List.append_assoc]
        rfl
      · rw [List.cons_append, line, if_neg (by simp [goesOn]), same]

/-- A line of whole characters leaves whole characters in the fields. -/
theorem Holds.line (accepted : d.Accepted) {scan : Scan} {closed : List (List Char)}
    {field taken : List Char} (holds : scan.Holds closed field taken) (chars : List Char) :
    ∃ closed' field', (scan.line d (encodeChars chars)).Holds closed' field' (taken ++ chars) := by
  induction chars generalizing scan closed field taken with
  | nil => exact ⟨closed, field, holds.skip []⟩
  | cons c chars ih =>
      have parts : taken ++ c :: chars = taken ++ [c] ++ chars := by simp
      have bytes : encodeChars (c :: chars) = String.utf8EncodeChar c ++ encodeChars chars := rfl
      rw [parts, bytes]
      rcases utf8EncodeChar_cases c with ⟨b, -, single⟩ | high
      · rw [single, List.singleton_append, Scan.line]
        split
        · exact ⟨closed, field, (holds.skip [c]).skip chars⟩
        · obtain ⟨closed', field', next⟩ := holds.step (d := d) single
          exact ih next
      · obtain ⟨after, same, pushed, read⟩ := line_high accepted scan high (encodeChars chars)
        rw [read]
        exact ih (holds.push c same pushed)

theorem Holds.across (accepted : d.Accepted) {scan : Scan} {closed : List (List Char)}
    {field taken : List Char} (holds : scan.Holds closed field taken)
    (parts : List (List Char)) :
    ∃ closed' field',
      (scan.across d (parts.map encodeChars)).Holds closed' field' (taken ++ parts.flatten) := by
  induction parts generalizing scan closed field taken with
  | nil => exact ⟨closed, field, holds.skip []⟩
  | cons part later ih =>
      obtain ⟨closed', field', next⟩ := holds.line accepted part
      rw [List.flatten_cons, ← List.append_assoc]
      exact ih next

theorem Holds.texts {scan : Scan} {closed : List (List Char)} {field taken : List Char}
    (holds : scan.Holds closed field taken) :
    ∃ texts : List String, scan.fields = texts.map encode ∧
      (texts.flatMap String.toList).Sublist taken := by
  refine ⟨(closed ++ [field]).map String.ofList, ?_, ?_⟩
  · change (scan.field.reverse :: scan.closed).reverse = _
    rw [List.reverse_cons, holds.closed_eq, holds.field_eq, List.map_map, List.map_append,
      List.map_singleton]
    simp only [Function.comp_def, encode_ofList]
  · rw [List.flatMap_map]
    simp only [String.toList_ofList, List.flatMap_id']
    rw [List.flatten_append, List.flatten_singleton]
    exact holds.sublist

end Scan

namespace Extent

variable {d : Dialect} {line offset : Nat} {extent : Extent}

theorem fields_of_item {row : Row Bytes} (found : extent.item d line offset = .ok (.row row)) :
    row.fields = (Scan.across d {} extent).fields := by
  unfold item at found
  split at found
  · cases found
  · unfold Scan.ended at found
    split at found
    · cases found
    · cases found
      rfl

/-- A row of lines of whole characters is made of texts. -/
theorem texts_of_item (accepted : d.Accepted) {parts : List (List Char)} {row : Row Bytes}
    (found : item d line offset (parts.map Utf8.encodeChars) = .ok (.row row)) :
    ∃ texts : List String, row.fields = texts.map Utf8.encode ∧
      (texts.flatMap String.toList).Sublist parts.flatten := by
  obtain ⟨closed, field, holds⟩ := Scan.Holds.fresh.across accepted parts
  rw [fields_of_item found]
  exact holds.texts

end Extent

namespace Decoder

variable {d : Dialect}

/-- What the call behind so many others collects, its fields as bytes. -/
def nthRaw (d : Dialect) (decoder : Decoder) (n : Nat) : Option (Except DecodeError (Item Bytes)) :=
  ((decoder.afterCalls d n).nextRaw d).1

/-- A call yields what it collects, as text. -/
theorem nthCall_eq (decoder : Decoder) (n : Nat) :
    decoder.nthCall d n = (decoder.nthRaw d n).map asText := rfl

theorem nextRaw_extents {all : List Extent} (are : AreExtents d all) (line offset : Nat) :
    ((atLines all.flatten line offset).nextRaw d).1 = all.head?.map (·.item d line offset) := by
  cases all with
  | nil => rfl
  | cons extent later =>
      obtain ⟨⟨first, more, rfl, cut⟩, -⟩ := are.uncons
      rw [List.flatten_cons, List.cons_append, nextRaw_lines, cut]
      rfl

/--
Whether the fields that calls collect are the bytes of texts, which is what they are read as, and
whose characters are among the given ones in the same order.
-/
def KeepsCharacters (d : Dialect) (decoder : Decoder) (chars : List Char) : Prop :=
  ∀ n row, decoder.nthRaw d n = some (.ok (.row row)) →
    ∃ texts : List String, row.fields = texts.map Utf8.encode ∧
      decoder.nthCall d n = some (.ok (.row ⟨texts, row.line⟩)) ∧
      (texts.flatMap String.toList).Sublist chars

/-- What stands behind so many calls is whole characters. -/
theorem characters_behind_calls (d : Dialect) (chars : List Char) (firstLine n : Nat) :
    ∃ front later : List (List Char), (front ++ later).flatten = chars ∧
      let after := (ofBytes (Utf8.encodeChars chars) firstLine).afterCalls d n
      after.offset = (Utf8.encodeChars front.flatten).length ∧
      ∃ rest : List Extent, AreExtents d rest ∧ rest.flatten = later.map Utf8.encodeChars ∧
        ∃ line offset, after = atLines rest.flatten line offset := by
  obtain ⟨front, rest, are, -, physical, flat, behind, -⟩ :=
    afterCalls_ofBytes d (Utf8.encodeChars chars) firstLine n
  rw [← List.flatten_append] at flat
  obtain ⟨parts, whole, same⟩ := physical.characters flat
  obtain ⟨first, later, rfl, taken, left⟩ := List.map_eq_append_iff.mp same
  refine ⟨first, later, whole, ?_, rest, are.right, left.symm, _, _, behind⟩
  rw [behind, ← taken, Utf8.encodeChars_flatten]
  rfl

theorem keepsCharacters_ofBytes (accepted : d.Accepted) (chars : List Char) (firstLine : Nat) :
    (ofBytes (Utf8.encodeChars chars) firstLine).KeepsCharacters d chars := by
  intro n row found
  obtain ⟨front, later, rfl, -, rest, are, lines, line, offset, behind⟩ :=
    characters_behind_calls d chars firstLine n
  have called := found
  rw [nthRaw, behind, nextRaw_extents are] at called
  obtain ⟨extent, head, read⟩ := Option.map_eq_some_iff.mp called
  obtain ⟨others, rfl⟩ := List.head?_eq_some_iff.mp head
  obtain ⟨parts, more, rfl, same, -⟩ := List.map_eq_append_iff.mp lines.symm
  rw [← same] at read
  obtain ⟨texts, fields, kept⟩ := Extent.texts_of_item accepted read
  refine ⟨texts, fields, ?_, kept.trans ?_⟩
  · have text : row.fields.map Utf8.decodeLossy = texts := by
      rw [fields, List.map_map]
      exact (List.map_congr_left fun text _ => Utf8.decodeLossy_encode text).trans
        (List.map_id texts)
    rw [nthCall_eq, found, ← text]
    rfl
  · rw [List.flatten_append, List.flatten_append]
    exact (List.sublist_append_left ..).trans (List.sublist_append_right ..)

end Decoder

namespace Utf8

theorem afterByteOrderMark_encodeChars (chars : List Char) :
    ∃ front later, front ++ later = chars ∧
      (encodeChars chars).byteOrderMarkLength = (encodeChars front).length ∧
      (encodeChars chars).afterByteOrderMark = encodeChars later := by
  unfold Bytes.afterByteOrderMark Bytes.byteOrderMarkLength
  split
  · rename_i marked
    obtain ⟨rest, whole⟩ := List.isPrefixOf_iff_prefix.mp marked
    have mark : String.utf8EncodeChar '\uFEFF' = Bytes.byteOrderMark := by decide
    -- The mark is the bytes of one character, so that is the first one.
    have read := outputs_encode chars
    change outputs .between (encodeChars chars) = _ at read
    rw [← whole, ← mark, outputs_char] at read
    cases chars with
    | nil => cases read
    | cons c later =>
        obtain rfl : '\uFEFF' = c := Output.char.inj (List.cons.inj read).1
        refine ⟨['\uFEFF'], later, rfl, by decide, ?_⟩
        change (String.utf8EncodeChar '\uFEFF' ++ encodeChars later).drop _ = _
        rw [mark, List.drop_left]
  · exact ⟨[], chars, rfl, rfl, rfl⟩

end Utf8

namespace Source

variable {d : Dialect} {configured : Option Header} {chars : List Char}

theorem characters_behind_split {found : Header.Split}
    (parts : split d configured (Utf8.encodeChars chars) = .ok (some found)) :
    ∃ front later, front ++ later = chars ∧
      (Utf8.encodeChars chars).drop found.dataStart = Utf8.encodeChars later := by
  obtain ⟨n, start, -⟩ := split_calls parts
  obtain ⟨mark, behind, rfl, size, rest⟩ := Utf8.afterByteOrderMark_encodeChars chars
  rw [size, rest] at start
  obtain ⟨front, later, rfl, offset, -⟩ := Decoder.characters_behind_calls d behind 1 n
  refine ⟨mark ++ front.flatten, later.flatten, ?_, ?_⟩
  · rw [List.append_assoc, List.flatten_append]
  · rw [start, offset, ← List.length_append, ← Utf8.encodeChars_append, List.flatten_append,
      ← List.append_assoc, Utf8.encodeChars_append (mark ++ front.flatten), List.drop_left]

/-- The names of a header that a source holds are the texts that its record is read as. -/
theorem exists_header_texts {data : Bytes} {found : Header.Split}
    (keeps : (Decoder.ofBytes data.afterByteOrderMark).KeepsCharacters d chars)
    (parts : split d none data = .ok (some found)) :
    ∃ n row texts, (Decoder.ofBytes data.afterByteOrderMark).nthRaw d n = some (.ok (.row row)) ∧
      row.fields = texts.map Utf8.encode ∧
      found.header.names = Header.taken d.trimHeader texts := by
  obtain ⟨blanks, row, leads⟩ := leads_of_split parts
  have called := leads.2
  rw [Decoder.nthCall_eq] at called
  obtain ⟨item, collected, read⟩ := Option.map_eq_some_iff.mp called
  rcases item with e | raw | _
  · cases read
  · obtain ⟨texts, fields, again, -⟩ := keeps blanks raw collected
    rw [leads.2] at again
    cases again
    refine ⟨blanks, raw, texts, collected, fields, ?_⟩
    have same := Header.split_of_leads leads
    change split d none data = _ at same
    rw [parts] at same
    cases accepted : Header.ofNames d.trimHeader texts with
    | error e =>
        rw [accepted] at same
        cases same
    | ok header =>
        rw [accepted] at same
        cases same
        exact Header.names_of_ofNames accepted
  · cases read

end Source

namespace Chunk

theorem characters_of_mem_plan {d : Dialect} (accepted : d.Accepted) {data : Bytes}
    {start target : Nat} (within : start ≤ data.length) {chars : List Char}
    (found : data.drop start = Utf8.encodeChars chars) {range : ByteRange}
    (member : range ∈ plan d data start target) :
    ∃ part, part <:+: chars ∧ range.slice data = Utf8.encodeChars part := by
  obtain ⟨front, members, later, all, -, bytes⟩ := extents_of_mem_plan accepted within member
  have physical := Bytes.physical_lines (data.drop start)
  have flat := Bytes.flatten_lines (data.drop start)
  rw [← Decoder.flatten_extents d (Bytes.lines (data.drop start)), all] at physical flat
  rw [found] at flat
  obtain ⟨parts, rfl, same⟩ := physical.characters flat.symm
  rw [List.flatten_append, List.flatten_append] at same
  obtain ⟨first, others, rfl, -, rest⟩ := List.map_eq_append_iff.mp same
  obtain ⟨inner, last, rfl, taken, -⟩ := List.map_eq_append_iff.mp rest
  refine ⟨inner.flatten, ⟨first.flatten, last.flatten, ?_⟩, ?_⟩
  · simp only [List.flatten_append, List.append_assoc]
  · rw [bytes, ← taken, Utf8.encodeChars_flatten]

end Chunk

namespace Source

/-- A text is not altered when it is decoded.  The fields of a record that heads a text, in a source
or apart from one, are the bytes of texts, and so are the fields of every record in every chunk of a
source that is a text.  They are read as these texts, whose characters stand in the source in the
same order, so that no replacement character is brought in. -/
theorem prepare_keepsCharacters {d : Dialect} (accepted : d.Accepted) (text : String)
    (configured : Option Header) (chunkSize : Nat) (path : String) :
    (∀ written : String,
      (Decoder.ofBytes (Utf8.encode written).afterByteOrderMark).KeepsCharacters d
        written.toList) ∧
    ∀ source, prepare d configured chunkSize path (Utf8.encode text) = .ok (some source) →
      (configured = none → ∃ n row texts,
        (Decoder.ofBytes (Utf8.encode text).afterByteOrderMark).nthRaw d n =
          some (.ok (.row row)) ∧
        row.fields = texts.map Utf8.encode ∧
        source.header.names = Header.taken d.trimHeader texts) ∧
      ∀ chunk ∈ source.chunks, ∃ part : String,
        source.chunkBytes chunk = Utf8.encode part ∧ part.toList <:+: text.toList ∧
        (source.chunkDecoder chunk).KeepsCharacters d part.toList := by
  have heading (written : String) :
      (Decoder.ofBytes (Utf8.encode written).afterByteOrderMark).KeepsCharacters d
        written.toList := by
    obtain ⟨front, later, whole, -, rest⟩ :=
      Utf8.afterByteOrderMark_encodeChars written.toList
    intro n row found
    change (Utf8.encode written).afterByteOrderMark = _ at rest
    rw [rest] at found ⊢
    obtain ⟨texts, fields, read, kept⟩ :=
      Decoder.keepsCharacters_ofBytes accepted later 1 n row found
    refine ⟨texts, fields, read, kept.trans ?_⟩
    rw [← whole]
    exact List.sublist_append_right ..
  refine ⟨heading, fun source prepared => ?_⟩
  obtain ⟨found, parts, rfl⟩ := prepare_ok prepared
  constructor
  · rintro rfl
    exact exists_header_texts (heading text) parts
  · intro chunk member
    have listed := List.mem_map_of_mem (f := fun chunk => chunk.id.range) member
    rw [range_number] at listed
    obtain ⟨front, later, whole, rest⟩ := characters_behind_split parts
    have within := (splits_of_split parts chunkSize path).tiles.le
    obtain ⟨part, inside, bytes⟩ := Chunk.characters_of_mem_plan accepted within rest listed
    refine ⟨String.ofList part, ?_, ?_, ?_⟩
    · rw [Utf8.encode_ofList]
      exact bytes
    · rw [String.toList_ofList, ← whole]
      exact inside.trans (List.suffix_append front later).isInfix
    · rw [String.toList_ofList, chunkDecoder, chunkBytes, bytes]
      exact Decoder.keepsCharacters_ofBytes accepted part chunk.firstLine

/-- A header of two names, and a record with a doubled quote between letters beyond ASCII. -/
theorem prepare_keepsCharacters_doubledQuote :
    let data := Utf8.encode "a,b\n\"é\"\"ü\",€\r\n"
    let chunk : Chunk := ⟨⟨"in.csv", 0, ⟨4, 18⟩⟩, 2⟩
    let row : Row Bytes := ⟨[[0xC3, 0xA9, 34, 0xC3, 0xBC], [0xE2, 0x82, 0xAC]], 2⟩
    Dialect.Accepted {} ∧ ∃ source, prepare {} none 1 "in.csv" data = .ok (some source) ∧
      source.header.names = ["a", "b"] ∧ source.chunks = [chunk] ∧
      (source.chunkDecoder chunk).nthRaw {} 0 = some (.ok (.row row)) ∧
      ∃ texts : List String, row.fields = texts.map Utf8.encode ∧
        (source.chunkDecoder chunk).nthCall {} 0 = some (.ok (.row ⟨texts, 2⟩)) := by
  intro data chunk row
  have bytes : data = [97, 44, 98, 10, 34, 0xC3, 0xA9, 34, 34, 0xC3, 0xBC, 34, 44, 0xE2, 0x82, 0xAC,
      13, 10] := by decide
  have known : (prepare {} none 1 "in.csv" data).toOption.join.map (fun source =>
      (source.header.names, source.chunks, source.chunkBytes chunk)) =
      some (["a", "b"], [chunk], data.drop 4) := by
    rw [bytes]
    decide +kernel
  have collected : ((Decoder.ofBytes (data.drop 4) 2).nthRaw {} 0) = some (.ok (.row row)) := by
    rw [bytes]
    decide +kernel
  rcases prepared : prepare {} none 1 "in.csv" data with e | _ | source
  · rw [prepared] at known
    cases known
  · rw [prepared] at known
    cases known
  · rw [prepared] at known
    obtain ⟨names, rest⟩ := Prod.mk.inj (Option.some.inj known)
    obtain ⟨chunks, slice⟩ := Prod.mk.inj rest
    have decoder : source.chunkDecoder chunk = Decoder.ofBytes (data.drop 4) 2 := by
      rw [chunkDecoder, slice]
    rw [← decoder] at collected
    obtain ⟨-, each⟩ := (prepare_keepsCharacters Dialect.accepted_default
      "a,b\n\"é\"\"ü\",€\r\n" none 1 "in.csv").2 source prepared
    obtain ⟨part, -, -, keeps⟩ := each chunk (by rw [chunks]; exact List.mem_cons_self ..)
    obtain ⟨texts, fields, read, -⟩ := keeps 0 row collected
    exact ⟨Dialect.accepted_default, source, rfl, names, chunks, collected, texts, fields, read⟩

end Source

end CsvImport

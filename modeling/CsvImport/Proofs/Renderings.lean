import CsvImport.Proofs.HeaderModes
import CsvImport.Proofs.WrittenRecords

/-!
# Renderings

A rendering is records as they are written, with blank lines anywhere between them.  The
decoder reads it record by record, and what is behind a record is a rendering again.
-/

namespace CsvImport

/-- A part of a rendering: a blank line, or a record with its line end. -/
inductive Piece where
  | blank (ending : LineEnd)
  | record (fields : WrittenRecord) (ending : LineEnd)
deriving DecidableEq, Repr

namespace Piece

def bytes (d : Dialect) : Piece → Bytes
  | blank ending => ending.bytes
  | record fields ending => fields.bytes d ++ ending.bytes

def record? : Piece → Option WrittenRecord
  | blank _ => none
  | record fields _ => some fields

def item (line : Nat) : Piece → Item String
  | blank _ => .blank
  | record fields _ => .row ⟨fields.texts, line⟩

theorem whole_bytes (d : Dialect) (piece : Piece) : (piece.bytes d).Whole := by
  have ends : ∀ ending : LineEnd, ending.bytes.Whole := by
    intro ending
    cases ending <;> simp [Bytes.Whole, LineEnd.bytes]
  cases piece with
  | blank ending => exact ends ending
  | record fields ending =>
      intro b last
      rw [bytes, List.getLast?_append] at last
      refine ends ending b ?_
      cases ending <;> exact last

end Piece

/-- Records and blank lines as they are written; the last record may lack a line end. -/
structure Rendering where
  pieces : List Piece
  last : Option WrittenRecord := none
deriving DecidableEq, Repr

namespace Rendering

def bytes (d : Dialect) (rendering : Rendering) : Bytes :=
  rendering.pieces.flatMap (·.bytes d) ++ rendering.last.elim [] (·.bytes d)

def records (rendering : Rendering) : List WrittenRecord :=
  rendering.pieces.filterMap Piece.record? ++ rendering.last.toList

def Renders (d : Dialect) (rendering : Rendering) : Prop :=
  ∀ record ∈ rendering.records, record.Renders d

instance (d : Dialect) (rendering : Rendering) : Decidable (rendering.Renders d) :=
  inferInstanceAs (Decidable (∀ record ∈ rendering.records, record.Renders d))

def items (d : Dialect) (last : Option WrittenRecord) (line : Nat) : List Piece → List (Item String)
  | [] => last.toList.map fun record => .row ⟨record.texts, line⟩
  | piece :: later =>
      piece.item line :: items d last (line + (piece.bytes d).lineFeeds) later

theorem bytes_cons (d : Dialect) (piece : Piece) (pieces : List Piece)
    (last : Option WrittenRecord) :
    bytes d ⟨piece :: pieces, last⟩ = piece.bytes d ++ bytes d ⟨pieces, last⟩ := by
  rw [bytes, bytes, List.flatMap_cons, List.append_assoc]

theorem records_cons (piece : Piece) (pieces : List Piece) (last : Option WrittenRecord) :
    records ⟨piece :: pieces, last⟩ = piece.record?.toList ++ records ⟨pieces, last⟩ := by
  unfold records
  cases piece <;> rfl

theorem Renders.uncons {d : Dialect} {piece : Piece} {pieces : List Piece}
    {last : Option WrittenRecord} (renders : Renders d ⟨piece :: pieces, last⟩) :
    (∀ record ∈ piece.record?, record.Renders d) ∧ Renders d ⟨pieces, last⟩ := by
  unfold Renders at renders ⊢
  rw [records_cons] at renders
  refine ⟨fun record member => ?_, fun record member => ?_⟩
  · exact renders record (List.mem_append_left _ (Option.mem_toList.mpr member))
  · exact renders record (List.mem_append_right _ member)

end Rendering

namespace Decoder

variable {d : Dialect}

/-- An extent of its own is read in front of other lines. -/
theorem next_extent {first : Bytes} {more : List Bytes} {line offset : Nat} {item : Item Bytes}
    (alone : cutFirst d first more = (first :: more, []))
    (read : Extent.item d line offset (first :: more) = .ok item) (later : List Bytes) :
    (atLines (first :: more ++ later) line offset).next d =
      (some (.ok (item.map Utf8.decodeLossy)),
        atLines later (line + (first :: more).length)
          (offset + (first :: more).flatten.length)) := by
  rw [List.cons_append, next_lines, cutFirst_right alone read, read]
  rfl

theorem map_decodeLossy (record : WrittenRecord) (line : Nat) :
    (Item.row ⟨record.map fun field => Utf8.encode field.text, line⟩).map Utf8.decodeLossy =
      .row ⟨record.texts, line⟩ := by
  change Item.row ⟨(record.map _).map Utf8.decodeLossy, line⟩ = _
  rw [List.map_map]
  refine congrArg (fun fields => Item.row ⟨fields, line⟩) (List.map_congr_left fun field _ => ?_)
  exact Utf8.decodeLossy_encode field.text

/-- A record is read in front of other lines, with its line end if it has one. -/
theorem next_record (accepted : d.Accepted) {record : WrittenRecord}
    (renders : record.Renders d) (ending : Option LineEnd) (line offset : Nat)
    (later : List Bytes) :
    let bytes := record.bytes d ++ LineEnd.close ending
    (atLines (bytes.lines ++ later) line offset).next d =
      (some (.ok (.row ⟨record.texts, line⟩)),
        atLines later (line + bytes.lines.length) (offset + bytes.length)) := by
  intro bytes
  obtain ⟨first, more, lines, alone, read⟩ := renders.cutFirst accepted ending
  have size : (first :: more).flatten = bytes := by rw [← lines, Bytes.flatten_lines]
  have next := next_extent alone (read line offset) later
  rw [map_decodeLossy, size] at next
  rw [lines]
  exact next

/-- A piece of a rendering is read in front of other bytes. -/
theorem next_piece (accepted : d.Accepted) {piece : Piece}
    (renders : ∀ record ∈ piece.record?, record.Renders d) (line offset : Nat) (later : Bytes) :
    (atLines (Bytes.lines (piece.bytes d ++ later)) line offset).next d =
      (some (.ok (piece.item line)),
        atLines later.lines (line + (piece.bytes d).lineFeeds)
          (offset + (piece.bytes d).length)) := by
  rw [Bytes.lines_append (piece.whole_bytes d), ← Bytes.length_lines (piece.whole_bytes d)]
  cases piece with
  | record fields ending =>
      exact next_record accepted (renders fields rfl) (some ending) line offset later.lines
  | blank ending => cases ending <;> rfl

/-- A record at the end of the input is read without a line end. -/
theorem next_last (accepted : d.Accepted) {record : WrittenRecord} (renders : record.Renders d)
    (line offset : Nat) :
    let bytes := Rendering.bytes d ⟨[], some record⟩
    (atLines bytes.lines line offset).next d =
      (some (.ok (.row ⟨record.texts, line⟩)),
        atLines [] (line + bytes.lines.length) (offset + bytes.length)) := by
  intro bytes
  have same : record.bytes d ++ LineEnd.close none = bytes := List.append_nil _
  have next := next_record accepted renders none line offset []
  simp only [same, List.append_nil] at next
  exact next

theorem records_rendering (accepted : d.Accepted) {rendering : Rendering}
    (renders : rendering.Renders d) (line offset : Nat) :
    ((atLines (rendering.bytes d).lines line offset).records d).1 =
      (Rendering.items d rendering.last line rendering.pieces).map .ok := by
  obtain ⟨pieces, last⟩ := rendering
  induction pieces generalizing line offset with
  | nil =>
      cases last with
      | none => exact congrArg Prod.fst (records_of_none rfl)
      | some record =>
          have only : record.Renders d := renders record (List.mem_cons_self ..)
          rw [records_of_ok (next_last accepted only line offset), records_of_none rfl]
          rfl
  | cons piece later ih =>
      obtain ⟨first, rest⟩ := renders.uncons
      have next := next_piece accepted first line offset (Rendering.bytes d ⟨later, last⟩)
      rw [← Rendering.bytes_cons] at next
      rw [records_of_ok next, ih _ _ rest]
      rfl

/-- The first record of a rendering is the first row that is read, and another rendering is
behind it. -/
theorem nextRow_rendering (accepted : d.Accepted) {rendering : Rendering}
    (renders : rendering.Renders d) {record : WrittenRecord} {more : List WrittenRecord}
    (isFirst : rendering.records = record :: more) (line offset : Nat) :
    ∃ (front : Bytes) (rest : Rendering) (start behind : Nat),
      rendering.bytes d = front ++ rest.bytes d ∧ rest.Renders d ∧ rest.records = more ∧
      (atLines (rendering.bytes d).lines line offset).nextRow d =
        (.ok (some ⟨record.texts, start⟩),
          atLines (rest.bytes d).lines behind (offset + front.length)) := by
  -- Blank lines are passed over one by one; the first piece that is not blank is the record.
  obtain ⟨pieces, last⟩ := rendering
  induction pieces generalizing line offset with
  | nil =>
      obtain rfl : last = some record := by
        cases last with
        | none => cases isFirst
        | some other =>
            cases isFirst
            rfl
      cases isFirst
      have only : record.Renders d := renders record (List.mem_cons_self ..)
      refine ⟨Rendering.bytes d ⟨[], some record⟩, ⟨[], none⟩, line, _, ?_, ?_, rfl,
        nextRow_of_row (next_last accepted only line offset)⟩
      · exact (List.append_nil _).symm
      · exact fun other member => absurd member List.not_mem_nil
  | cons piece later ih =>
      obtain ⟨first, others⟩ := renders.uncons
      have next := next_piece accepted first line offset (Rendering.bytes d ⟨later, last⟩)
      rw [← Rendering.bytes_cons] at next
      rw [Rendering.records_cons] at isFirst
      cases piece with
      | blank ending =>
          obtain ⟨front, rest, start, behind, same, fine, records, row⟩ :=
            ih (line + ending.bytes.lineFeeds) (offset + ending.bytes.length) others isFirst
          refine ⟨ending.bytes ++ front, rest, start, behind, ?_, fine, records, ?_⟩
          · rw [Rendering.bytes_cons, same, List.append_assoc]
            rfl
          · rw [nextRow_of_blank next, List.length_append, ← Nat.add_assoc]
            exact row
      | record fields ending =>
          obtain ⟨rfl, same⟩ := List.cons.inj isFirst
          exact ⟨_, ⟨later, last⟩, line, _, Rendering.bytes_cons .., others, same,
            nextRow_of_row next⟩

end Decoder

end CsvImport

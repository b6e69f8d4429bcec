import CsvImport.Proofs.Planning
import CsvImport.Proofs.Renderings

/-!
# Rendered rows

The decoder inverts a rendering: it yields the records in the order in which they are
written, each with the line on which it begins, and apart from them only blank lines.
-/

namespace CsvImport

/-- The row of an item, if it is not a blank line. -/
def Item.row? {α : Type} : Item α → Option (Row α)
  | .row found => some found
  | .blank => none

namespace Rendering

/-- The records that are written behind `front`, each with all the bytes in front of it. -/
def placedBehind (d : Dialect) (last : Option WrittenRecord) (front : Bytes) :
    List Piece → List (Bytes × WrittenRecord)
  | [] => last.toList.map fun record => (front, record)
  | piece :: later =>
      (piece.record?.toList.map fun record => (front, record)) ++
        placedBehind d last (front ++ piece.bytes d) later

/-- The records of a rendering, each with all the bytes in front of it. -/
def placed (d : Dialect) (rendering : Rendering) : List (Bytes × WrittenRecord) :=
  placedBehind d rendering.last [] rendering.pieces

section

variable {d : Dialect} {last : Option WrittenRecord}

theorem records_placedBehind (front : Bytes) (pieces : List Piece) :
    (placedBehind d last front pieces).map Prod.snd = records ⟨pieces, last⟩ := by
  induction pieces generalizing front with
  | nil => cases last <;> rfl
  | cons piece later ih =>
      rw [placedBehind, List.map_append, ih, records_cons]
      cases piece <;> rfl

/-- What stands in front of a record and the record itself begin the rendering. -/
theorem prefix_of_mem_placedBehind {front : Bytes} {pieces : List Piece}
    {place : Bytes × WrittenRecord} (member : place ∈ placedBehind d last front pieces) :
    place.1 ++ place.2.bytes d <+: front ++ bytes d ⟨pieces, last⟩ := by
  induction pieces generalizing front with
  | nil =>
      obtain ⟨record, isLast, rfl⟩ := List.mem_map.mp member
      obtain rfl : last = some record := Option.mem_toList.mp isLast
      exact List.prefix_rfl
  | cons piece later ih =>
      rw [placedBehind] at member
      rw [bytes_cons, ← List.append_assoc]
      rcases List.mem_append.mp member with here | behind
      · obtain ⟨record, isHere, rfl⟩ := List.mem_map.mp here
        cases piece with
        | blank ending => cases isHere
        | record fields ending =>
            obtain rfl : record = fields := List.mem_singleton.mp isHere
            change front ++ record.bytes d <+: front ++ (record.bytes d ++ ending.bytes) ++ _
            rw [← List.append_assoc, List.append_assoc _ ending.bytes]
            exact List.prefix_append ..
      · exact ih behind

/-- The rows that are read for a rendering are its records, each on the line behind the line
feeds in front of it. -/
theorem rows_items (line : Nat) (front : Bytes) (pieces : List Piece) :
    (items d last (line + front.lineFeeds) pieces).filterMap Item.row? =
      (placedBehind d last front pieces).map fun place =>
        ⟨place.2.texts, line + place.1.lineFeeds⟩ := by
  induction pieces generalizing front with
  | nil => cases last <;> rfl
  | cons piece later ih =>
      have here : (piece.item (line + front.lineFeeds)).row?.toList =
          (piece.record?.toList.map fun record => (front, record)).map fun place =>
            ⟨place.2.texts, line + place.1.lineFeeds⟩ := by
        cases piece <;> rfl
      have behind := ih (front ++ piece.bytes d)
      rw [Bytes.lineFeeds, List.count_append, ← Nat.add_assoc] at behind
      rw [items, placedBehind, List.map_append, ← behind, ← here, List.filterMap_cons]
      cases (piece.item (line + front.lineFeeds)).row? <;> rfl

end

end Rendering

namespace Decoder

/-- Whatever way rows are rendered in, the decoder yields them without an error, in order, and
each with the line on which its rendering starts. -/
theorem records_renderedRows {d : Dialect} (accepted : d.Accepted) {rows : List (List String)}
    {rendering : Rendering} (renders : rendering.Renders d)
    (written : rendering.records.map (·.texts) = rows) (line : Nat) :
    ∃ items : List (Item String),
      ((ofBytes (rendering.bytes d) line).records d).1 = items.map .ok ∧
      (items.filterMap Item.row?).map (·.fields) = rows ∧
      (items.filterMap Item.row?).map (·.line) =
        (rendering.placed d).map (fun place => line + place.1.lineFeeds) ∧
      (rendering.placed d).map Prod.snd = rendering.records ∧
      ∀ place ∈ rendering.placed d, place.1 ++ place.2.bytes d <+: rendering.bytes d := by
  have read : ((ofBytes (rendering.bytes d) line).records d).1 = _ :=
    ofBytes_eq .. ▸ records_rendering accepted renders line 0
  have rows := @Rendering.rows_items d rendering.last line [] rendering.pieces
  have placed : (rendering.placed d).map Prod.snd = rendering.records :=
    Rendering.records_placedBehind [] rendering.pieces
  refine ⟨_, read, ?_, ?_, placed, ?_⟩
  · calc _ = (rendering.placed d).map fun place => place.2.texts := by
          rw [← Nat.add_zero line]
          exact (congrArg (List.map (·.fields)) rows).trans List.map_map
      _ = ((rendering.placed d).map Prod.snd).map (·.texts) := List.map_map.symm
      _ = _ := by rw [placed, written]
  · rw [← Nat.add_zero line]
    exact (congrArg (List.map (·.line)) rows).trans List.map_map
  · intro place member
    exact Rendering.prefix_of_mem_placedBehind member

/-- A blank line, a line end and a doubled quote inside quotes, and a last record that is one
empty field. -/
theorem records_renderedRows_lineEndInQuotes :
    let rendering : Rendering := {
      pieces := [.blank .crlf, .record [⟨"a\n", true⟩, ⟨"\"", true⟩, ⟨"", false⟩] .crlf, .blank .lf]
      last := some [⟨"", true⟩] }
    rendering.bytes {} = [13, 10, 34, 97, 10, 34, 44, 34, 34, 34, 34, 44, 13, 10, 10, 34, 34] ∧
      ∃ items : List (Item String),
        ((ofBytes (rendering.bytes {}) 7).records {}).1 = items.map .ok ∧
        (items.filterMap Item.row?).map (·.fields) = [["a\n", "\"", ""], [""]] ∧
        (items.filterMap Item.row?).map (·.line) = [8, 11] := by
  intro rendering
  have renders : rendering.Renders {} := by decide
  have places : (rendering.placed {}).map (fun place => 7 + place.1.lineFeeds) = [8, 11] := by
    decide
  obtain ⟨items, read, fields, lines, _⟩ :=
    records_renderedRows Dialect.accepted_default renders rfl 7
  exact ⟨by decide, items, read, fields, lines.trans places⟩

end Decoder

end CsvImport

import CsvImport.Proofs.JsonReading
import Mathlib.Data.List.Nodup

/-!
# Nothing is lost on a line

The line of a document is read back as the members of the document, so that documents with the
same line are the same.  A row that becomes a document has its fields on the line, with empty
ones behind them where the header goes on.
-/

namespace CsvImport

namespace Header

variable {header : Header} {name : String}

/-- A name is found at its own position, because it stands there for the first time. -/
theorem get?_eq_some_iff {index : Nat} :
    header.get? index = some name ↔ header.indexOf? name = some index := by
  unfold get? indexOf?
  rw [List.getElem?_eq_some_iff, List.idxOf?_eq_some_iff]
  refine exists_congr fun inside => ⟨fun here => ⟨here, fun earlier before same => ?_⟩, And.left⟩
  have twice := (List.Nodup.getElem_inj_iff header.valid.nodup).mp (same.trans here.symm)
  exact Nat.ne_of_lt before twice

theorem indexOf?_of_not_mem (unknown : name ∉ header.names) : header.indexOf? name = none :=
  List.idxOf?_eq_none_iff.mpr unknown

end Header

namespace Document

def encoded (doc : Document) : Bytes :=
  Utf8.encode (Json.render doc.toJson)

variable (doc : Document)

theorem encode_line : Utf8.encode doc.line = doc.encoded ++ [Bytes.lf] :=
  Utf8.encode_append ..

theorem parse?_encoded : (Utf8.decode? doc.encoded).bind Json.parse? =
    some (.object (Json.pairs doc.header.names doc.values)) := by
  have flat := Json.flat_pairs doc.header.names doc.values
  have read : Json.parse? (Json.render doc.toJson ++ "") = _ :=
    Json.parse?_render flat fun c member => absurd member List.not_mem_nil
  rw [String.append_empty] at read
  rw [encoded, Utf8.decode?_encode]
  exact read

theorem printed_of_mem_encoded {b : UInt8} (member : b ∈ doc.encoded) : 32 ≤ b.toNat :=
  Utf8.printed_of_mem_encode (fun _ => doc.printed_of_mem_render) member

theorem get?_of_getElem? {index : Nat} {name : String}
    (named : doc.header.names[index]? = some name) : doc.get? name = doc.values[index]? := by
  rw [get?, Header.get?_eq_some_iff.mp named]
  rfl

theorem get?_of_not_mem {name : String} (unknown : name ∉ doc.header.names) :
    doc.get? name = none := by
  rw [get?, Header.indexOf?_of_not_mem unknown]
  rfl

variable {doc} {other : Document}

/-- Documents with the same line are the same, since one object is read back from both. -/
theorem eq_of_encode_line (same : Utf8.encode doc.line = Utf8.encode other.line) :
    doc = other := by
  rw [encode_line, encode_line] at same
  have read := doc.parse?_encoded
  rw [List.append_cancel_right same, other.parse?_encoded] at read
  have members := Json.Value.object.inj (Option.some.inj read)
  have names : other.header.names = doc.header.names := by
    rw [← Json.map_fst_pairs doc.complete, ← members, Json.map_fst_pairs other.complete]
  have texts : other.values.map Json.Value.string = doc.values.map .string := by
    rw [← Json.map_snd_pairs doc.complete, ← members, Json.map_snd_pairs other.complete]
  have values : other.values = doc.values :=
    List.map_injective_iff.mpr (fun _ _ => Json.Value.string.inj) texts
  obtain ⟨⟨_, _⟩, _, _⟩ := doc
  obtain ⟨⟨_, _⟩, _, _⟩ := other
  cases names
  cases values
  rfl

end Document

section

variable {policy : ArityPolicy} {header : Header} {row : List String} {doc : Document}

/-- A document holds the fields of its row, and the lenient policy alone adds empty ones. -/
theorem values_of_assemble (assembled : assemble policy header row = .ok (.document doc)) :
    doc.header = header ∧ row.length ≤ header.names.length ∧
      doc.values = row ++ List.replicate (header.names.length - row.length) "" ∧
      (policy ≠ .lenient → doc.values = row) := by
  unfold assemble at assembled
  split at assembled
  · rename_i fits
    cases assembled
    rw [fits, Nat.sub_self]
    exact ⟨rfl, Nat.le_refl _, (List.append_nil row).symm, fun _ => rfl⟩
  · split at assembled
    · rename_i short
      cases policy with
      | strict => cases assembled
      | skipShort => cases assembled
      | lenient =>
          cases assembled
          exact ⟨rfl, Nat.le_of_lt short, rfl, fun other => absurd rfl other⟩
    · cases assembled

/-- A row that becomes a document can be read back from the line of the document.  The line is one
object and a line feed, without other control characters; the names of the object are those of the
header, in order and all different, and its values are the fields of the row, followed by empty ones
under the lenient policy.  No other document has this line. -/
theorem assemble_lossless (assembled : assemble policy header row = .ok (.document doc)) :
    let members := Json.pairs header.names doc.values
    doc.header = header ∧
    doc.values.length = header.names.length ∧
    (∀ (index : Nat) (name : String), header.names[index]? = some name →
      ∃ value, doc.values[index]? = some value ∧ doc.get? name = some value) ∧
    (∀ name ∉ header.names, doc.get? name = none) ∧
    (∃ front : Bytes, Utf8.encode doc.line = front ++ [Bytes.lf] ∧
      (∀ b ∈ front, 32 ≤ b.toNat) ∧
      (Utf8.decode? front).bind Json.parse? = some (.object members)) ∧
    members.map Prod.fst = header.names ∧ header.names.Nodup ∧
    members.map Prod.snd = doc.values.map .string ∧
    row.length ≤ header.names.length ∧
    doc.values = row ++ List.replicate (header.names.length - row.length) "" ∧
    (policy ≠ .lenient → doc.values = row) ∧
    ∀ other : Document, Utf8.encode other.line = Utf8.encode doc.line → other = doc := by
  intro members
  obtain ⟨rfl, short, padded, whole⟩ := values_of_assemble assembled
  refine ⟨rfl, doc.complete, fun index name named => ?_, fun _ => doc.get?_of_not_mem,
    ⟨doc.encoded, doc.encode_line, fun _ => doc.printed_of_mem_encoded, doc.parse?_encoded⟩,
    Json.map_fst_pairs doc.complete, doc.header.valid.nodup, Json.map_snd_pairs doc.complete,
    short, padded, whole, fun _ => Document.eq_of_encode_line⟩
  obtain ⟨inside, -⟩ := List.getElem?_eq_some_iff.mp named
  have found : doc.values[index]? = some _ :=
    List.getElem?_eq_getElem (doc.complete.symm ▸ inside)
  exact ⟨_, found, (doc.get?_of_getElem? named).trans found⟩

/-- A field of a quote, a backslash and control characters is escaped, and one is added. -/
theorem assemble_lossless_controls :
    let header : Header := ⟨["a", "b"], by decide, by decide, by decide⟩
    let doc : Document := ⟨header, ["\"\\\r\n\x1f", ""], rfl⟩
    assemble .lenient header ["\"\\\r\n\x1f"] = .ok (.document doc) ∧
      doc.get? "b" = some "" ∧
      doc.line = "\x7b\"a\":\"\\\"\\\\\\r\\n\\u001f\",\"b\":\"\"\x7d\n" ∧
      ∃ front : Bytes, Utf8.encode doc.line = front ++ [Bytes.lf] ∧ (∀ b ∈ front, 32 ≤ b.toNat) ∧
        (Utf8.decode? front).bind Json.parse? =
          some (.object [("a", .string "\"\\\r\n\x1f"), ("b", .string "")]) := by
  intro header doc
  have assembled : assemble .lenient header ["\"\\\r\n\x1f"] = .ok (.document doc) := by rfl
  obtain ⟨-, -, named, -, line, -⟩ := assemble_lossless assembled
  obtain ⟨value, held, found⟩ := named 1 "b" rfl
  cases held
  exact ⟨assembled, found, by decide, line⟩

end

end CsvImport

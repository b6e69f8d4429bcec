import CsvImport.Proofs.Advancing
import CsvImport.Proofs.Reading
import Mathlib.Algebra.BigOperators.Group.List.Basic

/-!
# Successive calls

Without failures of the source, each call of a decoder takes the next extent: whole physical
lines behind those of the calls before it.  The line and the offset of a decoder count what was
taken, an item carries the counts from before its call, and once the extents are used up every
call yields nothing.  This holds of every dialect.
-/

namespace CsvImport

namespace Decoder

variable {d : Dialect}

def afterCalls (d : Dialect) (decoder : Decoder) (n : Nat) : Decoder :=
  (fun decoder => (decoder.next d).2)^[n] decoder

/-- What the call behind so many others yields. -/
def nthCall (d : Dialect) (decoder : Decoder) (n : Nat) :
    Option (Except DecodeError (Item String)) :=
  ((decoder.afterCalls d n).next d).1

theorem afterCalls_succ (d : Dialect) (decoder : Decoder) (n : Nat) :
    decoder.afterCalls d (n + 1) = ((decoder.afterCalls d n).next d).2 :=
  Function.iterate_succ_apply' ..

/-- The first of some extents is taken by one call. -/
theorem next_extents {extent : Extent} {later : List Extent}
    (are : AreExtents d (extent :: later)) (line offset : Nat) :
    (atLines (extent :: later).flatten line offset).next d =
      (some (asText (extent.item d line offset)),
        atLines later.flatten (line + extent.length) (offset + extent.bytes.length)) := by
  obtain ⟨⟨first, more, rfl, cut⟩, -⟩ := are.uncons
  rw [List.flatten_cons, List.cons_append, next_lines, cut]

theorem AreExtents.drop {all : List Extent} (are : AreExtents d all) (n : Nat) :
    AreExtents d (all.drop n) := by
  rw [← List.take_append_drop n all] at are
  exact are.right

theorem AreExtents.bytes_ne_nil {all : List Extent} (are : AreExtents d all)
    (physical : Bytes.Physical all.flatten) {extent : Extent} (member : extent ∈ all) :
    extent.bytes ≠ [] := by
  obtain ⟨first, more, rfl⟩ := List.exists_cons_of_ne_nil (are.ne_nil member)
  have nonempty : first ≠ [] :=
    physical.ne_nil (List.mem_flatten_of_mem member (List.mem_cons_self ..))
  exact List.append_ne_nil_of_left_ne_nil nonempty _

/-- There are no more extents than lines. -/
theorem AreExtents.length_le {all : List Extent} (are : AreExtents d all) :
    all.length ≤ all.flatten.length := by
  rw [List.length_flatten, ← List.length_map List.length]
  refine List.length_le_sum_of_one_le _ fun size member => ?_
  obtain ⟨extent, listed, rfl⟩ := List.mem_map.mp member
  exact List.length_pos_iff.mpr (are.ne_nil listed)

/-- Behind so many calls, so many extents are taken and counted. -/
theorem afterCalls_extents {all : List Extent} (are : AreExtents d all) (line offset n : Nat) :
    (atLines all.flatten line offset).afterCalls d n =
      atLines (all.drop n).flatten (line + (all.take n).flatten.length)
        (offset + (all.take n).flatten.flatten.length) := by
  induction n with
  | zero => rfl
  | succ n ih =>
      rw [afterCalls_succ, ih]
      cases behind : all.drop n with
      | nil =>
          have used := List.drop_eq_nil_iff.mp behind
          rw [List.drop_of_length_le (Nat.le_succ_of_le used), List.take_of_length_le used,
            List.take_of_length_le (Nat.le_succ_of_le used)]
          rfl
      | cons extent later =>
          obtain ⟨-, rest, front⟩ := of_drop_eq_cons behind
          rw [next_extents (behind ▸ are.drop n), rest, front]
          simp [Extent.bytes, Nat.add_assoc]

/-- A call yields the item of the extent that it takes. -/
theorem nthCall_extents {all : List Extent} (are : AreExtents d all) (line offset n : Nat) :
    (atLines all.flatten line offset).nthCall d n =
      all[n]?.map fun extent =>
        asText (extent.item d (line + (all.take n).flatten.length)
          (offset + (all.take n).flatten.flatten.length)) := by
  rw [nthCall, afterCalls_extents are, ← List.head?_drop]
  cases behind : all.drop n with
  | nil => rfl
  | cons extent later => rw [next_extents (behind ▸ are.drop n)]; rfl

end Decoder

namespace Extent

variable {d : Dialect} {line offset : Nat} {extent : Extent}

theorem getElem?_items (d : Dialect) (line offset : Nat) (all : List Extent) (n : Nat) :
    (items d line offset all)[n]? =
      all[n]?.map fun extent =>
        extent.item d (line + (all.take n).flatten.length)
          (offset + (all.take n).flatten.flatten.length) := by
  induction all generalizing line offset n with
  | nil => rfl
  | cons extent later ih =>
      cases n with
      | zero => rfl
      | succ n =>
          rw [items, List.getElem?_cons_succ, ih]
          simp [bytes, Nat.add_assoc]

theorem line_of_item {row : Row String}
    (found : Decoder.asText (extent.item d line offset) = .ok (.row row)) : row.line = line := by
  unfold item at found
  split at found
  · cases found
  · unfold Scan.ended at found
    split at found
    · cases found
    · cases found
      rfl

/-- The only error of an extent is that of a quote which stays open. -/
theorem error_of_item {e : DecodeError}
    (found : Decoder.asText (extent.item d line offset) = .error e) :
    e = .unterminatedQuote line offset := by
  unfold item at found
  split at found
  · cases found
  · unfold Scan.ended at found
    split at found
    · cases found
      rfl
    · cases found

end Extent

namespace Decoder

variable {d : Dialect}

/-- Only the call that takes the last extent can yield an error. -/
theorem last_of_error {all : List Extent} (are : AreExtents d all) {n : Nat} {extent : Extent}
    (found : all[n]? = some extent) {line offset : Nat} {e : DecodeError}
    (failed : asText (extent.item d line offset) = .error e) : n + 1 = all.length := by
  obtain ⟨within, same⟩ := List.getElem?_eq_some_iff.mp found
  have split : all.drop n = [extent] ++ all.drop (n + 1) := by
    rw [List.drop_eq_getElem_cons within, same]
    rfl
  have rest := are.drop n
  rw [split] at rest
  by_contra more
  have some : all.drop (n + 1) ≠ [] := by
    rw [ne_eq, List.drop_eq_nil_iff]
    omega
  have fine := items_ok_of_more rest some line offset
  cases read : extent.item d line offset with
  | ok item =>
      rw [read] at failed
      cases failed
  | error found =>
      rw [Extent.items, read] at fine
      cases fine

/-- Without failures of the source, successive calls yield what `records` lists. -/
theorem nthCall_lines (d : Dialect) (lines : List Bytes) (line offset n : Nat) :
    (atLines lines line offset).nthCall d n =
      ((atLines lines line offset).records d).1[n]? := by
  have found := nthCall_extents (areExtents_extents d lines) line offset n
  rw [flatten_extents] at found
  rw [found, records_lines, List.getElem?_map, Extent.getElem?_items, Option.map_map]
  rfl

end Decoder

theorem Delivery.ofSignals_flatten {lines : List Bytes} (physical : Bytes.Physical lines) :
    ofSignals (lines.flatten.map .byte) = lines.map .line := by
  induction physical with
  | nil => rfl
  | last nonempty free =>
      rw [List.flatten_singleton]
      have alone := ofSignals_line (.last nonempty free)
      rwa [List.append_nil] at alone
  | cons free rest ih =>
      rw [List.flatten_cons, List.map_append, ofSignals_line (.whole free _), ih, List.map_cons]

theorem Delivery.ofSignals_bytes (bytes : Bytes) :
    ofSignals (bytes.map .byte) = ofBytes bytes := by
  have delivered := ofSignals_flatten (Bytes.physical_lines bytes)
  rwa [Bytes.flatten_lines] at delivered

namespace ByteDecoder

variable {d : Dialect}

/-- A decoder at the front of a byte string whose first line has the given number. -/
def ofBytes (bytes : Bytes) (firstLine : Nat) : ByteDecoder :=
  { signals := bytes.map .byte, line := firstLine }

theorem toDecoder_afterCalls (d : Dialect) (m : ByteDecoder) (n : Nat) :
    (m.afterCalls d n).toDecoder = m.toDecoder.afterCalls d n := by
  induction n with
  | zero => rfl
  | succ n ih => rw [afterCalls_succ, Decoder.afterCalls_succ, ← ih, next_toDecoder]

theorem nthCall_toDecoder (d : Dialect) (m : ByteDecoder) (n : Nat) :
    m.toDecoder.nthCall d n = m.nthCall d n := by
  rw [Decoder.nthCall, ← toDecoder_afterCalls, next_toDecoder]
  rfl

theorem toDecoder_ofBytes (bytes : Bytes) (firstLine : Nat) :
    (ofBytes bytes firstLine).toDecoder = Decoder.ofBytes bytes firstLine :=
  congrArg (Decoder.mk · firstLine 0) (Delivery.ofSignals_bytes bytes)

/-- What is left of a byte string behind so many calls is bytes from its end. -/
theorem signals_afterCalls (d : Dialect) (bytes : Bytes) (line n : Nat) :
    ∃ rest : Bytes, ((ofBytes bytes line).afterCalls d n).signals = rest.map .byte := by
  obtain ⟨taken, advances, -⟩ := afterCalls_advances d (ofBytes bytes line) n
  have parts : bytes.map Signal.byte = _ := advances.signals
  obtain ⟨front, rest, -, -, same⟩ := List.map_eq_append_iff.mp parts
  exact ⟨rest, same.symm⟩

/-- Bytes that are delivered as lines are those of the lines. -/
theorem signals_of_input {m : ByteDecoder} {rest : Bytes} {lines : List Bytes}
    (left : m.signals = rest.map .byte) (input : m.toDecoder.input = lines.map .line) :
    m.signals = lines.flatten.map .byte := by
  have delivered : Delivery.ofSignals m.signals = rest.lines.map .line := by
    rw [left, Delivery.ofSignals_bytes]
    rfl
  have same : rest.lines.map Delivery.line = lines.map Delivery.line := delivered.symm.trans input
  rw [← List.map_injective_iff.mpr (fun _ _ => Delivery.line.inj) same, Bytes.flatten_lines]
  exact left

/-- Successive calls take the segments of a byte string, which are made of whole physical lines.
Before each call the counts are those of the segments behind; a row and an error carry
them, and only the last segment can be an error.  The decoder of lines counts and yields the
same. -/
theorem calls_partition (d : Dialect) (bytes : Bytes) (firstLine : Nat) :
    ∃ segments : List Extent,
      segments.flatten = bytes.lines ∧
      (∀ segment ∈ segments, segment.bytes ≠ []) ∧
      segments.length ≤ bytes.lines.length ∧
      ∀ n,
        let m := (ofBytes bytes firstLine).afterCalls d n
        let item := (m.next d).1
        m.signals = (segments.drop n).flatten.flatten.map .byte ∧
        m.line = firstLine + (segments.take n).flatten.length ∧
        m.offset = (segments.take n).flatten.flatten.length ∧
        (item = none ↔ segments.length ≤ n) ∧
        (∀ row, item = some (.ok (.row row)) → row.line = m.line) ∧
        (∀ e, item = some (.error e) →
          e = .unterminatedQuote m.line m.offset ∧ n + 1 = segments.length) ∧
        m.toDecoder = (Decoder.ofBytes bytes firstLine).afterCalls d n ∧
        item = ((Decoder.ofBytes bytes firstLine).records d).1[n]? := by
  have are := Decoder.areExtents_extents d bytes.lines
  have whole := Decoder.flatten_extents d bytes.lines
  have physical : Bytes.Physical (Decoder.extents d bytes.lines).flatten := by
    rw [whole]
    exact Bytes.physical_lines bytes
  generalize Decoder.extents d bytes.lines = segments at are whole physical
  have start : (ofBytes bytes firstLine).toDecoder =
      Decoder.atLines segments.flatten firstLine 0 := by
    rw [whole, toDecoder_ofBytes]
    rfl
  refine ⟨segments, whole, fun segment => are.bytes_ne_nil physical, whole ▸ are.length_le,
    fun n => ?_⟩
  intro m item
  have behind := Decoder.afterCalls_extents are firstLine 0 n
  rw [← start, ← toDecoder_afterCalls] at behind
  have input := congrArg Decoder.input behind
  have line : m.line = firstLine + (segments.take n).flatten.length :=
    congrArg Decoder.line behind
  have offset : m.offset = _ := (congrArg Decoder.offset behind).trans (Nat.zero_add _)
  have called := Decoder.nthCall_extents are firstLine 0 n
  have listed := Decoder.nthCall_lines d segments.flatten firstLine 0 n
  rw [← start, nthCall_toDecoder] at called listed
  change item = _ at called listed
  rw [toDecoder_ofBytes] at listed
  rw [Nat.zero_add, ← line, ← offset] at called
  refine ⟨?_, line, offset, ?_, ?_, ?_, ?_, listed⟩
  · obtain ⟨rest, left⟩ := signals_afterCalls d bytes firstLine n
    exact signals_of_input left input
  · rw [called, Option.map_eq_none_iff, List.getElem?_eq_none_iff]
  · intro row found
    rw [called] at found
    obtain ⟨segment, -, read⟩ := Option.map_eq_some_iff.mp found
    exact Extent.line_of_item read
  · intro e found
    rw [called] at found
    obtain ⟨segment, here, read⟩ := Option.map_eq_some_iff.mp found
    exact ⟨Extent.error_of_item read, Decoder.last_of_error are here read⟩
  · rw [← toDecoder_ofBytes]
    exact toDecoder_afterCalls d (ofBytes bytes firstLine) n

end ByteDecoder

end CsvImport

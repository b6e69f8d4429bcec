import CsvImport.Proofs.Extents

/-!
# Reading extents

What a decoder yields for lines that arrive without failures, extent by extent: one
item for each, with the line and the offset at which the extent starts.
-/

namespace CsvImport

namespace Scan

/-- What comes of a record that started at the given line and offset, behind its last line. -/
def ended (line offset : Nat) (scan : Scan) : Except DecodeError (Row Bytes) :=
  if scan.isOpen then .error (.unterminatedQuote line offset) else .ok ⟨scan.fields, line⟩

end Scan

namespace DecodeError

def moved (bytes : Nat) : DecodeError → DecodeError
  | unterminatedQuote line offset => unterminatedQuote line (offset + bytes)
  | readInput line cause => readInput line cause

end DecodeError

namespace Extent

/-- What the decoder makes of an extent that starts at the given line and offset. -/
def item (d : Dialect) (line offset : Nat) (extent : Extent) :
    Except DecodeError (Item Bytes) :=
  if (extent.headD []).stripTerminator.isEmpty then .ok .blank
  else ((Scan.across d {} extent).ended line offset).map .row

/-- The items of extents in a row, of which the first starts at the given line and offset. -/
def items (d : Dialect) (line offset : Nat) :
    List Extent → List (Except DecodeError (Item Bytes))
  | [] => []
  | extent :: later =>
      extent.item d line offset ::
        items d (line + extent.length) (offset + extent.bytes.length) later

theorem items_append (d : Dialect) (line offset : Nat) (first later : List Extent) :
    items d line offset (first ++ later) =
      items d line offset first ++
        items d (line + first.flatten.length) (offset + first.flatten.flatten.length) later := by
  induction first generalizing line offset with
  | nil => rfl
  | cons extent rest ih =>
      simp only [List.cons_append, items, ih, List.flatten_cons, List.flatten_append,
        List.length_append, Nat.add_assoc, bytes]

/-- A later start moves the offsets of errors and changes nothing else. -/
theorem items_moved (d : Dialect) (line offset bytes : Nat) (all : List Extent) :
    items d line (offset + bytes) all =
      (items d line offset all).map (·.mapError (·.moved bytes)) := by
  induction all generalizing line offset with
  | nil => rfl
  | cons extent rest ih =>
      rw [items, items, List.map_cons, Nat.add_right_comm, ih]
      refine congrArg (· :: _) ?_
      unfold item Scan.ended
      split
      · rfl
      · split <;> rfl

end Extent

namespace Decoder

def decoded {α : Type} (items : List (Except DecodeError α)) : List α :=
  items.filterMap Except.toOption

def failure? {α : Type} (items : List (Except DecodeError α)) : Option DecodeError :=
  items.findSome? fun
    | .error e => some e
    | .ok _ => none

theorem decoded_append {α : Type} (first later : List (Except DecodeError α)) :
    decoded (first ++ later) = decoded first ++ decoded later :=
  List.filterMap_append

theorem failure?_append {α : Type} (first later : List (Except DecodeError α)) :
    failure? (first ++ later) = (failure? first).or (failure? later) :=
  List.findSome?_append

/-- Moved errors leave the rows and blank lines as they are. -/
theorem decoded_moved {α : Type} (bytes : Nat) (items : List (Except DecodeError α)) :
    decoded (items.map (·.mapError (·.moved bytes))) = decoded items := by
  unfold decoded
  rw [List.filterMap_map]
  refine congrArg (List.filterMap · items) (funext fun item => ?_)
  cases item <;> rfl

theorem failure?_moved {α : Type} (bytes : Nat) (items : List (Except DecodeError α)) :
    failure? (items.map (·.mapError (·.moved bytes))) = (failure? items).map (·.moved bytes) := by
  induction items with
  | nil => rfl
  | cons item later ih => cases item <;> simp_all [failure?, Except.mapError]

def asText (item : Except DecodeError (Item Bytes)) : Except DecodeError (Item String) :=
  item.map (·.map Utf8.decodeLossy)

def atLines (lines : List Bytes) (line offset : Nat) : Decoder :=
  ⟨lines.map .line, line, offset⟩

theorem ofBytes_eq (bytes : Bytes) (line : Nat) :
    ofBytes bytes line = atLines bytes.lines line 0 := rfl

/-- An open record goes on for the lines that it takes. -/
theorem readOn_lines (d : Dialect) (start : Decoder) (scan : Scan) (line offset : Nat)
    (lines : List Bytes) :
    readOn d start scan line offset (lines.map .line) =
      ((scan.across d (scan.cut d lines).1).ended start.line start.offset,
        atLines (scan.cut d lines).2 (line + (scan.cut d lines).1.length)
          (offset + (scan.cut d lines).1.flatten.length)) := by
  induction lines generalizing scan line offset with
  | nil =>
      rw [List.map_nil, readOn]
      by_cases opened : scan.isOpen = true <;>
        simp [Scan.cut, Scan.across, Scan.ended, opened, atLines]
  | cons bytes later ih =>
      rw [List.map_cons, readOn, Scan.cut]
      by_cases opened : scan.isOpen = true
      · simp only [opened, ↓reduceIte, ih, Scan.across, List.foldl_cons, List.length_cons,
          List.flatten_cons, List.length_append, Nat.add_assoc, Nat.add_comm 1]
      · simp [opened, Scan.across, Scan.ended, atLines]

/-- The next item is that of the first extent, and the decoder goes on behind it. -/
theorem nextRaw_lines (d : Dialect) (first : Bytes) (later : List Bytes) (line offset : Nat) :
    (atLines (first :: later) line offset).nextRaw d =
      (some ((cutFirst d first later).1.item d line offset),
        atLines (cutFirst d first later).2 (line + (cutFirst d first later).1.length)
          (offset + (cutFirst d first later).1.bytes.length)) := by
  unfold nextRaw cutFirst Extent.item Extent.bytes
  simp only [atLines, List.map_cons]
  by_cases blank : first.stripTerminator.isEmpty = true
  · simp [blank]
  · simp only [blank, Bool.false_eq_true, ↓reduceIte, List.headD_cons, readOn_lines, atLines,
      Scan.across, List.foldl_cons, List.length_cons, List.flatten_cons, List.length_append,
      Nat.add_assoc, Nat.add_comm 1]

/-- Only the last of the extents can be an error. -/
theorem cutFirst_of_error {d : Dialect} {first : Bytes} {later : List Bytes} {line offset : Nat}
    {e : DecodeError} (failed : (cutFirst d first later).1.item d line offset = .error e) :
    (cutFirst d first later).2 = [] := by
  unfold cutFirst Extent.item at *
  by_cases blank : first.stripTerminator.isEmpty = true
  · simp [blank] at failed
  · simp only [blank, Bool.false_eq_true, ↓reduceIte, List.headD_cons] at failed ⊢
    unfold Scan.ended at failed
    split at failed
    · rename_i isOpen
      exact Scan.cut_open isOpen
    · cases failed

/-- An extent that is not open is found again when there are lines behind it. -/
theorem cutFirst_right {d : Dialect} {first : Bytes} {more : List Bytes} {line offset : Nat}
    {item : Item Bytes} (found : cutFirst d first more = (first :: more, []))
    (read : Extent.item d line offset (first :: more) = .ok item) (later : List Bytes) :
    cutFirst d first (more ++ later) = (first :: more, later) := by
  unfold cutFirst Extent.item at *
  by_cases blank : first.stripTerminator.isEmpty = true
  · simp [blank] at found ⊢
    simp [found]
  · simp only [blank, Bool.false_eq_true, ↓reduceIte, List.headD_cons] at found read ⊢
    obtain ⟨same, rest⟩ := Prod.mk.inj found
    have closed : ((Scan.line d {} first).across d more).isOpen = false := by
      unfold Scan.ended at read
      split at read
      · cases read
      · rename_i closed
        exact Bool.eq_false_iff.mpr closed
    rw [Scan.cut_right (Prod.ext (List.cons.inj same).2 rest) closed]

theorem records_of_none {d : Dialect} {decoder after : Decoder}
    (stopped : decoder.next d = (none, after)) : decoder.records d = ([], after) := by
  rw [records]
  split <;> simp_all

theorem records_of_error {d : Dialect} {decoder after : Decoder} {e : DecodeError}
    (failed : decoder.next d = (some (.error e), after)) :
    decoder.records d = ([.error e], after) := by
  rw [records]
  split <;> simp_all

theorem records_of_ok {d : Dialect} {decoder after : Decoder} {item : Item String}
    (read : decoder.next d = (some (.ok item), after)) :
    decoder.records d = (.ok item :: (after.records d).1, (after.records d).2) := by
  rw [records]
  split <;> simp_all

theorem next_lines (d : Dialect) (first : Bytes) (later : List Bytes) (line offset : Nat) :
    (atLines (first :: later) line offset).next d =
      (some (asText ((cutFirst d first later).1.item d line offset)),
        atLines (cutFirst d first later).2 (line + (cutFirst d first later).1.length)
          (offset + (cutFirst d first later).1.bytes.length)) := by
  rw [next, nextRaw_lines]
  rfl

/-- A decoder yields the items of the extents of its lines. -/
theorem records_lines (d : Dialect) (lines : List Bytes) (line offset : Nat) :
    ((atLines lines line offset).records d).1 =
      (Extent.items d line offset (extents d lines)).map asText := by
  induction lines using extents.induct d generalizing line offset with
  | case1 =>
      have stopped : (atLines [] line offset).next d = (none, atLines [] line offset) := rfl
      rw [records_of_none stopped, extents_nil]
      rfl
  | case2 first later ih =>
      have step := next_lines d first later line offset
      rw [extents_cons, Extent.items, List.map_cons]
      cases found : (cutFirst d first later).1.item d line offset with
      | error e =>
          rw [found] at step
          rw [records_of_error step, cutFirst_of_error found, extents_nil]
          rfl
      | ok item =>
          rw [found] at step
          rw [records_of_ok step, ih]
          rfl

/-- Bytes decode to the items of the extents of their lines. -/
theorem records_ofBytes {bytes : Bytes} {lines : List Bytes} (cut : bytes.lines = lines)
    (d : Dialect) :
    ((ofBytes bytes).records d).1 = (Extent.items d 1 0 (extents d lines)).map asText := by
  rw [ofBytes_eq, cut, records_lines]

/-- Without failures of the source, every error is a quote that is never closed. -/
theorem unterminated_of_failure? {d : Dialect} {line offset : Nat} {all : List Extent}
    {e : DecodeError} (failed : failure? (Extent.items d line offset all) = some e) :
    ∃ first at_, e = .unterminatedQuote first at_ := by
  induction all generalizing line offset with
  | nil => cases failed
  | cons extent rest ih =>
      rw [Extent.items] at failed
      cases read : extent.item d line offset with
      | ok item => exact ih (by simpa [failure?, read] using failed)
      | error found =>
          obtain rfl : found = e := by simpa [failure?, read] using failed
          unfold Extent.item Scan.ended at read
          split at read
          · cases read
          · split at read
            · exact ⟨line, offset, (Except.error.inj read).symm⟩
            · cases read

/-- Extents with others behind them are no errors. -/
theorem items_ok_of_more {d : Dialect} {first later : List Extent}
    (found : AreExtents d (first ++ later)) (more : later ≠ []) (line offset : Nat) :
    failure? (Extent.items d line offset first) = none := by
  induction first generalizing line offset with
  | nil => rfl
  | cons extent rest ih =>
      rw [List.cons_append] at found
      obtain ⟨⟨head, tail, rfl, cut⟩, others⟩ := found.uncons
      have next := ih others (line + (head :: tail).length)
        (offset + (Extent.bytes (head :: tail)).length)
      rw [Extent.items]
      cases read : Extent.item d line offset (head :: tail) with
      | ok item => simpa [failure?] using next
      | error e =>
          have failed : (cutFirst d head (tail ++ (rest ++ later).flatten)).1.item d line offset =
              .error e := by rw [cut]; exact read
          have nothing := cutFirst_of_error failed
          rw [cut, List.flatten_append] at nothing
          obtain ⟨extent, others', rfl⟩ := List.exists_cons_of_ne_nil more
          exact absurd (List.append_eq_nil_iff.mp (List.append_eq_nil_iff.mp nothing).2).1
            (found.ne_nil (by simp))

end Decoder

end CsvImport

import CsvImport.Proofs.FieldTexts

/-!
# Input without quotes

Without quotes every physical line is one record.  Its fields with delimiters between them are the
line without its line end, so nothing is dropped.  The one exception is a carriage return that
stands alone on the last line: the test for blank lines takes it for a terminator.
-/

namespace CsvImport

namespace Bytes

/-- A segment without its line end: one final line feed, with a carriage return in front of it or
without one. -/
def withoutLineEnd (segment : Bytes) : Bytes :=
  if segment.getLast? = some lf then dropTrailing cr segment.dropLast else segment

theorem withoutLineEnd_concat (body : Bytes) :
    withoutLineEnd (body ++ [lf]) = dropTrailing cr body := by
  rw [withoutLineEnd, List.getLast?_concat, if_pos rfl, List.dropLast_concat]

theorem withoutLineEnd_of_not_mem {line : Bytes} (free : lf ∉ line) :
    withoutLineEnd line = line :=
  if_neg fun last => free (List.mem_of_getLast? last)

theorem stripTerminator_concat (body : Bytes) :
    stripTerminator (body ++ [lf]) = dropTrailing cr body := by
  rw [stripTerminator, dropTrailing.eq_def lf, List.getLast?_concat, if_pos rfl,
    List.dropLast_concat]

theorem stripTerminator_of_not_mem {line : Bytes} (free : lf ∉ line) :
    stripTerminator line = dropTrailing cr line := by
  rw [stripTerminator, dropTrailing.eq_def lf,
    if_neg fun last => free (List.mem_of_getLast? last)]

theorem concat_lf_ne (body : Bytes) : body ++ [lf] ≠ [cr] := by
  intro same
  have last := congrArg List.getLast? same
  rw [List.getLast?_concat] at last
  exact absurd last (by decide)

/-- A carriage return that is a line of its own is the last line. -/
theorem Physical.eq_nil_of_cr {line : Bytes} {later : List Bytes}
    (physical : Physical (line :: later)) (alone : line = [cr]) : later = [] := by
  cases physical with
  | last => rfl
  | cons => exact absurd alone (concat_lf_ne _)

/-- A physical line is taken for blank if it holds a line end only, or a carriage return only. -/
theorem isEmpty_stripTerminator_iff {line : Bytes} {later : List Bytes}
    (physical : Physical (line :: later)) :
    line.stripTerminator.isEmpty = true ↔ line.withoutLineEnd = [] ∨ line = [cr] := by
  rw [List.isEmpty_iff]
  cases physical with
  | last nonempty free =>
      rw [stripTerminator_of_not_mem free, withoutLineEnd_of_not_mem free]
      constructor
      · exact eq_of_dropTrailing_eq_nil
      · rintro (rfl | rfl)
        · rfl
        · rfl
  | cons free rest =>
      rw [stripTerminator_concat, withoutLineEnd_concat]
      exact ⟨.inl, fun either => either.resolve_right (concat_lf_ne _)⟩

end Bytes

namespace Scan

variable {d : Dialect} {scan : Scan} {taken : Bytes}

/-- Lists with a separator between them, the last one apart. -/
theorem intercalate_concat (separator : UInt8) (closed : List Bytes) (last : Bytes) :
    [separator].intercalate (closed ++ [last]) =
      closed.flatMap (· ++ [separator]) ++ last := by
  induction closed with
  | nil => simp
  | cons first later ih =>
      cases later with
      | nil => simp [List.intercalate]
      | cons next more =>
          rw [List.cons_append, List.cons_append, List.intercalate_cons_cons, ← List.cons_append,
            ih]
          simp only [List.flatMap_cons, List.append_assoc]

/-- The fields of a scan that no quote has touched spell what was taken: with delimiters between
them they are the bytes, and none of them holds a delimiter. -/
structure Spells (d : Dialect) (scan : Scan) (taken : Bytes) : Prop where
  unquoted : scan.state = .fieldStart ∨ scan.state = .unquoted
  joined : [d.delimiter].intercalate scan.fields = taken
  apart : ∀ field ∈ scan.fields, d.delimiter ∉ field

namespace Spells

theorem fresh (d : Dialect) : Spells d {} [] where
  unquoted := .inl rfl
  joined := rfl
  apart := by
    intro field member
    obtain rfl := List.mem_singleton.mp member
    exact List.not_mem_nil

theorem isOpen_eq_false (spells : scan.Spells d taken) : scan.isOpen = false := by
  unfold isOpen
  rcases spells.unquoted with state | state <;> rw [state] <;> rfl

theorem fields_eq (scan : Scan) : scan.fields = scan.closed.reverse ++ [scan.field.reverse] :=
  List.reverse_cons ..

/-- A byte that is no quote is spelled as it stands. -/
theorem step (spells : scan.Spells d taken) {b : UInt8} (notQuote : b ≠ d.quote) :
    (scan.step d b).Spells d (taken ++ [b]) := by
  obtain ⟨unquoted, joined, apart⟩ := spells
  rw [fields_eq, intercalate_concat] at joined
  rw [fields_eq] at apart
  by_cases delimits : b = d.delimiter
  · -- The current field is closed, and an empty one is begun.
    subst delimits
    have stepped : scan.step d d.delimiter =
        ⟨.fieldStart, [], scan.field.reverse :: scan.closed⟩ := by
      rcases unquoted with state | state <;>
        simp [Scan.step, closes, close, FieldState.next, state]
    rw [stepped]
    constructor
    · exact .inl rfl
    · rw [fields_eq, intercalate_concat, List.reverse_cons, List.flatMap_append,
        List.flatMap_singleton, List.reverse_nil, List.append_nil, ← List.append_assoc, joined]
    · intro field member
      rw [fields_eq, List.reverse_cons] at member
      rcases List.mem_append.mp member with earlier | last
      · exact apart field earlier
      · obtain rfl := List.mem_singleton.mp last
        exact List.not_mem_nil
  · -- The byte goes to the current field.
    have stepped : scan.step d b = ⟨.unquoted, b :: scan.field, scan.closed⟩ := by
      rcases unquoted with state | state <;>
        simp [Scan.step, closes, keeps, push, FieldState.next, state, delimits, notQuote]
    rw [stepped]
    constructor
    · exact .inr rfl
    · rw [fields_eq, intercalate_concat, List.reverse_cons, ← List.append_assoc, joined]
    · intro field member
      rw [fields_eq, List.reverse_cons] at member
      rcases List.mem_append.mp member with earlier | last
      · exact apart field (List.mem_append_left _ earlier)
      · obtain rfl := List.mem_singleton.mp last
        have current := apart scan.field.reverse (by simp)
        simpa [Ne.symm delimits] using current

/-- Bytes in front of others are spelled as they stand, unless the record ends between them. -/
theorem line_front (spells : scan.Spells d taken) {body : Bytes} (later : Bytes)
    (free : d.quote ∉ body) (unended : Bytes.lf ∉ body)
    (apart : body.getLast? = some Bytes.cr → later.head? ≠ some Bytes.lf) :
    ∃ after : Scan, after.Spells d (taken ++ body) ∧
      scan.line d (body ++ later) = after.line d later := by
  induction body generalizing scan taken with
  | nil =>
      refine ⟨scan, ?_, rfl⟩
      rw [List.append_nil]
      exact spells
  | cons b rest ih =>
      have notLf : b ≠ Bytes.lf := (List.ne_of_not_mem_cons unended).symm
      have behind : Bytes.lf ∉ rest := List.not_mem_of_not_mem_cons unended
      have goesOn : endsRecord b (rest ++ later) = false := by
        cases rest with
        | nil =>
            have free : b = Bytes.cr → later.head? ≠ some Bytes.lf := fun same =>
              apart (congrArg some same)
            simpa [endsRecord, notLf] using free
        | cons next more =>
            have other : next ≠ Bytes.lf := (List.ne_of_not_mem_cons behind).symm
            simp [endsRecord, notLf, other]
      have last : rest.getLast? = some Bytes.cr → later.head? ≠ some Bytes.lf := by
        intro ends
        apply apart
        rw [List.getLast?_cons, ends]
        rfl
      obtain ⟨after, spelled, same⟩ := ih (spells.step (List.ne_of_not_mem_cons free).symm)
        (List.not_mem_of_not_mem_cons free) behind last
      refine ⟨after, ?_, ?_⟩
      · rw [List.append_cons]
        exact spelled
      · rw [List.cons_append, Scan.line, if_neg (by simp [goesOn]), same]

theorem line_end (spells : scan.Spells d taken) {b : UInt8} {later : Bytes}
    (ends : endsRecord b later = true) : scan.line d (b :: later) = scan := by
  have outside : scan.state ≠ .quoted := by
    rcases spells.unquoted with state | state <;> simp [state]
  rw [Scan.line, if_pos ⟨outside, ends⟩]

/-- A physical line is spelled up to its line end. -/
theorem line (spells : scan.Spells d taken) {line : Bytes} {later : List Bytes}
    (physical : Bytes.Physical (line :: later)) (free : d.quote ∉ line) :
    (scan.line d line).Spells d (taken ++ line.withoutLineEnd) := by
  cases physical with
  | last nonempty unended =>
      obtain ⟨after, spelled, same⟩ := spells.line_front [] free unended (by simp)
      rw [List.append_nil] at same
      rw [same, Bytes.withoutLineEnd_of_not_mem unended]
      exact spelled
  | @cons body unended _ rest =>
      have free : d.quote ∉ body := fun member => free (List.mem_append_left _ member)
      rw [Bytes.withoutLineEnd_concat, Bytes.dropTrailing]
      split
      · -- The line ends in a carriage return and a line feed.
        rename_i ends
        obtain ⟨inner, rfl⟩ := List.getLast?_eq_some_iff.mp ends
        rw [List.dropLast_concat, List.append_assoc]
        obtain ⟨after, spelled, same⟩ := spells.line_front [Bytes.cr, Bytes.lf]
          (fun member => free (List.mem_append_left _ member))
          (fun member => unended (List.mem_append_left _ member)) (fun _ => by decide)
        have stops : endsRecord Bytes.cr [Bytes.lf] = true := rfl
        rw [List.singleton_append, same, spelled.line_end stops]
        exact spelled
      · rename_i other
        obtain ⟨after, spelled, same⟩ := spells.line_front [Bytes.lf] free unended
          (fun ends => absurd ends other)
        have stops : endsRecord Bytes.lf [] = true := rfl
        rw [same, spelled.line_end stops]
        exact spelled

end Spells

end Scan

namespace Decoder

variable {d : Dialect}

theorem cutFirst_of_not_mem {first : Bytes} (free : d.quote ∉ first) (later : List Bytes) :
    cutFirst d first later = ([first], later) := by
  unfold cutFirst
  split
  · rfl
  · have closed : (Scan.line d {} first).isOpen = false :=
      Scan.isOpen_line_of_not_mem (by simp) free
    cases later <;> simp [Scan.cut, closed]

/-- A line without quotes is blank, or a row of the fields that it spells. -/
theorem item_of_not_mem {segment : Bytes} {later : List Bytes}
    (physical : Bytes.Physical (segment :: later)) (free : d.quote ∉ segment) (line offset : Nat) :
    (segment.withoutLineEnd = [] ∨ segment = [Bytes.cr]) ∧
        Extent.item d line offset [segment] = .ok .blank ∨
      ¬(segment.withoutLineEnd = [] ∨ segment = [Bytes.cr]) ∧
        ∃ fields, Extent.item d line offset [segment] = .ok (.row ⟨fields, line⟩) ∧
          [d.delimiter].intercalate fields = segment.withoutLineEnd ∧
          ∀ field ∈ fields, d.delimiter ∉ field := by
  rw [← Bytes.isEmpty_stripTerminator_iff physical]
  unfold Extent.item
  by_cases blank : segment.stripTerminator.isEmpty = true
  · exact .inl ⟨blank, if_pos blank⟩
  · have spelled := (Scan.Spells.fresh d).line physical free
    refine .inr ⟨blank, (Scan.line d {} segment).fields, ?_, spelled.joined, spelled.apart⟩
    have ended : (Scan.across d {} [segment]).ended line offset =
        .ok ⟨(Scan.line d {} segment).fields, line⟩ := by
      change (Scan.line d {} segment).ended line offset = _
      rw [Scan.ended, spelled.isOpen_eq_false]
      rfl
    rw [List.headD_cons, if_neg blank, ended]
    rfl

theorem nextRaw_of_not_mem {bytes : Bytes} (free : d.quote ∉ bytes) {firstLine n : Nat}
    (more : ((ofBytes bytes firstLine).afterCalls d n).offset < bytes.length) :
    let before := (ofBytes bytes firstLine).afterCalls d n
    ∃ segment later, Bytes.Physical (segment :: later) ∧ d.quote ∉ segment ∧
      bytes.drop before.offset = segment ++ later.flatten ∧
      before.nextRaw d = (some (Extent.item d before.line before.offset [segment]),
        atLines later (before.line + 1) (before.offset + segment.length)) := by
  obtain ⟨front, rest, are, -, physical, flat, behind, -⟩ :=
    afterCalls_ofBytes d bytes firstLine n
  rw [behind] at more ⊢
  have size : bytes.length = front.flatten.flatten.length + rest.flatten.flatten.length := by
    rw [flat, List.length_append]
  cases rest with
  | nil => exact absurd (size ▸ more) (Nat.lt_irrefl _)
  | cons extent others =>
      obtain ⟨⟨first, lines, rfl, cut⟩, -⟩ := are.right.uncons
      have bytesOfFirst : d.quote ∉ first := by
        intro member
        apply free
        rw [flat, List.flatten_cons, List.cons_append, List.flatten_cons]
        exact List.mem_append_right _ (List.mem_append_left _ member)
      have single := cutFirst_of_not_mem bytesOfFirst (lines ++ others.flatten)
      obtain rfl : [] = lines := (List.cons.inj (Prod.mk.inj (single.symm.trans cut)).1).2
      refine ⟨first, others.flatten, physical.right, bytesOfFirst, ?_, ?_⟩
      · change bytes.drop front.flatten.flatten.length = _
        rw [flat, List.drop_left]
        rfl
      · rw [List.flatten_cons, List.singleton_append, nextRaw_lines,
          cutFirst_of_not_mem bytesOfFirst]
        simp [Extent.bytes, atLines]

/-- Without quotes decoding drops nothing but line ends.  As long as bytes are left, a call takes
a segment, which is one line, and yields a row whose fields with delimiters between them are the
segment without its line end, or a blank line if that is nothing.  A carriage return that stands
alone on the last line is taken for a blank line too; everywhere else it is kept. -/
theorem calls_withoutQuotes {d : Dialect} (accepted : d.Accepted) {text : String}
    (free : d.quote ∉ Utf8.encode text) (firstLine n : Nat) :
    let bytes := Utf8.encode text
    let before := (ofBytes bytes firstLine).afterCalls d n
    let after := (ofBytes bytes firstLine).afterCalls d (n + 1)
    let segment : Bytes := (bytes.drop before.offset).take (after.offset - before.offset)
    let item := (ofBytes bytes firstLine).nthCall d n
    (item = none ↔ before.offset = bytes.length) ∧
    (before.offset < bytes.length →
      segment ≠ [] ∧
      (item = some (.ok .blank) ↔ segment.withoutLineEnd = [] ∨ segment = [Bytes.cr]) ∧
      (segment = [Bytes.cr] → after.offset = bytes.length) ∧
      (item ≠ some (.ok .blank) → ∃ fields : List String,
        item = some (.ok (.row ⟨fields, before.line⟩)) ∧
        [d.delimiter].intercalate (fields.map Utf8.encode) = segment.withoutLineEnd ∧
        ∀ field ∈ fields, d.delimiter ∉ Utf8.encode field)) := by
  intro bytes before after segment item
  have taken (more : before.offset < bytes.length) := nextRaw_of_not_mem free more
  have raw : item = (before.nextRaw d).1.map asText := nthCall_eq ..
  refine ⟨⟨fun nothing => ?_, fun ended => ?_⟩, fun more => ?_⟩
  · by_contra other
    have within := offset_le_length d bytes firstLine n
    obtain ⟨_, _, _, _, _, called⟩ := taken (Nat.lt_of_le_of_ne within other)
    rw [raw, called] at nothing
    cases nothing
  · cases found : item with
    | none => rfl
    | some yielded => exact absurd (offset_lt_of_nthCall found) (Nat.not_lt.mpr ended.ge)
  · obtain ⟨line, later, physical, unquoted, behind, called⟩ := taken more
    have offset : after.offset = before.offset + line.length := by
      change ((ofBytes bytes firstLine).afterCalls d (n + 1)).offset = _
      rw [afterCalls_succ]
      exact congrArg (·.2.offset) called
    have isLine : segment = line := by
      change (bytes.drop before.offset).take (after.offset - before.offset) = line
      rw [offset, Nat.add_sub_cancel_left, behind, List.take_left]
    have nonempty : line ≠ [] := physical.ne_nil (List.mem_cons_self ..)
    have last (alone : line = [Bytes.cr]) : after.offset = bytes.length := by
      have rest : bytes.length - before.offset = line.length + later.flatten.length := by
        rw [← List.length_drop, behind, List.length_append]
      rw [physical.eq_nil_of_cr alone, List.flatten_nil, List.length_nil] at rest
      omega
    rw [isLine]
    rw [called] at raw
    rcases item_of_not_mem physical unquoted before.line before.offset with
      ⟨isBlank, read⟩ | ⟨notBlank, fields, read, joined, apart⟩
    · rw [read] at raw
      exact ⟨nonempty, ⟨fun _ => isBlank, fun _ => raw⟩, last, fun other => absurd raw other⟩
    · have collected : (ofBytes bytes firstLine).nthRaw d n =
          some (.ok (.row ⟨fields, before.line⟩)) := by
        rw [nthRaw, called, read]
      obtain ⟨texts, same, isRow, -⟩ :=
        keepsCharacters_ofBytes accepted text.toList firstLine n _ collected
      change item = _ at isRow
      change fields = texts.map Utf8.encode at same
      refine ⟨nonempty, ⟨fun blank => ?_, fun either => absurd either notBlank⟩, last,
        fun _ => ⟨texts, isRow, ?_, fun field member => ?_⟩⟩
      · cases isRow.symm.trans blank
      · rw [← same, joined]
      · apply apart
        rw [same]
        exact List.mem_map_of_mem member

/-- Carriage returns inside a field and in front of a line end, of which only the last one goes. -/
theorem calls_withoutQuotes_carriageReturns :
    let bytes := Utf8.encode "a\rb,\r\r\nc"
    Dialect.Accepted {} ∧ (34 : UInt8) ∉ bytes ∧ ∃ fields : List String,
      (ofBytes bytes 1).nthCall {} 0 = some (.ok (.row ⟨fields, 1⟩)) ∧
      [44].intercalate (fields.map Utf8.encode) = Utf8.encode "a\rb,\r" ∧
      ∀ field ∈ fields, 44 ∉ Utf8.encode field := by
  intro bytes
  have free : (34 : UInt8) ∉ bytes := by decide
  have literal : bytes = [97, 13, 98, 44, 13, 13, 10, 99] := by decide
  have segment : (bytes.drop ((ofBytes bytes 1).afterCalls {} 0).offset).take
      (((ofBytes bytes 1).afterCalls {} 1).offset -
        ((ofBytes bytes 1).afterCalls {} 0).offset) = [97, 13, 98, 44, 13, 13, 10] := by
    rw [literal]
    decide +kernel
  obtain ⟨-, blank, -, row⟩ :=
    (calls_withoutQuotes Dialect.accepted_default free 1 0).2 (by decide)
  have notBlank : (ofBytes bytes 1).nthCall {} 0 ≠ some (.ok .blank) := by
    intro found
    have either := blank.mp found
    rw [segment] at either
    revert either
    decide
  obtain ⟨fields, read, joined, apart⟩ := row notBlank
  rw [segment] at joined
  have body : Utf8.encode "a\rb,\r" = [97, 13, 98, 44, 13] := by decide
  rw [body]
  exact ⟨Dialect.accepted_default, free, fields, read, joined, apart⟩

/-- A carriage return is data at the end of a line, but on a last line of its own it is taken for
a line end, and the record is lost. -/
theorem calls_withoutQuotes_lastCarriageReturn :
    let alone := Utf8.encode "\r"
    let behind := Utf8.encode "a\r"
    (ofBytes alone 1).nthCall {} 0 = some (.ok .blank) ∧
      ((ofBytes alone 1).afterCalls {} 1).offset = alone.length ∧
      Bytes.withoutLineEnd alone = alone ∧ alone = [Bytes.cr] ∧
      (ofBytes behind 1).nthCall {} 0 = some (.ok (.row ⟨["a\r"], 1⟩)) := by
  intro alone behind
  have bytes : alone = [13] ∧ behind = [97, 13] := by decide
  rw [bytes.1, bytes.2]
  exact ⟨by decide +kernel, by decide +kernel, rfl, rfl, by decide +kernel⟩

end Decoder

end CsvImport

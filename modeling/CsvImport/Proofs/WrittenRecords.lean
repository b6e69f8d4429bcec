import CsvImport.Proofs.Reading
import CsvImport.Proofs.TextBytes

/-!
# Written records

A record is written field by field, each raw or between quotes.  The scan reads back what
the fields hold, whatever bytes these are, and the lines of a record are one extent.
-/

namespace CsvImport

inductive LineEnd where
  | lf
  | crlf
deriving DecidableEq, Repr

namespace LineEnd

def bytes : LineEnd → Bytes
  | lf => [Bytes.lf]
  | crlf => [Bytes.cr, Bytes.lf]

/-- What stands behind a record: a line end, or nothing where the input ends. -/
def close (ending : Option LineEnd) : Bytes :=
  ending.elim [] bytes

end LineEnd

/-! ## Scans inside a record -/

namespace Scan

/-- The scan takes the bytes without a chance for the record to end among them. -/
inductive Takes (d : Dialect) : Scan → Bytes → Scan → Prop where
  | nil (scan : Scan) : Takes d scan [] scan
  | cons {scan after : Scan} {b : UInt8} {more : Bytes}
      (inside : scan.state = .quoted ∨ b ≠ Bytes.lf ∧ b ≠ Bytes.cr)
      (rest : Takes d (scan.step d b) more after) : Takes d scan (b :: more) after

section

variable {d : Dialect} {scan between after : Scan} {front back : Bytes}

theorem Takes.append (former : Takes d scan front between) (latter : Takes d between back after) :
    Takes d scan (front ++ back) after := by
  induction former with
  | nil => exact latter
  | cons inside rest ih => exact .cons inside (ih latter)

theorem Takes.single {b : UInt8} (inside : scan.state = .quoted ∨ b ≠ Bytes.lf ∧ b ≠ Bytes.cr) :
    Takes d scan [b] (scan.step d b) :=
  .cons inside (.nil _)

/-- A line goes on behind a byte that cannot end the record. -/
theorem line_cons {b : UInt8} (inside : scan.state = .quoted ∨ b ≠ Bytes.lf ∧ b ≠ Bytes.cr)
    (later : Bytes) : scan.line d (b :: later) = (scan.step d b).line d later := by
  rw [line, if_neg]
  rintro ⟨outside, ends⟩
  rcases inside with quoted | ⟨notLf, notCr⟩
  · exact outside quoted
  · simp [endsRecord, notLf, notCr] at ends

theorem isOpen_step_lf (accepted : d.Accepted) (quoted : scan.state = .quoted) :
    (scan.step d Bytes.lf).isOpen = true := by
  unfold isOpen
  rw [step_state, quoted, FieldState.next, if_neg accepted.quote_ne_lf.symm]
  rfl

/-- What stands behind a record is not taken. -/
theorem line_close (closed : scan.isOpen = false) (ending : Option LineEnd) :
    (Bytes.lines (LineEnd.close ending)).tail = [] ∧
      scan.line d ((Bytes.lines (LineEnd.close ending)).headD []) = scan := by
  have outside : scan.state ≠ .quoted := by simpa [isOpen] using closed
  rcases ending with _ | _ | _
  · exact ⟨rfl, rfl⟩
  · exact ⟨rfl, if_pos ⟨outside, rfl⟩⟩
  · exact ⟨rfl, if_pos ⟨outside, rfl⟩⟩

/-- Bytes that are taken are cut off whole, with every line that they hold. -/
theorem Takes.cut (accepted : d.Accepted) {bytes : Bytes} (takes : Takes d scan bytes after)
    (closed : after.isOpen = false) (ending : Option LineEnd) :
    let lines := Bytes.lines (bytes ++ LineEnd.close ending)
    let first := scan.line d (lines.headD [])
    first.cut d lines.tail = (lines.tail, []) ∧ first.across d lines.tail = after := by
  induction takes with
  | nil scan =>
      obtain ⟨none, same⟩ := line_close (d := d) closed ending
      simp only [List.nil_append, none, same]
      exact ⟨rfl, rfl⟩
  | @cons scan after b more inside rest ih =>
      have later := ih closed
      -- A line feed can only stand between quotes, so the record goes on on the next line; any
      -- other byte belongs to the first line of what follows it.
      by_cases isLf : b = Bytes.lf
      · subst isLf
        have quoted : scan.state = .quoted := inside.resolve_right fun free => free.1 rfl
        have opened := isOpen_step_lf accepted quoted
        rw [List.cons_append, Bytes.lines_cons_lf]
        simp only [List.headD_cons, List.tail_cons, line_cons inside]
        generalize Bytes.lines (more ++ LineEnd.close ending) = lines at later ⊢
        cases lines with
        | nil =>
            obtain rfl : scan.step d Bytes.lf = after := later.2
            exact absurd opened (Bool.eq_false_iff.mp closed)
        | cons next others =>
            obtain ⟨cut, same⟩ := later
            change (scan.step d Bytes.lf).cut d (next :: others) = _ ∧ _
            rw [Scan.cut, if_pos opened]
            simp only [List.headD_cons, List.tail_cons] at cut same
            rw [cut]
            exact ⟨rfl, same⟩
      · rw [List.cons_append, Bytes.lines_cons_ne isLf]
        simp only [List.headD_cons, List.tail_cons, line_cons inside]
        exact later

end

end Scan

/-! ## Records as they are written -/

/-- A field, and whether it is written between quotes. -/
structure WrittenField where
  text : String
  quoted : Bool
deriving DecidableEq, Repr

namespace WrittenField

/-- A byte of a field between quotes: a quote is doubled. -/
def inner (d : Dialect) (b : UInt8) : Bytes :=
  if b = d.quote then [b, b] else [b]

def bytes (d : Dialect) (field : WrittenField) : Bytes :=
  if field.quoted then d.quote :: ((Utf8.encode field.text).flatMap (inner d) ++ [d.quote])
  else Utf8.encode field.text

/-- Content that can be written without quotes. -/
structure Bare (d : Dialect) (content : Bytes) : Prop where
  inside : ∀ b ∈ content, b ≠ Bytes.lf ∧ b ≠ Bytes.cr ∧ b ≠ d.delimiter
  unquoted : content.head? ≠ some d.quote

instance (d : Dialect) (content : Bytes) : Decidable (Bare d content) :=
  decidable_of_iff
    ((content.all fun b => b ≠ Bytes.lf ∧ b ≠ Bytes.cr ∧ b ≠ d.delimiter) = true ∧
      content.head? ≠ some d.quote)
    ⟨fun both => ⟨by simpa using both.1, both.2⟩,
      fun bare => ⟨by simpa using bare.inside, bare.unquoted⟩⟩

end WrittenField

/-- The fields of a record as they are written. -/
abbrev WrittenRecord := List WrittenField

namespace WrittenRecord

def texts (record : WrittenRecord) : List String :=
  record.map (·.text)

def bytes (d : Dialect) (record : WrittenRecord) : Bytes :=
  [d.delimiter].intercalate (record.map (·.bytes d))

/-- A record that is read for what it is: no field needs quotes that has none, and the record
is no blank line. -/
structure Renders (d : Dialect) (record : WrittenRecord) : Prop where
  nonempty : record ≠ []
  bare : ∀ field ∈ record, field.quoted = false → WrittenField.Bare d (Utf8.encode field.text)
  visible : record ≠ [⟨"", false⟩]

instance (d : Dialect) (record : WrittenRecord) : Decidable (record.Renders d) :=
  decidable_of_iff
    (record ≠ [] ∧
      (∀ field ∈ record,
        field.quoted = false → WrittenField.Bare d (Utf8.encode field.text)) ∧
      record ≠ [⟨"", false⟩])
    ⟨fun all => ⟨all.1, all.2.1, all.2.2⟩,
      fun renders => ⟨renders.nonempty, renders.bare, renders.visible⟩⟩

theorem bytes_singleton (d : Dialect) (field : WrittenField) :
    bytes d [field] = field.bytes d := by
  simp [bytes]

theorem bytes_cons (d : Dialect) (field next : WrittenField) (more : WrittenRecord) :
    bytes d (field :: next :: more) =
      field.bytes d ++ ([d.delimiter] ++ bytes d (next :: more)) := by
  simp [bytes, List.intercalate]

end WrittenRecord

namespace Scan

section

variable {d : Dialect} {content : Bytes}

theorem step_unquoted {b : UInt8} (apart : b ≠ d.delimiter) (field : Bytes)
    (closed : List Bytes) :
    step d ⟨.unquoted, field, closed⟩ b = ⟨.unquoted, b :: field, closed⟩ := by
  simp [step, closes, keeps, push, FieldState.next, apart]

theorem takes_unquoted
    (inside : ∀ b ∈ content, b ≠ Bytes.lf ∧ b ≠ Bytes.cr ∧ b ≠ d.delimiter) (field : Bytes)
    (closed : List Bytes) :
    Takes d ⟨.unquoted, field, closed⟩ content
      ⟨.unquoted, content.reverse ++ field, closed⟩ := by
  induction content generalizing field with
  | nil => exact .nil _
  | cons b more ih =>
      obtain ⟨notLf, notCr, apart⟩ := inside b (List.mem_cons_self ..)
      refine .cons (.inr ⟨notLf, notCr⟩) ?_
      rw [step_unquoted apart, List.reverse_cons, List.append_assoc]
      exact ih (fun other member => inside other (List.mem_cons_of_mem b member)) _

/-- A field without quotes is read as it stands. -/
theorem takes_bare (bare : WrittenField.Bare d content) (closed : List Bytes) :
    ∃ state, state ≠ .quoted ∧
      Takes d { closed } content ⟨state, content.reverse, closed⟩ := by
  cases content with
  | nil => exact ⟨.fieldStart, by simp, .nil _⟩
  | cons b more =>
      obtain ⟨notLf, notCr, apart⟩ := bare.inside b (List.mem_cons_self ..)
      have notQuote : b ≠ d.quote := fun same => bare.unquoted (congrArg some same)
      have first : step d { closed } b = ⟨.unquoted, [b], closed⟩ := by
        simp [step, closes, keeps, push, FieldState.next, apart, notQuote]
      refine ⟨.unquoted, by simp, .cons (.inr ⟨notLf, notCr⟩) ?_⟩
      rw [first, List.reverse_cons]
      exact takes_unquoted
        (fun other member => bare.inside other (List.mem_cons_of_mem b member)) _ _

/-- One byte between quotes is read, a doubled quote as one. -/
theorem takes_inner (accepted : d.Accepted) (b : UInt8) (field : Bytes) (closed : List Bytes) :
    Takes d ⟨.quoted, field, closed⟩ (WrittenField.inner d b) ⟨.quoted, b :: field, closed⟩ := by
  have apart := accepted.delimiter_ne_quote.symm
  unfold WrittenField.inner
  split
  · rename_i isQuote
    subst isQuote
    have first : step d ⟨.quoted, field, closed⟩ d.quote = ⟨.quoteInQuoted, field, closed⟩ := by
      simp [step, closes, keeps, FieldState.next]
    have second : step d ⟨.quoteInQuoted, field, closed⟩ d.quote =
        ⟨.quoted, d.quote :: field, closed⟩ := by
      simp [step, closes, keeps, push, FieldState.next, apart]
    refine .cons (.inl rfl) ?_
    rw [first, ← second]
    exact .single (.inr ⟨accepted.quote_ne_lf, accepted.quote_ne_cr⟩)
  · rename_i notQuote
    have only : step d ⟨.quoted, field, closed⟩ b = ⟨.quoted, b :: field, closed⟩ := by
      simp [step, closes, keeps, push, FieldState.next, notQuote]
    rw [← only]
    exact .single (.inl rfl)

theorem takes_inside (accepted : d.Accepted) (content field : Bytes) (closed : List Bytes) :
    Takes d ⟨.quoted, field, closed⟩ (content.flatMap (WrittenField.inner d))
      ⟨.quoted, content.reverse ++ field, closed⟩ := by
  induction content generalizing field with
  | nil => exact .nil _
  | cons b more ih =>
      rw [List.flatMap_cons, List.reverse_cons, List.append_assoc]
      exact (takes_inner accepted b field closed).append (ih _)

/-- A field between quotes is read with each of its bytes, whatever they are. -/
theorem takes_quoted (accepted : d.Accepted) (content : Bytes) (closed : List Bytes) :
    Takes d { closed } (d.quote :: (content.flatMap (WrittenField.inner d) ++ [d.quote]))
      ⟨.quoteInQuoted, content.reverse, closed⟩ := by
  have apart := accepted.delimiter_ne_quote.symm
  have opens : step d { closed } d.quote = ⟨.quoted, [], closed⟩ := by
    simp [step, closes, keeps, FieldState.next, apart]
  have ends : step d ⟨.quoted, content.reverse, closed⟩ d.quote =
      ⟨.quoteInQuoted, content.reverse, closed⟩ := by
    simp [step, closes, keeps, FieldState.next]
  have inside := takes_inside accepted content [] closed
  rw [List.append_nil] at inside
  refine .cons (.inr ⟨accepted.quote_ne_lf, accepted.quote_ne_cr⟩) ?_
  rw [opens, ← ends]
  exact inside.append (.single (.inl rfl))

theorem takes_field (accepted : d.Accepted) {field : WrittenField}
    (bare : field.quoted = false → WrittenField.Bare d (Utf8.encode field.text))
    (closed : List Bytes) :
    ∃ state, state ≠ .quoted ∧ Takes d { closed } (field.bytes d)
      ⟨state, (Utf8.encode field.text).reverse, closed⟩ := by
  unfold WrittenField.bytes
  cases isQuoted : field.quoted with
  | true => exact ⟨.quoteInQuoted, by simp, takes_quoted accepted _ closed⟩
  | false => exact takes_bare (bare isQuoted) closed

theorem step_delimiter {state : FieldState} (outside : state ≠ .quoted) (field : Bytes)
    (closed : List Bytes) :
    step d ⟨state, field, closed⟩ d.delimiter = { closed := field.reverse :: closed } := by
  cases state with
  | quoted => exact absurd rfl outside
  | _ => simp [step, closes, close, FieldState.next]

theorem takes_record (accepted : d.Accepted) {record : WrittenRecord} (nonempty : record ≠ [])
    (bare : ∀ field ∈ record,
      field.quoted = false → WrittenField.Bare d (Utf8.encode field.text))
    (closed : List Bytes) :
    ∃ after, after.isOpen = false ∧ Takes d { closed } (record.bytes d) after ∧
      after.fields = closed.reverse ++ record.map fun field => Utf8.encode field.text := by
  induction record generalizing closed with
  | nil => exact absurd rfl nonempty
  | cons field more ih =>
      obtain ⟨state, outside, first⟩ :=
        takes_field accepted (bare field (List.mem_cons_self ..)) closed
      cases more with
      | nil =>
          have ended : isOpen ⟨state, (Utf8.encode field.text).reverse, closed⟩ = false := by
            simpa [isOpen] using outside
          refine ⟨_, ended, ?_, ?_⟩
          · rw [WrittenRecord.bytes_singleton]
            exact first
          · simp [fields, close]
      | cons next others =>
          obtain ⟨after, ended, rest, fields⟩ := ih (List.cons_ne_nil _ _)
            (fun other member => bare other (List.mem_cons_of_mem field member))
            (Utf8.encode field.text :: closed)
          have between : Takes d ⟨state, (Utf8.encode field.text).reverse, closed⟩ [d.delimiter]
              { closed := Utf8.encode field.text :: closed } := by
            rw [← List.reverse_reverse (Utf8.encode field.text), ← step_delimiter outside,
              List.reverse_reverse]
            exact .single (.inr ⟨accepted.delimiter_ne_lf, accepted.delimiter_ne_cr⟩)
          refine ⟨after, ended, ?_, ?_⟩
          · rw [WrittenRecord.bytes_cons]
            exact first.append (between.append rest)
          · rw [fields, List.reverse_cons, List.append_assoc]
            rfl

end

end Scan

namespace Bytes

theorem dropTrailing_cons {b last : UInt8} (apart : b ≠ last) (more : Bytes) :
    ∃ rest, dropTrailing last (b :: more) = b :: rest := by
  unfold dropTrailing
  cases more with
  | nil => exact ⟨[], if_neg (by simpa using apart)⟩
  | cons next others =>
      split
      · exact ⟨_, rfl⟩
      · exact ⟨_, rfl⟩

/-- A line is not blank that begins with neither part of a line end. -/
theorem stripTerminator_cons {b : UInt8} (notLf : b ≠ lf) (notCr : b ≠ cr) (more : Bytes) :
    (stripTerminator (b :: more)).isEmpty = false := by
  obtain ⟨shorter, first⟩ := dropTrailing_cons notLf more
  obtain ⟨rest, second⟩ := dropTrailing_cons notCr shorter
  unfold stripTerminator
  rw [first, second]
  rfl

end Bytes

namespace WrittenRecord

variable {d : Dialect} {record : WrittenRecord}

theorem text_eq_of_encode {text : String} (empty : Utf8.encode text = []) : text = "" := by
  have same := Utf8.decodeLossy_encode text
  rw [empty] at same
  exact same.symm

theorem Renders.bytes_cons (renders : record.Renders d) (accepted : d.Accepted) :
    ∃ b more, record.bytes d = b :: more ∧ b ≠ Bytes.lf ∧ b ≠ Bytes.cr := by
  obtain ⟨field, others, rfl⟩ := List.exists_cons_of_ne_nil renders.nonempty
  have begins : field ≠ ⟨"", false⟩ →
      ∃ b more, field.bytes d = b :: more ∧ b ≠ Bytes.lf ∧ b ≠ Bytes.cr := by
    intro visible
    unfold WrittenField.bytes
    cases isQuoted : field.quoted with
    | true => exact ⟨d.quote, _, rfl, accepted.quote_ne_lf, accepted.quote_ne_cr⟩
    | false =>
        have bare := renders.bare field (List.mem_cons_self ..) isQuoted
        simp only [Bool.false_eq_true, ↓reduceIte]
        cases content : Utf8.encode field.text with
        | nil =>
            have empty := text_eq_of_encode content
            obtain ⟨text, quoted⟩ := field
            cases isQuoted
            cases empty
            exact absurd rfl visible
        | cons b more =>
            obtain ⟨notLf, notCr, _⟩ := bare.inside b (by rw [content]; exact List.mem_cons_self ..)
            exact ⟨b, more, rfl, notLf, notCr⟩
  -- An empty field without quotes has no byte of its own: alone it is excluded, and in front of
  -- others the record begins with the delimiter.
  cases others with
  | nil =>
      rw [bytes_singleton]
      exact begins fun same => renders.visible (by rw [same])
  | cons next more =>
      rw [WrittenRecord.bytes_cons]
      by_cases visible : field = ⟨"", false⟩
      · subst visible
        exact ⟨d.delimiter, _, rfl, accepted.delimiter_ne_lf, accepted.delimiter_ne_cr⟩
      · obtain ⟨b, rest, same, free⟩ := begins visible
        rw [same]
        exact ⟨b, _, rfl, free⟩

/-- The lines of a record are an extent, and the record is read from it. -/
theorem Renders.cutFirst (renders : record.Renders d) (accepted : d.Accepted)
    (ending : Option LineEnd) :
    ∃ first more, Bytes.lines (record.bytes d ++ LineEnd.close ending) = first :: more ∧
      Decoder.cutFirst d first more = (first :: more, []) ∧
      ∀ line offset, Extent.item d line offset (first :: more) =
        .ok (.row ⟨record.map fun field => Utf8.encode field.text, line⟩) := by
  obtain ⟨after, closed, takes, fields⟩ :=
    Scan.takes_record accepted renders.nonempty renders.bare []
  obtain ⟨cut, across⟩ := takes.cut accepted closed ending
  obtain ⟨b, rest, begins, notLf, notCr⟩ := renders.bytes_cons accepted
  rw [begins, List.cons_append, Bytes.lines_cons_ne notLf] at cut across ⊢
  simp only [List.headD_cons, List.tail_cons] at cut across
  have visible := Bytes.stripTerminator_cons notLf notCr
    ((Bytes.lines (rest ++ LineEnd.close ending)).headD [])
  refine ⟨_, _, rfl, ?_, fun line offset => ?_⟩
  · unfold Decoder.cutFirst
    rw [visible, if_neg Bool.false_ne_true]
    exact congrArg (fun parts => (_ :: parts.1, parts.2)) cut
  · unfold Extent.item Scan.across
    rw [List.headD_cons, visible, if_neg Bool.false_ne_true, List.foldl_cons]
    change (Scan.ended line offset ((Scan.line d {} _).across d _)).map _ = _
    rw [across, Scan.ended, closed, fields]
    rfl

end WrittenRecord

end CsvImport

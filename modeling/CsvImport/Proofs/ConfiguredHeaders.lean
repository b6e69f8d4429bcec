import CsvImport.Config
import CsvImport.Proofs.HeaderNames
import CsvImport.Proofs.WrittenRecords

/-!
# Configured headers

A configured header is read twice: its first record is parsed behind an optional byte order mark,
and the records of the whole text are counted, the mark included.  Unless a quote follows the mark
at once, both readings find the same records, and the text is accepted exactly if it is one record.
A quote behind the mark opens a field in the first reading only, and then the two may disagree.
-/

namespace CsvImport

namespace Scan

variable {d : Dialect} {first second : Scan}

/-- Scans in the same state go through a line in the same states. -/
theorem state_line (same : first.state = second.state) (line : Bytes) :
    (first.line d line).state = (second.line d line).state := by
  induction line generalizing first second with
  | nil => exact same
  | cons b later ih =>
      unfold Scan.line
      rw [same]
      split
      · exact same
      · exact ih (by rw [step_state, step_state, same])

/-- Scans that are both open or both closed take the same lines and end alike. -/
theorem cut_congr (same : first.isOpen = second.isOpen) (lines : List Bytes) :
    first.cut d lines = second.cut d lines ∧
      (first.across d (first.cut d lines).1).isOpen =
        (second.across d (second.cut d lines).1).isOpen := by
  induction lines generalizing first second with
  | nil => exact ⟨rfl, same⟩
  | cons line later ih =>
      cases opened : second.isOpen with
      | false =>
          rw [opened] at same
          simp only [cut, same, opened, Bool.false_eq_true, ↓reduceIte, across, List.foldl_nil,
            and_self]
      | true =>
          rw [opened] at same
          -- There is only one state in which a quote is open.
          have states : first.state = second.state := by
            rw [(isOpen_iff first).mp same, (isOpen_iff second).mp opened]
          have next : (first.line d line).isOpen = (second.line d line).isOpen :=
            congrArg (· == FieldState.quoted) (state_line states line)
          obtain ⟨taken, ended⟩ := ih next
          simp only [cut, same, opened, ↓reduceIte, across, List.foldl_cons]
          exact ⟨by rw [taken], ended⟩

/-- Behind bytes that are data, a line that does not begin with a quote is open or closed as it is
at the start of a field. -/
theorem isOpen_line_unquoted (unquoted : first.state = .unquoted) {line : Bytes}
    (plain : line.head? ≠ some d.quote) :
    (first.line d line).isOpen = (Scan.line d {} line).isOpen := by
  cases line with
  | nil =>
      change (first.state == FieldState.quoted) = _
      rw [unquoted]
      rfl
  | cons b later =>
      unfold Scan.line
      by_cases ends : endsRecord b later = true
      · rw [if_pos ⟨by rw [unquoted]; decide, ends⟩, if_pos ⟨by decide, ends⟩]
        change (first.state == FieldState.quoted) = _
        rw [unquoted]
        rfl
      · rw [if_neg fun both => ends both.2, if_neg fun both => ends both.2]
        refine congrArg (· == FieldState.quoted) (state_line ?_ later)
        have other : b ≠ d.quote := fun same => plain (congrArg some same)
        rw [step_state, step_state, unquoted]
        simp only [FieldState.next, other, ↓reduceIte]

/-- A byte order mark is data of the first field. -/
theorem line_byteOrderMark (accepted : d.Accepted) (line : Bytes) :
    ∃ marked : Scan, marked.state = .unquoted ∧
      Scan.line d {} (Bytes.byteOrderMark ++ line) = marked.line d line := by
  have apart : ∀ b : UInt8, 128 ≤ b → b ≠ d.delimiter ∧ b ≠ d.quote := by
    rintro b high
    constructor
    · rintro rfl
      exact UInt8.not_lt.mpr high accepted.delimiter_ascii
    · rintro rfl
      exact UInt8.not_lt.mpr high accepted.quote_ascii
  obtain ⟨notDelimiter, notQuote⟩ := apart 0xEF (by decide)
  have second := (apart 0xBB (by decide)).1
  have third := (apart 0xBF (by decide)).1
  refine ⟨((Scan.step d {} 0xEF).step d 0xBB).step d 0xBF, ?_, ?_⟩
  · simp only [step_state, FieldState.next, notDelimiter, notQuote, second, third, ↓reduceIte]
  · change Scan.line d {} (0xEF :: 0xBB :: 0xBF :: line) = _
    rw [line_cons (.inr (by decide)), line_cons (.inr (by decide)), line_cons (.inr (by decide))]

end Scan

/-! ## A byte order mark in front of a record -/

namespace Bytes

/-- A byte order mark belongs to the first line. -/
theorem lines_byteOrderMark {rest first : Bytes} {later : List Bytes}
    (found : rest.lines = first :: later) :
    (byteOrderMark ++ rest).lines = (byteOrderMark ++ first) :: later := by
  change lines (0xEF :: 0xBB :: 0xBF :: rest) = _
  rw [lines_cons_ne (by decide), lines_cons_ne (by decide), lines_cons_ne (by decide), found]
  rfl

/-- The first line begins as the bytes do. -/
theorem head?_line {bytes first : Bytes} {later : List Bytes}
    (found : bytes.lines = first :: later) : first.head? = bytes.head? := by
  have whole : first ++ later.flatten = bytes := by
    rw [← List.flatten_cons, ← found, flatten_lines]
  have nonempty : first ≠ [] :=
    (physical_lines bytes).ne_nil (by rw [found]; exact List.mem_cons_self)
  rw [← whole, List.head?_append_of_ne_nil _ nonempty]

/-- A line with a byte order mark is not blank. -/
theorem not_blank_of_byteOrderMark (line : Bytes) :
    (byteOrderMark ++ line).stripTerminator.isEmpty = false := by
  rw [Bool.eq_false_iff]
  intro blank
  have member : (0xEF : UInt8) ∈ byteOrderMark ++ line := List.mem_cons_self
  rcases eq_of_mem_blank blank member with same | same
  · exact absurd same (by decide)
  · exact absurd same (by decide)

end Bytes

namespace Decoder

variable {d : Dialect} {first : Bytes} {later : List Bytes}

/-- The first extent holds its line and what an open quote adds to it. -/
theorem cutFirst_of_not_blank (notBlank : first.stripTerminator.isEmpty = false) :
    cutFirst d first later =
      (first :: ((Scan.line d {} first).cut d later).1,
        ((Scan.line d {} first).cut d later).2) := by
  unfold cutFirst
  rw [if_neg (by rw [notBlank]; exact Bool.false_ne_true)]

/-- An extent that does not begin with a blank line is a row if no quote stays open. -/
theorem item_of_not_blank (notBlank : first.stripTerminator.isEmpty = false) (line offset : Nat)
    (more : List Bytes) :
    Extent.item d line offset (first :: more) =
      (((Scan.line d {} first).across d more).ended line offset).map .row := by
  unfold Extent.item
  rw [List.headD_cons, if_neg (by rw [notBlank]; exact Bool.false_ne_true)]
  rfl

/-- An extent that is a row does not begin with a blank line, and leaves no quote open. -/
theorem of_asText_row {line offset : Nat} {row : Row String}
    (read : asText ((cutFirst d first later).1.item d line offset) = .ok (.row row)) :
    first.stripTerminator.isEmpty = false ∧
      ((Scan.line d {} first).across d ((Scan.line d {} first).cut d later).1).isOpen = false := by
  have notBlank : first.stripTerminator.isEmpty = false := by
    rw [Bool.eq_false_iff]
    intro blank
    unfold cutFirst Extent.item at read
    rw [if_pos blank, List.headD_cons, if_pos blank] at read
    cases read
  refine ⟨notBlank, ?_⟩
  rw [cutFirst_of_not_blank notBlank, item_of_not_blank notBlank, Scan.ended] at read
  split at read
  · cases read
  · rename_i closed
    exact Bool.eq_false_iff.mpr closed

/-- A byte order mark in front of a line that is not blank and does not begin with a quote leaves
its extent as it is, and makes it a row if it is one. -/
theorem cutFirst_byteOrderMark (accepted : d.Accepted) (plain : first.head? ≠ some d.quote)
    (notBlank : first.stripTerminator.isEmpty = false)
    (closed : ((Scan.line d {} first).across d ((Scan.line d {} first).cut d later).1).isOpen =
      false) :
    ∃ taken left, cutFirst d first later = (first :: taken, left) ∧
      cutFirst d (Bytes.byteOrderMark ++ first) later =
        ((Bytes.byteOrderMark ++ first) :: taken, left) ∧
      ∃ row, Extent.item d 1 0 ((Bytes.byteOrderMark ++ first) :: taken) = .ok (.row row) := by
  obtain ⟨marked, unquoted, same⟩ := Scan.line_byteOrderMark accepted first
  obtain ⟨cut, ended⟩ := Scan.cut_congr (Scan.isOpen_line_unquoted unquoted plain) later
  rw [closed] at ended
  have notBlank' := Bytes.not_blank_of_byteOrderMark first
  refine ⟨_, _, cutFirst_of_not_blank notBlank, ?_, ?_⟩
  · rw [cutFirst_of_not_blank notBlank', same, cut]
  · rw [item_of_not_blank notBlank', same, ← cut, Scan.ended, ended]
    exact ⟨_, rfl⟩

theorem asText_moved (bytes : Nat) (item : Except DecodeError (Item Bytes)) :
    asText (item.mapError (·.moved bytes)) = (asText item).mapError (·.moved bytes) := by
  cases item <;> rfl

/-- A byte order mark in front of a row that does not begin with a quote leaves the items behind
the row as they are, but for the offsets of errors. -/
theorem records_byteOrderMark (accepted : d.Accepted) {rest : Bytes} {row : Row String}
    {more : List (Except DecodeError (Item String))} (plain : rest.head? ≠ some d.quote)
    (found : ((ofBytes rest).records d).1 = .ok (.row row) :: more) :
    ∃ other, ((ofBytes (Bytes.byteOrderMark ++ rest)).records d).1 =
      .ok (.row other) :: more.map (·.mapError (·.moved Bytes.byteOrderMark.length)) := by
  cases lines : rest.lines with
  | nil =>
      rw [records_ofBytes lines, extents_nil] at found
      cases found
  | cons first later =>
      rw [records_ofBytes lines, extents_cons, Extent.items, List.map_cons] at found
      obtain ⟨read, behind⟩ := List.cons.inj found
      have plainLine : first.head? ≠ some d.quote := Bytes.head?_line lines ▸ plain
      obtain ⟨notBlank, closed⟩ := of_asText_row read
      obtain ⟨taken, left, cut, marked, other, isRow⟩ :=
        cutFirst_byteOrderMark accepted plainLine notBlank closed
      rw [cut] at behind
      rw [records_ofBytes (Bytes.lines_byteOrderMark lines), extents_cons, Extent.items,
        List.map_cons, marked, isRow]
      refine ⟨other.map Utf8.decodeLossy, congrArg (_ :: ·) ?_⟩
      have size : 0 + (Extent.bytes ((Bytes.byteOrderMark ++ first) :: taken)).length =
          0 + (Extent.bytes (first :: taken)).length + Bytes.byteOrderMark.length := by
        simp only [Extent.bytes, List.flatten_cons, List.length_append]
        omega
      dsimp only at behind ⊢
      -- The extents behind the first are the same, and start behind the mark as well.
      rw [size, Extent.items_moved, ← behind, List.map_map, List.map_map]
      exact List.map_congr_left fun item _ => asText_moved _ item

end Decoder

namespace Header

/-- A text is parsed as the header that its first record makes. -/
theorem parse_eq_ok_iff {d : Dialect} {bytes : Bytes} {header : Header} :
    parse d bytes = .ok header ↔
      ∃ row more, ((Decoder.ofBytes bytes.afterByteOrderMark).records d).1 =
        .ok (.row row) :: more ∧ header.names = taken d.trimHeader row.fields := by
  have first : ((Decoder.ofBytes bytes.afterByteOrderMark).next d).1 =
      ((Decoder.ofBytes bytes.afterByteOrderMark).records d).1[0]? :=
    Decoder.nthCall_ofBytes d bytes.afterByteOrderMark 1 0
  unfold parse
  rw [first]
  generalize ((Decoder.ofBytes bytes.afterByteOrderMark).records d).1 = items
  rcases items with _ | ⟨e | row | _, more⟩
  · exact ⟨nofun, nofun⟩
  · exact ⟨nofun, nofun⟩
  · refine ofNames_eq_ok_iff.trans ⟨fun same => ⟨row, more, rfl, same⟩, ?_⟩
    rintro ⟨_, _, ⟨⟩, same⟩
    exact same
  · exact ⟨nofun, nofun⟩

end Header

/-! ## Counting records -/

namespace CsvConfig

variable {config : CsvConfig} {d : Dialect} {text : String} {bytes : Bytes} {row : Row String}
  {more : List (Except DecodeError (Item String))}

def isRecord : Except DecodeError (Item String) → Bool
  | .ok item => !item.isBlank
  | .error _ => true

theorem isRecord_eq_false_iff {item : Except DecodeError (Item String)} :
    isRecord item = false ↔ item = .ok .blank := by
  rcases item with e | row | _
  · exact ⟨nofun, nofun⟩
  · exact ⟨nofun, nofun⟩
  · exact ⟨fun _ => rfl, fun _ => rfl⟩

/-- Items without a record are blank lines. -/
theorem countP_isRecord_eq_zero_iff :
    more.countP isRecord = 0 ↔ ∀ item ∈ more, item = .ok .blank := by
  rw [List.countP_eq_zero]
  simp only [Bool.not_eq_true, isRecord_eq_false_iff]

/-- A text that begins with a row holds one record more than there are behind the row, with a byte
order mark in front of it or without one, unless a quote follows the mark. -/
theorem countRecords_of_row (accepted : d.Accepted)
    (plain : ¬Bytes.byteOrderMark ++ [d.quote] <+: bytes)
    (found : ((Decoder.ofBytes bytes.afterByteOrderMark).records d).1 = .ok (.row row) :: more) :
    countRecords d bytes = more.countP isRecord + 1 := by
  change ((Decoder.ofBytes bytes).records d).1.countP isRecord = _
  unfold Bytes.afterByteOrderMark Bytes.byteOrderMarkLength at found
  split at found
  · rename_i marked
    obtain ⟨rest, rfl⟩ := List.isPrefixOf_iff_prefix.mp marked
    rw [List.drop_left] at found
    have behind : rest.head? ≠ some d.quote := by
      intro quoted
      obtain ⟨later, rfl⟩ := List.head?_eq_some_iff.mp quoted
      exact plain ⟨later, by rw [List.append_assoc]; rfl⟩
    obtain ⟨other, items⟩ := Decoder.records_byteOrderMark accepted behind found
    rw [items, List.countP_cons_of_pos rfl, List.countP_map]
    refine congrArg (· + 1) (List.countP_congr fun item _ => ?_)
    cases item <;> exact Iff.rfl
  · rw [List.drop_zero] at found
    rw [found, List.countP_cons_of_pos rfl]

/-- A text that begins with a row holds one record exactly if only blank lines are behind the
row. -/
theorem countRecords_eq_one_iff (accepted : d.Accepted)
    (plain : ¬Bytes.byteOrderMark ++ [d.quote] <+: bytes)
    (found : ((Decoder.ofBytes bytes.afterByteOrderMark).records d).1 = .ok (.row row) :: more) :
    countRecords d bytes = 1 ↔ ∀ item ∈ more, item = .ok .blank := by
  rw [countRecords_of_row accepted plain found, Nat.add_eq_right, countP_isRecord_eq_zero_iff]

/-! ## Reading a configured header -/

/-- A configured header is parsed, and then the records of its text are counted. -/
theorem configuredHeader_eq (dialect : config.dialect = .ok d) (given : config.header = some text) :
    config.configuredHeader =
      match Header.parse d (Utf8.encode text) with
      | .error e => .error (.header e)
      | .ok header =>
          if countRecords d (Utf8.encode text) = 1 then .ok (some header)
          else .error (.headerRecords (countRecords d (Utf8.encode text))) := by
  unfold configuredHeader
  rw [given, dialect]
  simp only [bind, Except.bind]
  cases Header.parse d (Utf8.encode text) <;> rfl

theorem configuredHeader_eq_ok_iff (dialect : config.dialect = .ok d)
    (given : config.header = some text) {header : Header} :
    config.configuredHeader = .ok (some header) ↔
      Header.parse d (Utf8.encode text) = .ok header ∧ countRecords d (Utf8.encode text) = 1 := by
  rw [configuredHeader_eq dialect given]
  cases Header.parse d (Utf8.encode text) with
  | error e => exact ⟨nofun, nofun⟩
  | ok found => by_cases one : countRecords d (Utf8.encode text) = 1 <;> simp [one]

theorem configuredHeader_eq_headerRecords_iff (dialect : config.dialect = .ok d)
    (given : config.header = some text) {count : Nat} :
    config.configuredHeader = .error (.headerRecords count) ↔
      (∃ header, Header.parse d (Utf8.encode text) = .ok header) ∧
        countRecords d (Utf8.encode text) = count ∧ count ≠ 1 := by
  rw [configuredHeader_eq dialect given]
  cases Header.parse d (Utf8.encode text) with
  | error e => exact ⟨nofun, nofun⟩
  | ok found =>
      by_cases one : countRecords d (Utf8.encode text) = 1
      · simp [one, eq_comm]
      · simp only [one, ↓reduceIte]
        constructor
        · rintro ⟨⟩
          exact ⟨⟨found, rfl⟩, rfl, one⟩
        · rintro ⟨-, rfl, -⟩
          rfl

/-- Unless a quote follows its byte order mark, a configured header is accepted exactly if behind
the mark there is one record and then blank lines, and the fields of the record make the header.
It is refused for the number of its records exactly if the first record makes a header and something
else than blank lines is behind it. -/
theorem configuredHeader_oneRecord (dialect : config.dialect = .ok d)
    (given : config.header = some text)
    (plain : ¬Bytes.byteOrderMark ++ [d.quote] <+: Utf8.encode text) :
    let items := ((Decoder.ofBytes (Utf8.encode text).afterByteOrderMark).records d).1
    (∀ header, config.configuredHeader = .ok (some header) ↔
      ∃ row blanks, items = .ok (.row row) :: List.replicate blanks (.ok .blank) ∧
        header.names = Header.taken d.trimHeader row.fields) ∧
    ((∃ count, config.configuredHeader = .error (.headerRecords count)) ↔
      ∃ row more, items = .ok (.row row) :: more ∧
        Header.Valid (Header.taken d.trimHeader row.fields) ∧
        ∃ item ∈ more, item ≠ .ok .blank) := by
  intro items
  have accepted := accepted_of_dialect dialect
  constructor
  · intro header
    rw [configuredHeader_eq_ok_iff dialect given]
    constructor
    · rintro ⟨parsed, one⟩
      obtain ⟨row, more, found, names⟩ := Header.parse_eq_ok_iff.mp parsed
      have blank := (countRecords_eq_one_iff accepted plain found).mp one
      exact ⟨row, more.length, by rw [← List.eq_replicate_of_mem blank]; exact found, names⟩
    · rintro ⟨row, blanks, found, names⟩
      exact ⟨Header.parse_eq_ok_iff.mpr ⟨row, _, found, names⟩,
        (countRecords_eq_one_iff accepted plain found).mpr fun _ => List.eq_of_mem_replicate⟩
  · constructor
    · rintro ⟨count, refused⟩
      obtain ⟨⟨header, parsed⟩, rfl, many⟩ :=
        (configuredHeader_eq_headerRecords_iff dialect given).mp refused
      obtain ⟨row, more, found, names⟩ := Header.parse_eq_ok_iff.mp parsed
      rw [Ne, countRecords_eq_one_iff accepted plain found] at many
      push Not at many
      exact ⟨row, more, found, names ▸ header.valid, many⟩
    · rintro ⟨row, more, found, valid, item, member, other⟩
      have parsed := Header.parse_eq_ok_iff.mpr ⟨row, more, found, Eq.refl (Header.mk _ valid).names⟩
      refine ⟨_, (configuredHeader_eq_headerRecords_iff dialect given).mpr
        ⟨⟨_, parsed⟩, rfl, fun one => ?_⟩⟩
      exact other ((countRecords_eq_one_iff accepted plain found).mp one item member)

/-- A byte order mark, a name of two lines and a blank line. -/
theorem configuredHeader_oneRecord_marked :
    let config : CsvConfig := { header := some "\uFEFFa,\"b\nc\"\n\n" }
    let header : Header := ⟨["a", "b\nc"], by decide, by decide, by decide⟩
    config.dialect = .ok {} ∧
      ¬Bytes.byteOrderMark ++ [34] <+: Utf8.encode "\uFEFFa,\"b\nc\"\n\n" ∧
      config.configuredHeader = .ok (some header) := by
  intro config header
  have dialect : config.dialect = .ok {} := by decide +kernel
  have plain : ¬Bytes.byteOrderMark ++ [34] <+: Utf8.encode "\uFEFFa,\"b\nc\"\n\n" := by decide
  have cut : (Utf8.encode "\uFEFFa,\"b\nc\"\n\n").afterByteOrderMark.lines =
      [Utf8.encode "a,\"b\n", Utf8.encode "c\"\n", Utf8.encode "\n"] := by decide +kernel
  have items : ((Decoder.ofBytes
      (Utf8.encode "\uFEFFa,\"b\nc\"\n\n").afterByteOrderMark).records {}).1 =
        .ok (.row ⟨["a", "b\nc"], 1⟩) :: List.replicate 1 (.ok .blank) := by
    rw [Decoder.records_ofBytes cut]
    decide +kernel
  exact ⟨dialect, plain,
    ((configuredHeader_oneRecord dialect rfl plain).1 header).mpr ⟨_, 1, items, rfl⟩⟩

/-- A quote behind a byte order mark opens a field for the parser only.  A second record is dropped
where the counter takes it for the rest of a quoted field, and a single record of two lines is
refused where the counter ends it with the first line. -/
theorem configuredHeader_quoteBehindMark :
    let dropping : CsvConfig := { header := some "\uFEFF\"a,\"b\nc\"\n" }
    let refused : CsvConfig := { header := some "\uFEFF\"a\nb\"" }
    let header : Header := ⟨["a,b"], by decide, by decide, by decide⟩
    let items (text : String) :=
      ((Decoder.ofBytes (Utf8.encode text).afterByteOrderMark).records {}).1
    dropping.dialect = .ok {} ∧ refused.dialect = .ok {} ∧
      items "\uFEFF\"a,\"b\nc\"\n" =
        [.ok (.row ⟨["a,b"], 1⟩), .ok (.row ⟨["c\""], 2⟩)] ∧
      dropping.configuredHeader = .ok (some header) ∧
      items "\uFEFF\"a\nb\"" = [.ok (.row ⟨["a\nb"], 1⟩)] ∧ Header.Valid ["a\nb"] ∧
      refused.configuredHeader = .error (.headerRecords 2) := by
  intro dropping refused header items
  have commas : dropping.dialect = .ok {} := by decide +kernel
  have commas' : refused.dialect = .ok {} := by decide +kernel
  have valid : Header.Valid ["a\nb"] := ⟨by decide, by decide, by decide⟩
  have droppedLines : (Utf8.encode "\uFEFF\"a,\"b\nc\"\n").afterByteOrderMark.lines =
      [Utf8.encode "\"a,\"b\n", Utf8.encode "c\"\n"] := by decide +kernel
  have countedLines : (Utf8.encode "\uFEFF\"a,\"b\nc\"\n").lines =
      [Utf8.encode "\uFEFF\"a,\"b\n", Utf8.encode "c\"\n"] := by decide +kernel
  have dropped : items "\uFEFF\"a,\"b\nc\"\n" =
      [.ok (.row ⟨["a,b"], 1⟩), .ok (.row ⟨["c\""], 2⟩)] := by
    refine (Decoder.records_ofBytes droppedLines {}).trans ?_
    decide +kernel
  have one : countRecords {} (Utf8.encode "\uFEFF\"a,\"b\nc\"\n") = 1 := by
    refine (congrArg _ (Decoder.records_ofBytes countedLines {})).trans ?_
    decide +kernel
  have singleLines : (Utf8.encode "\uFEFF\"a\nb\"").afterByteOrderMark.lines =
      [Utf8.encode "\"a\n", Utf8.encode "b\""] := by decide +kernel
  have twoLines : (Utf8.encode "\uFEFF\"a\nb\"").lines =
      [Utf8.encode "\uFEFF\"a\n", Utf8.encode "b\""] := by decide +kernel
  have single : items "\uFEFF\"a\nb\"" = [.ok (.row ⟨["a\nb"], 1⟩)] := by
    refine (Decoder.records_ofBytes singleLines {}).trans ?_
    decide +kernel
  have two : countRecords {} (Utf8.encode "\uFEFF\"a\nb\"") = 2 := by
    refine (congrArg _ (Decoder.records_ofBytes twoLines {})).trans ?_
    decide +kernel
  refine ⟨commas, commas', dropped, ?_, single, valid, ?_⟩
  · exact (configuredHeader_eq_ok_iff commas rfl).mpr
      ⟨Header.parse_eq_ok_iff.mpr ⟨_, _, dropped, rfl⟩, one⟩
  · exact (configuredHeader_eq_headerRecords_iff commas' rfl).mpr
      ⟨⟨⟨_, valid⟩, Header.parse_eq_ok_iff.mpr ⟨_, _, single, rfl⟩⟩, two, by decide⟩

end CsvConfig

end CsvImport

import CsvImport.Proofs.Batches
import CsvImport.Proofs.JsonReading
import CsvImport.Proofs.TimeStamps

/-!
# Reading failure records

Every record that was written is read back, whatever its texts hold, and the identity of a chunk
tells which chunk it is.
-/

namespace CsvImport

namespace ChunkId

/-- What stands behind the last separator, and what stands before it. -/
theorem split_last {separator : Char} {front other back behind : List Char}
    (last : separator ∉ back) (otherLast : separator ∉ behind)
    (same : front ++ separator :: back = other ++ separator :: behind) :
    front = other ∧ back = behind := by
  rcases List.append_eq_append_iff.mp same with ⟨more, rfl, shifted⟩ | ⟨more, rfl, shifted⟩
  · cases more with
    | nil => exact ⟨(List.append_nil _).symm, (List.cons.inj shifted).2⟩
    | cons c more =>
        rw [List.cons_append, List.cons.injEq] at shifted
        exact absurd (shifted.2 ▸ List.mem_append_right _ (List.mem_cons_self ..)) last
  · cases more with
    | nil => exact ⟨List.append_nil _, (List.cons.inj shifted).2.symm⟩
    | cons c more =>
        rw [List.cons_append, List.cons.injEq] at shifted
        exact absurd (shifted.2 ▸ List.mem_append_right _ (List.mem_cons_self ..)) otherLast

/-- The written identity, by its separators. -/
theorem toList_text (id : ChunkId) : id.text.toList =
    ((id.source.toList ++ '#' :: (toString id.index).toList) ++
      '@' :: ((toString id.range.start).toList ++ ['.'])) ++
      '.' :: (toString id.range.stop).toList := by
  have hash : "#".toList = ['#'] := by decide
  have sign : "@".toList = ['@'] := by decide
  have dots : "..".toList = ['.', '.'] := by decide
  simp only [text, ByteRange.text, String.toList_append, hash, sign, dots, List.append_assoc,
    List.cons_append, List.nil_append]

/-- Different chunks have different written identities.  The numbers are found from the right,
since no digit is a separator, so that it does not matter what the source is called. -/
theorem text_inj {id other : ChunkId} : id.text = other.text ↔ id = other := by
  refine ⟨fun same => ?_, congrArg text⟩
  have chars := congrArg String.toList same
  rw [toList_text, toList_text] at chars
  have start : ∀ n : Nat, '@' ∉ (toString n).toList ++ ['.'] := by
    intro n member
    rcases List.mem_append.mp member with digit | dot
    · exact Decimal.not_mem_toString (by decide) n digit
    · cases List.mem_singleton.mp dot
  obtain ⟨chars, stops⟩ := split_last (Decimal.not_mem_toString (by decide) id.range.stop)
    (Decimal.not_mem_toString (by decide) other.range.stop) chars
  obtain ⟨chars, starts⟩ := split_last (start id.range.start) (start other.range.start) chars
  obtain ⟨sources, indices⟩ := split_last (Decimal.not_mem_toString (by decide) id.index)
    (Decimal.not_mem_toString (by decide) other.index) chars
  have sameSource := String.toList_injective sources
  have sameIndex := Decimal.toString_inj indices
  have sameStart := Decimal.toString_inj (List.append_cancel_right starts)
  have sameStop := Decimal.toString_inj stops
  obtain ⟨source, index, range⟩ := id
  obtain ⟨source', index', range'⟩ := other
  obtain ⟨first, stop⟩ := range
  obtain ⟨first', stop'⟩ := range'
  cases sameSource
  cases sameIndex
  cases sameStart
  cases sameStop
  rfl

end ChunkId

namespace FailureRecord

def fields (record : FailureRecord) (code : String) : List (String × Json.Value) :=
  [("chunk", .string record.chunk), ("source", .string record.source), ("kind", .string code),
   ("message", .string record.message), ("line", .number (toString record.line)),
   ("timestamp", .string record.time.text)]

/-- The record reads as the value: its members are all there, and the code of its kind is known. -/
def ReadsAs (record : FailureRecord) (value : Json.Value) : Prop :=
  ∃ code, FailureKind.ofCode? code = some record.kind ∧ value = .object (record.fields code)

theorem readsAs_toJson (record : FailureRecord) : record.ReadsAs record.toJson :=
  ⟨record.kind.code, FailureKind.ofCode?_code record.kind, rfl⟩

theorem flat_fields (record : FailureRecord) (code : String) :
    ∀ field ∈ record.fields code, Json.Flat field.2 := by
  intro field listed
  simp only [fields, List.mem_cons, List.not_mem_nil, or_false] at listed
  rcases listed with rfl | rfl | rfl | rfl | rfl | rfl <;> constructor

/-- The records of a batch are read back from its bytes. -/
theorem parseLines?_bytes (records : List FailureRecord) :
    Json.parseLines? (bytes records) = some (records.map toJson) := by
  let members (record : FailureRecord) := record.fields record.kind.code
  have read := Json.parseLines?_objects (records.map members) fun fields listed => by
    obtain ⟨record, _, rfl⟩ := List.mem_map.mp listed
    exact record.flat_fields _
  rw [List.flatMap_map, List.map_map] at read
  exact read

/-- The record on a line, line feed left out. -/
def read? (line : Bytes) : Option FailureRecord :=
  ((Utf8.decode? line).bind Json.parse?).bind ofJson?

/-- The number fits where it is read, and the time is one of the calendar. -/
structure Readable (record : FailureRecord) : Prop where
  line : record.line ≤ Json.Value.maxWord
  time : record.time.Valid

theorem mapM_digit? {digits : List Char} (isDigit : ∀ c ∈ digits, c.isDigit = true) :
    digits.mapM Json.Value.digit? = some (digits.map fun c => c.toNat - '0'.toNat) := by
  induction digits with
  | nil => rfl
  | cons c more ih =>
      have digit : Json.Value.digit? c = some (c.toNat - '0'.toNat) :=
        Decimal.of_isDigit (P := fun c => Json.Value.digit? c = some (c.toNat - '0'.toNat))
          (by decide) (isDigit c (List.mem_cons_self ..))
      have later : ∀ other ∈ more, other.isDigit = true :=
        fun other member => isDigit other (List.mem_cons_of_mem _ member)
      rw [List.mapM_cons, digit, ih later]
      rfl

theorem natOfDigits?_toString (n : Nat) :
    Json.Value.natOfDigits? (toString n).toList = some n := by
  have isDigit := Decimal.isDigit_toString n
  have value := Decimal.ofDigitChars_toString n
  cases shown : (toString n).toList with
  | nil => exact absurd shown (Decimal.toString_ne_nil n)
  | cons c more =>
      rw [shown] at isDigit value
      unfold Json.Value.natOfDigits?
      simp only [mapM_digit? isDigit, Option.bind_eq_bind, Option.bind_some, List.foldl_map]
      exact congrArg some value

theorem ofJson?_toJson {record : FailureRecord} (readable : record.Readable) :
    ofJson? record.toJson = some record := by
  have line : (Json.Value.number (toString record.line)).toNat? = some record.line := by
    unfold Json.Value.toNat?
    simp only [natOfDigits?_toString, Option.bind_eq_bind, Option.bind_some]
    exact if_pos readable.line
  have time := Timestamp.parse?_text readable.time
  have kind := FailureKind.ofCode?_code record.kind
  have entries : Json.entries? members record.toJson = some
      [some (.string record.chunk), some (.string record.source), some (.string record.kind.code),
       some (.string record.message), some (.number (toString record.line)),
       some (.string record.time.text)] := by
    rfl
  unfold ofJson?
  rw [entries]
  simp only [Option.bind_eq_bind, Option.bind_some, line, Json.Value.toText?, Json.choice?, time,
    kind]
  rfl

def encoded (record : FailureRecord) : Bytes :=
  Utf8.encode (Json.render record.toJson)

theorem encode_textLine (record : FailureRecord) :
    Utf8.encode record.textLine = record.encoded ++ [Bytes.lf] :=
  Utf8.encode_append ..

theorem read?_encoded {record : FailureRecord} (readable : record.Readable) :
    read? record.encoded = some record := by
  have read : Json.parse? (Json.render record.toJson ++ "") = some record.toJson :=
    Json.parse?_render (record.flat_fields _) fun c member => absurd member List.not_mem_nil
  rw [String.append_empty] at read
  unfold read? encoded
  rw [Utf8.decode?_encode, Option.bind_some, read, Option.bind_some, ofJson?_toJson readable]

/-- A record has a line of its own, whatever its texts hold. -/
theorem lf_not_mem_encoded (record : FailureRecord) : Bytes.lf ∉ record.encoded := by
  intro inside
  have printed := Utf8.printed_of_mem_encode (fun c => Json.printed_of_mem_object
    fun member listed c => Json.printed_of_mem_flat (record.flat_fields _ member listed)) inside
  exact absurd printed (by decide)

theorem lines_bytes (records : List FailureRecord) :
    (bytes records).lines = records.map fun record => record.encoded ++ [Bytes.lf] := by
  induction records with
  | nil => rfl
  | cons record more ih =>
      rw [bytes, List.flatMap_cons, encode_textLine, List.append_assoc, List.singleton_append,
        Bytes.lines_body record.lf_not_mem_encoded, List.map_cons, ← ih]
      rfl

end FailureRecord

namespace FailureLog

/-- A batch is read back line by line, whatever texts its failures hold: every line but its line
feed is the record of one failure, in order.  The identity in a record tells which chunk failed. -/
theorem flush_readsBack {log after : FailureLog} {opening : Timestamp} {session later : Session}
    {entries : List (Failure × Timestamp)} (stem : log.stem = stemAt opening)
    (stands : log.provider.Stands session.store) (nonempty : entries ≠ [])
    (pending : log.pending = entries.map fun entry => .ofFailure entry.1 entry.2)
    (range : ∀ entry ∈ entries, entry.1.line ≤ Json.Value.maxWord ∧ entry.2.Valid)
    (flushed : log.flush session = (.ok (), after, later)) :
    (∃ (batch : Bytes) (lines : List Bytes),
      log.object? later.store log.batches = some batch ∧
      batch.lines = lines.map (· ++ [Bytes.lf]) ∧ (∀ line ∈ lines, Bytes.lf ∉ line) ∧
      List.Forall₂ (fun line (entry : Failure × Timestamp) =>
        ∃ record, FailureRecord.read? line = some record ∧
          record.chunk = entry.1.chunk.text ∧ record.source = entry.1.chunk.source ∧
          record.kind = entry.1.kind ∧ record.message = entry.1.message ∧
          record.line = entry.1.line ∧ record.time = entry.2) lines entries) ∧
    ∀ id other : ChunkId, id.text = other.text →
      id.source = other.source ∧ id.index = other.index ∧ id.range = other.range := by
  have waits : log.pending ≠ [] := by
    rw [pending]
    simpa using nonempty
  refine ⟨?_, fun id other same => ?_⟩
  · rcases flush_cases rfl rfl (plain_batchName stem) session stands waits with
      ⟨last, done, -, -, objects⟩ | ⟨e, last, failed, -⟩
    · rw [done] at flushed
      cases flushed
      refine ⟨FailureRecord.bytes log.pending, log.pending.map FailureRecord.encoded,
        ?_, ?_, ?_, ?_⟩
      · exact (objects _ (plain_batchName stem log.batches)).trans (if_pos rfl)
      · rw [FailureRecord.lines_bytes, List.map_map]
        rfl
      · intro line listed
        obtain ⟨record, -, rfl⟩ := List.mem_map.mp listed
        exact record.lf_not_mem_encoded
      · rw [pending, List.map_map, List.forall₂_map_left_iff, List.forall₂_same]
        intro entry listed
        have readable : (FailureRecord.ofFailure entry.1 entry.2).Readable :=
          ⟨(range entry listed).1, (range entry listed).2⟩
        have read := FailureRecord.read?_encoded readable
        simp only [Function.comp_apply]
        exact ⟨.ofFailure entry.1 entry.2, read, rfl, rfl, rfl, rfl, rfl, rfl⟩
    · rw [failed] at flushed
      cases flushed
  · obtain rfl := ChunkId.text_inj.mp same
    exact ⟨rfl, rfl, rfl⟩

/-- Sources and messages with separators, quotes and line breaks are read back. -/
theorem flush_readsBack_separators :
    let torn : Failure := {
      chunk := ⟨"memory://a#1@2..3\n.csv", 0, ⟨2, 5⟩⟩, kind := .unterminatedQuote
      message := "a \"quote\"\r\nstays open # @", line := 2 }
    let gone : Failure := {
      chunk := ⟨"memory://a", 1, ⟨2, 3⟩⟩, kind := .io, message := "\u2028", line := 7 }
    let late : Timestamp := { second := 86399, nanos := 1999999999 }
    let log : FailureLog := {
      provider := { location := .memory (some ⟨["log"]⟩) }, stem := stemAt {}
      pending := [.ofFailure torn {}, .ofFailure gone late] }
    ∃ (after : FailureLog) (later : Session) (batch : Bytes) (lines : List Bytes)
        (first second : FailureRecord),
      log.flush {} = (.ok (), after, later) ∧
      log.object? later.store log.batches = some batch ∧
      batch.lines = lines.map (· ++ [Bytes.lf]) ∧
      lines.map FailureRecord.read? = [some first, some second] ∧
      first.message = torn.message ∧ second.source = gone.chunk.source := by
  intro torn gone late log
  have flushed : log.flush {} = (.ok (), (log.flush {}).2.1, (log.flush {}).2.2) :=
    Prod.ext rfl rfl
  have stem : log.stem = stemAt {} := rfl
  have stands : log.provider.Stands ({} : Session).store := trivial
  have range : ∀ entry ∈ [(torn, ({} : Timestamp)), (gone, late)],
      entry.1.line ≤ Json.Value.maxWord ∧ entry.2.Valid := by
    intro entry listed
    simp only [List.mem_cons, List.not_mem_nil, or_false] at listed
    rcases listed with rfl | rfl
    · exact ⟨by decide, by decide, by decide, by decide⟩
    · exact ⟨by decide, by decide, by decide, by decide⟩
  have pending : log.pending =
      [(torn, ({} : Timestamp)), (gone, late)].map fun entry => .ofFailure entry.1 entry.2 := rfl
  obtain ⟨⟨batch, lines, stored, split, -, read⟩, -⟩ := flush_readsBack stem stands
    (List.cons_ne_nil _ _) pending range flushed
  cases read with
  | @cons one _ _ _ former rest =>
      cases rest with
      | @cons two _ _ _ latter none =>
          obtain ⟨first, readFirst, -, -, -, message, -⟩ := former
          obtain ⟨second, readSecond, -, source, -⟩ := latter
          cases none
          have both : [one, two].map FailureRecord.read? = [some first, some second] := by
            rw [List.map_cons, List.map_cons, readFirst, readSecond, List.map_nil]
          exact ⟨_, _, batch, _, first, second, flushed, stored, split, both, message, source⟩

end FailureLog

end CsvImport

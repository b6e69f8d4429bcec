import CsvImport.Proofs.Calls

/-!
# Interrupted records

A call that fails leaves nothing behind but the input that it did not take and the counts of the
lines that it read whole.  Whatever calls came before, the next one yields what a fresh decoder
yields for the rest of the input, and calling on reports every failure once and ends.
-/

namespace CsvImport

/-! ## Reading through a buffer -/

namespace Buffer

theorem takeRun_append (room : Nat) (signals : List Signal) :
    (takeRun room signals).1.map .byte ++ (takeRun room signals).2 = signals := by
  fun_induction takeRun room signals with
  | case1 room b later run behind found ih =>
      rw [found] at ih
      rw [List.map_cons, List.cons_append, ih]
  | case2 => rfl

/-- A run of bytes continues the line that is being gathered. -/
theorem ofSignalsFrom_run (gathered run : Bytes) (later : List Signal) :
    Delivery.ofSignalsFrom gathered (run.map .byte ++ later) =
      (cut gathered run).1.map .line ++ Delivery.ofSignalsFrom (cut gathered run).2 later := by
  induction run generalizing gathered with
  | nil => rfl
  | cons b run ih =>
      rw [List.map_cons, List.cons_append, Delivery.ofSignalsFrom, cut]
      split
      · rw [ih]
        rfl
      · exact ih _

theorem deliveriesFrom_refills {capacity : Nat} (positive : 0 < capacity) (gathered : Bytes)
    (signals : List Signal) :
    deliveriesFrom gathered (refills capacity signals) =
      Delivery.ofSignalsFrom gathered signals := by
  fun_induction refills capacity signals generalizing gathered with
  | case1 signals none => exact absurd none (Nat.ne_of_gt positive)
  | case2 => rfl
  | case3 cause later _ ih =>
      rw [deliveriesFrom, ih]
      rfl
  | case4 room b later _ ih =>
      have run := ofSignalsFrom_run gathered (b :: (takeRun room later).1) (takeRun room later).2
      rw [List.map_cons, List.cons_append, takeRun_append] at run
      rw [deliveriesFrom, run, ← ih]

/-- A buffer of any capacity delivers the lines and failures of the signals. -/
theorem deliveries_eq (room : Nat) (signals : List Signal) :
    deliveries (room + 1) signals = Delivery.ofSignals signals :=
  deliveriesFrom_refills (Nat.succ_pos room) [] signals

end Buffer

/-! ## Later offsets -/

namespace Decoder

def moved (bytes : Nat) (decoder : Decoder) : Decoder :=
  { decoder with offset := decoder.offset + bytes }

theorem readOn_moved (d : Dialect) (start : Decoder) (s : Scan) (line offset bytes : Nat)
    (input : List Delivery) :
    readOn d (start.moved bytes) s line (offset + bytes) input =
      ((readOn d start s line offset input).1.mapError (·.moved bytes),
        (readOn d start s line offset input).2.moved bytes) := by
  induction input generalizing s line offset with
  | nil =>
      unfold readOn
      split <;> rfl
  | cons delivery later ih =>
      unfold readOn
      split
      · cases delivery with
        | failure cause => rfl
        | line found =>
          simp only [Nat.add_right_comm offset bytes]
          exact ih ..
      · rfl

/-- A decoder that has consumed more bytes yields the same but for the offsets of errors. -/
theorem next_moved (d : Dialect) (decoder : Decoder) (bytes : Nat) :
    (decoder.moved bytes).next d =
      ((decoder.next d).1.map (·.mapError (·.moved bytes)), (decoder.next d).2.moved bytes) := by
  obtain ⟨input, line, offset⟩ := decoder
  rcases input with _ | ⟨found | cause, later⟩
  · rfl
  · cases blank : found.stripTerminator.isEmpty with
    | true =>
        rw [next_of_blank rfl blank, next_of_blank rfl blank]
        exact congrArg
          (fun offset => (some (Except.ok Item.blank), Decoder.mk later (line + 1) offset))
          (Nat.add_right_comm offset bytes found.length)
    | false =>
        have behind := readOn_moved d ⟨.line found :: later, line, offset⟩ (Scan.line d {} found)
          (line + 1) (offset + found.length) bytes later
        rw [Nat.add_right_comm] at behind
        rw [next_of_line rfl blank, next_of_line rfl blank]
        dsimp only [moved] at behind ⊢
        rw [behind]
        rcases readOn d ⟨.line found :: later, line, offset⟩ (Scan.line d {} found) (line + 1)
          (offset + found.length) later with ⟨_ | row, after⟩ <;> rfl
  · rfl

/-- An error carries the counts from before its record. -/
theorem error_of_readOn {d : Dialect} {start : Decoder} {s : Scan} {line offset : Nat}
    {input : List Delivery} {e : DecodeError}
    (failed : (readOn d start s line offset input).1 = .error e) :
    e = .unterminatedQuote start.line start.offset ∨ ∃ cause, e = .readInput start.line cause := by
  fun_induction readOn d start s line offset input with
  | case1 => exact .inl (Except.error.inj failed).symm
  | case2 => cases failed
  | case3 s line offset later opened cause => exact .inr ⟨cause, (Except.error.inj failed).symm⟩
  | case4 s line offset later opened found ih => exact ih failed
  | case5 => cases failed

/-- A row carries the line from before its record. -/
theorem line_of_readOn {d : Dialect} {start : Decoder} {s : Scan} {line offset : Nat}
    {input : List Delivery} {row : Row Bytes}
    (read : (readOn d start s line offset input).1 = .ok row) : row.line = start.line := by
  fun_induction readOn d start s line offset input with
  | case1 => cases read
  | case2 => cases read; rfl
  | case3 => cases read
  | case4 s line offset later opened found ih => exact ih read
  | case5 => cases read; rfl

/-- An item is a failure to read, a blank line, or what comes of a record. -/
theorem item_of_next {d : Dialect} {decoder : Decoder} {item : Except DecodeError (Item String)}
    (found : (decoder.next d).1 = some item) :
    (∃ cause, item = .error (.readInput decoder.line cause)) ∨ item = .ok .blank ∨
      ∃ s line offset later, item =
        ((readOn d decoder s line offset later).1.map (·.map Utf8.decodeLossy)).map .row := by
  cases input : decoder.input with
  | nil =>
      rw [next_of_nil input] at found
      cases found
  | cons delivery later =>
      cases delivery with
      | failure cause =>
          rw [next_of_failure input] at found
          exact .inl ⟨cause, (Option.some.inj found).symm⟩
      | line bytes =>
          cases blank : bytes.stripTerminator.isEmpty with
          | true =>
              rw [next_of_blank input blank] at found
              exact .inr (.inl (Option.some.inj found).symm)
          | false =>
              rw [next_of_line input blank] at found
              exact .inr (.inr ⟨_, _, _, _, (Option.some.inj found).symm⟩)

/-- An error carries the counts from before its call. -/
theorem error_of_next {d : Dialect} {decoder : Decoder} {e : DecodeError}
    (failed : (decoder.next d).1 = some (.error e)) :
    e = .unterminatedQuote decoder.line decoder.offset ∨
      ∃ cause, e = .readInput decoder.line cause := by
  rcases item_of_next failed with ⟨cause, same⟩ | same | ⟨s, line, offset, later, same⟩
  · exact .inr ⟨cause, Except.error.inj same⟩
  · cases same
  · apply error_of_readOn
    cases read : (readOn d decoder s line offset later).1 with
    | error other =>
        rw [read] at same
        exact congrArg Except.error (Except.error.inj same).symm
    | ok row =>
        rw [read] at same
        cases same

/-- A row carries the line from before its call. -/
theorem line_of_row {d : Dialect} {decoder : Decoder} {row : Row String}
    (found : (decoder.next d).1 = some (.ok (.row row))) : row.line = decoder.line := by
  rcases item_of_next found with ⟨cause, same⟩ | same | ⟨s, line, offset, later, same⟩
  · cases same
  · cases same
  · cases read : (readOn d decoder s line offset later).1 with
    | error other =>
        rw [read] at same
        cases same
    | ok raw =>
        rw [read] at same
        cases same
        exact line_of_readOn read

/-- A decoder that has consumed more bytes goes on to do the same. -/
theorem afterCalls_moved (d : Dialect) (decoder : Decoder) (bytes n : Nat) :
    (decoder.moved bytes).afterCalls d n = (decoder.afterCalls d n).moved bytes := by
  induction n with
  | zero => rfl
  | succ n ih => rw [afterCalls_succ, afterCalls_succ, ih, next_moved]

theorem nthCall_moved (d : Dialect) (decoder : Decoder) (bytes n : Nat) :
    (decoder.moved bytes).nthCall d n =
      (decoder.nthCall d n).map (·.mapError (·.moved bytes)) := by
  rw [nthCall, afterCalls_moved, next_moved]
  rfl

end Decoder

namespace ByteDecoder

/-- The decoder that begins where another one stands, with empty buffers and no byte consumed. -/
def fresh (m : ByteDecoder) : ByteDecoder :=
  { signals := m.signals, line := m.line }

theorem toDecoder_fresh (m : ByteDecoder) : m.toDecoder = m.fresh.toDecoder.moved m.offset :=
  congrArg (Decoder.mk (Delivery.ofSignals m.signals) m.line) (Nat.zero_add m.offset).symm

/-- Successive calls yield what those of a fresh decoder yield for the rest of the input, with
offsets counted from where it begins. -/
theorem nthCall_fresh (d : Dialect) (m : ByteDecoder) (n : Nat) :
    m.nthCall d n = (m.fresh.nthCall d n).map (·.mapError (·.moved m.offset)) := by
  rw [← nthCall_toDecoder, ← nthCall_toDecoder, toDecoder_fresh, Decoder.nthCall_moved]

/-- An error carries the counts from before its call. -/
theorem error_of_next {d : Dialect} {m : ByteDecoder} {e : DecodeError}
    (failed : (m.next d).1 = some (.error e)) :
    e = .unterminatedQuote m.line m.offset ∨ ∃ cause, e = .readInput m.line cause := by
  have same := congrArg Prod.fst (m.next_toDecoder d)
  exact Decoder.error_of_next (same.trans failed)

/-- Whatever calls came before, errors among them, the calls that follow yield what a fresh
decoder yields for the signals that are not taken.  Of those that are taken, the whole lines
are counted and the failures were reported, each once and in order, and after as many calls as
there are signals the input has ended.  The deliveries of a buffer of any capacity yield the
same. -/
theorem calls_resume (d : Dialect) (signals : List Signal) (firstLine n : Nat) :
    let start : ByteDecoder := { signals, line := firstLine }
    let m := start.afterCalls d n
    (∀ k, start.nthCall d (n + k) =
      (m.fresh.nthCall d k).map (·.mapError (·.moved m.offset))) ∧
    (∃ taken,
      signals = taken ++ m.signals ∧
      Delivery.ofSignals signals = Delivery.ofSignals taken ++ Delivery.ofSignals m.signals ∧
      m.line = firstLine + (Signal.wholeLines taken).length ∧
      m.offset = (Signal.wholeLines taken).flatten.length ∧
      Signal.causes taken =
        (List.range n).filterMap fun k => (start.nthCall d k).bind DecodeError.readFailure?) ∧
    (∀ e, start.nthCall d n = some (.error e) →
      e = .unterminatedQuote m.line m.offset ∨ ∃ cause, e = .readInput m.line cause) ∧
    (signals.length ≤ n → m.signals = [] ∧ start.nthCall d n = none) ∧
    ∀ room,
      let running : Decoder := ⟨Buffer.deliveries (room + 1) signals, firstLine, 0⟩
      running.nthCall d n = start.nthCall d n ∧
      (running.afterCalls d n).line = m.line ∧ (running.afterCalls d n).offset = m.offset := by
  intro start m
  refine ⟨fun k => ?_, ?_, fun e failed => error_of_next failed, fun enough => ?_, fun room => ?_⟩
  · rw [← nthCall_fresh, nthCall, nthCall, ← afterCalls_add]
  · obtain ⟨taken, advances, reported⟩ := afterCalls_advances d start n
    have parts : signals = taken ++ m.signals := advances.signals
    refine ⟨taken, parts, ?_, advances.line, ?_, reported⟩
    · exact (congrArg Delivery.ofSignals parts).trans advances.parted.deliveries
    · exact advances.offset.trans (Nat.zero_add _)
  · have left : m.signals.length ≤ signals.length - n := length_signals_afterCalls d start n
    have ended : m.signals = [] := List.length_eq_zero_iff.mp (by omega)
    obtain ⟨-, -, nothing, -⟩ := next_advances d m
    exact ⟨ended, nothing.mpr ended⟩
  · have same : (⟨Buffer.deliveries (room + 1) signals, firstLine, 0⟩ : Decoder) =
        start.toDecoder := by
      rw [Buffer.deliveries_eq]
      rfl
    intro running
    change running = _ at same
    rw [same, ← toDecoder_afterCalls]
    exact ⟨nthCall_toDecoder d start n, rfl, rfl⟩

/-- The buffers keep what an interrupted record left in them. -/
example :
    let start : ByteDecoder :=
      { signals := [.byte 34, .byte 97, .byte 10, .byte 98, .failure "reset", .byte 99] }
    let m := start.afterCalls {} 1
    start.nthCall {} 0 = some (.error (.readInput 1 "reset")) ∧
      (m.line, m.offset, m.buffer, m.field) = (2, 3, [98], [97, 10]) ∧
      start.nthCall {} 1 = some (.ok (.row ⟨["c"], 2⟩)) := by
  cbv

end ByteDecoder

end CsvImport

import CsvImport.Proofs.Splitting

/-!
# Where items begin

A decoder whose source may fail lists what its calls yield up to the first error.  The item of a
call begins behind bytes that were taken without a failure, and the line that it carries counts
the line feeds among them.
-/

namespace CsvImport

namespace Signal

theorem exists_bytes {signals : List Signal} (calm : causes signals = []) :
    ∃ bytes : Bytes, signals = bytes.map .byte := by
  induction signals with
  | nil => exact ⟨[], rfl⟩
  | cons signal later ih =>
      cases signal with
      | failure cause => cases calm
      | byte b =>
          obtain ⟨bytes, rfl⟩ := ih calm
          exact ⟨b :: bytes, rfl⟩

theorem wholeLines_bytes (bytes : Bytes) : wholeLines (bytes.map .byte) = bytes.lines := by
  rw [wholeLines, Delivery.ofSignals_bytes, Delivery.ofBytes, List.filterMap_map]
  exact List.filterMap_some

/-- Bytes that no line leaves hold one line feed for each of their lines. -/
theorem Parted.length_lines {bytes : Bytes} {others : List Signal}
    (parted : Parted (bytes.map .byte) others) (more : others ≠ []) :
    bytes.lines.length = bytes.lineFeeds := by
  rcases parted with nothing | apart
  · exact absurd nothing more
  · have physical := Bytes.physical_lines (bytes ++ [Bytes.lf])
    have behind := apart ([Bytes.lf].map .byte)
    rw [← List.map_append, Delivery.ofSignals_bytes, Delivery.ofSignals_bytes,
      Delivery.ofSignals_bytes] at behind
    change (bytes ++ [Bytes.lf]).lines.map Delivery.line =
      bytes.lines.map .line ++ [[Bytes.lf]].map .line at behind
    rw [← List.map_append] at behind
    rw [List.map_injective_iff.mpr (fun _ _ => Delivery.line.inj) behind] at physical
    have counted := physical.lineFeeds_flatten (List.cons_ne_nil _ _)
    rw [Bytes.flatten_lines] at counted
    exact counted.symm

end Signal

namespace Decoder

variable {d : Dialect}

/-- A call that yields nothing has nothing left to read. -/
theorem input_of_none {decoder after : Decoder} (stopped : decoder.next d = (none, after)) :
    decoder.input = [] := by
  rcases input : decoder.input with _ | ⟨bytes | cause, later⟩
  · rfl
  · cases blank : bytes.stripTerminator.isEmpty with
    | true => cases (next_of_blank input blank).symm.trans stopped
    | false => cases congrArg Prod.fst ((next_of_line input blank).symm.trans stopped)
  · cases (next_of_failure input).symm.trans stopped

theorem nthCall_of_nil {decoder : Decoder} (input : decoder.input = []) (n : Nat) :
    decoder.nthCall d n = none := by
  have stays : decoder.afterCalls d n = decoder := by
    induction n with
    | zero => rfl
    | succ n ih => rw [afterCalls_succ, ih, next_of_nil input]
  rw [nthCall, stays, next_of_nil input]

/-- As long as no call fails, calls yield what `records` lists. -/
theorem getElem?_records (decoder : Decoder) {n : Nat}
    (fine : ∀ k < n, ∀ e, decoder.nthCall d k ≠ some (.error e)) :
    (decoder.records d).1[n]? = decoder.nthCall d n := by
  induction decoder using records.induct d generalizing n with
  | case1 decoder after stopped =>
      rw [records_of_none stopped, nthCall_of_nil (input_of_none stopped)]
      rfl
  | case2 decoder e after failed =>
      rw [records_of_error failed]
      cases n with
      | zero => exact (congrArg Prod.fst failed).symm
      | succ n => exact absurd (congrArg Prod.fst failed) (fine 0 (Nat.succ_pos n) e)
  | case3 decoder item after read items last found ih =>
      rw [records_of_ok read]
      cases n with
      | zero => exact (congrArg Prod.fst read).symm
      | succ n =>
          -- The calls behind the first one are those of the decoder that it leaves.
          change (after.records d).1[n]? = (decoder.next d).2.nthCall d n
          rw [read]
          apply ih
          intro k within
          have later := fine (k + 1) (Nat.succ_lt_succ within)
          change ∀ e, (decoder.next d).2.nthCall d k ≠ _ at later
          rwa [read] at later

/-- Only the last of the listed items can be an error. -/
theorem last_of_records {decoder : Decoder} {n : Nat} {e : DecodeError}
    (failed : (decoder.records d).1[n]? = some (.error e)) :
    n + 1 = (decoder.records d).1.length := by
  induction decoder using records.induct d generalizing n with
  | case1 decoder after stopped =>
      rw [records_of_none stopped] at failed
      cases failed
  | case2 decoder e after found =>
      rw [records_of_error found] at failed ⊢
      cases n with
      | zero => rfl
      | succ n => cases failed
  | case3 decoder item after read items last found ih =>
      rw [records_of_ok read] at failed ⊢
      cases n with
      | zero => cases failed
      | succ n => exact congrArg (· + 1) (ih failed)

theorem fine_of_records {decoder : Decoder} {n : Nat}
    (listed : n < (decoder.records d).1.length) :
    ∀ k < n, ∀ e, decoder.nthCall d k ≠ some (.error e) := by
  induction n with
  | zero =>
      intro k within
      cases within
  | succ n ih =>
      have earlier := ih (Nat.lt_of_succ_lt listed)
      intro k within e failed
      rcases Nat.lt_succ_iff_lt_or_eq.mp within with before | rfl
      · exact earlier k before e failed
      · rw [← decoder.getElem?_records earlier] at failed
        exact absurd (last_of_records failed) (Nat.ne_of_lt listed)

end Decoder

namespace ByteDecoder

variable {d : Dialect} {m : ByteDecoder} {n : Nat} {item : Except DecodeError (Item String)}

/-- Bytes stand in front of the first item that may be an error, and their line feeds are counted. -/
theorem front_of_nthCall (found : m.nthCall d n = some item)
    (fine : ∀ k < n, ∀ e, m.nthCall d k ≠ some (.error e)) :
    ∃ front : Bytes, m.signals = front.map .byte ++ (m.afterCalls d n).signals ∧
      (m.afterCalls d n).line = m.line + front.lineFeeds := by
  obtain ⟨taken, advances, reported⟩ := afterCalls_advances d m n
  have calm : Signal.causes taken = [] := by
    rw [reported, List.filterMap_eq_nil_iff]
    intro k member
    rcases called : m.nthCall d k with _ | e | other
    · rfl
    · exact absurd called (fine k (List.mem_range.mp member) e)
    · rfl
  obtain ⟨front, rfl⟩ := Signal.exists_bytes calm
  have more : (m.afterCalls d n).signals ≠ [] := by
    intro nothing
    obtain ⟨-, -, ended, -⟩ := next_advances d (m.afterCalls d n)
    cases found.symm.trans (ended.mpr nothing)
  refine ⟨front, advances.signals, ?_⟩
  rw [advances.line, Signal.wholeLines_bytes, advances.parted.length_lines more]

theorem front_of_records {line : Nat} (listed : (m.toDecoder.records d).1[n]? = some item)
    (carried : line ∈ Decoder.lineOf? item) :
    ∃ front : Bytes, m.signals = front.map .byte ++ (m.afterCalls d n).signals ∧
      line = m.line + front.lineFeeds := by
  have fine := Decoder.fine_of_records (List.getElem?_eq_some_iff.mp listed).1
  have found : m.toDecoder.nthCall d n = some item :=
    (m.toDecoder.getElem?_records fine).symm.trans listed
  have here : line = (m.toDecoder.afterCalls d n).line := Decoder.line_of_next found carried
  rw [nthCall_toDecoder] at found
  obtain ⟨front, parts, counted⟩ := front_of_nthCall found fun k within e =>
    nthCall_toDecoder d m k ▸ fine k within e
  refine ⟨front, parts, ?_⟩
  rw [here, ← toDecoder_afterCalls]
  exact counted

end ByteDecoder

end CsvImport

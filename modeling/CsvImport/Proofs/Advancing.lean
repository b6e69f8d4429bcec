import CsvImport.Proofs.ByteDecoding
import Mathlib.Logic.Function.Iterate

/-!
# Signals that calls take

A call of a decoder takes signals from the front of its input.  The lines among them that were
read whole are counted, a line that a failure interrupts is not, and the failure is reported by
the very call that meets it.  One call after the other, this holds of any number of calls.
-/

namespace CsvImport

def DecodeError.readFailure? {α : Type} : Except DecodeError α → Option String
  | .error (.readInput _ cause) => some cause
  | _ => none

namespace Signal

def causes (signals : List Signal) : List String :=
  signals.filterMap fun
    | .byte _ => none
    | .failure cause => some cause

def wholeLines (signals : List Signal) : List Bytes :=
  (Delivery.ofSignals signals).filterMap fun
    | .line bytes => some bytes
    | .failure _ => none

/-- Whether no line reaches from the first signals into the others. -/
def Parted (first others : List Signal) : Prop :=
  others = [] ∨
    ∀ later, Delivery.ofSignals (first ++ later) =
      Delivery.ofSignals first ++ Delivery.ofSignals later

theorem Parted.deliveries {first others : List Signal} (parted : Parted first others) :
    Delivery.ofSignals (first ++ others) =
      Delivery.ofSignals first ++ Delivery.ofSignals others := by
  rcases parted with rfl | apart
  · rw [List.append_nil]
    exact (List.append_nil _).symm
  · exact apart others

theorem Parted.append {first second others : List Signal}
    (before : Parted first (second ++ others)) (behind : Parted second others) :
    Parted (first ++ second) others := by
  rcases behind with nothing | apart
  · exact .inl nothing
  · rcases before with nothing | earlier
    · exact .inl (List.append_eq_nil_iff.mp nothing).2
    · refine .inr fun later => ?_
      rw [List.append_assoc, earlier, apart, earlier, List.append_assoc]

theorem Parted.left {first second others : List Signal}
    (parted : Parted first (second ++ others)) : Parted first second := by
  rcases parted with nothing | apart
  · exact .inl (List.append_eq_nil_iff.mp nothing).1
  · exact .inr apart

theorem causes_append (first later : List Signal) :
    causes (first ++ later) = causes first ++ causes later :=
  List.filterMap_append

theorem causes_bytes (bytes : Bytes) : causes (bytes.map .byte) = [] := by
  simp [causes]

theorem wholeLines_append {first second : List Signal} (parted : Parted first second) :
    wholeLines (first ++ second) = wholeLines first ++ wholeLines second := by
  rw [wholeLines, parted.deliveries, List.filterMap_append]
  rfl

/-- A line is parted from what stands behind it. -/
theorem Line.parted {bytes : Bytes} {later : List Signal} (line : Line bytes later) :
    Parted (bytes.map .byte) later := by
  cases line with
  | @whole body free =>
      refine .inr fun others => ?_
      have alone := Delivery.ofSignals_line (Line.whole free [])
      rw [List.append_nil] at alone
      rw [alone, Delivery.ofSignals_line (.whole free others)]
      rfl
  | last nonempty free => exact .inl rfl

theorem Line.wholeLines {bytes : Bytes} {later : List Signal} (line : Line bytes later) :
    Signal.wholeLines (bytes.map .byte) = [bytes] := by
  have alone : Delivery.ofSignals (bytes.map .byte ++ []) = [.line bytes] := by
    cases line with
    | whole free => exact Delivery.ofSignals_line (.whole free [])
    | last nonempty free => exact Delivery.ofSignals_line (.last nonempty free)
  rw [List.append_nil] at alone
  rw [Signal.wholeLines, alone]
  rfl

/-- A failure is parted from what stands behind it. -/
theorem parted_failure {lost : Bytes} (free : Bytes.lf ∉ lost) (cause : String)
    (later : List Signal) : Parted (lost.map .byte ++ [.failure cause]) later := by
  refine .inr fun others => ?_
  rw [List.append_assoc, List.singleton_append, Delivery.ofSignals_failure free,
    Delivery.ofSignals_failure free]
  rfl

/-- The line that a failure interrupts is not read whole. -/
theorem wholeLines_failure {lost : Bytes} (free : Bytes.lf ∉ lost) (cause : String) :
    wholeLines (lost.map .byte ++ [.failure cause]) = [] := by
  rw [wholeLines, Delivery.ofSignals_failure free]
  rfl

theorem causes_failure (lost : Bytes) (cause : String) :
    causes (lost.map .byte ++ [.failure cause]) = [cause] := by
  rw [causes_append, causes_bytes]
  rfl

end Signal

namespace ByteDecoder

/-- A decoder has taken signals and counts the lines among them that it read whole. -/
structure Advances (m : ByteDecoder) (taken : List Signal) (after : ByteDecoder) : Prop where
  signals : m.signals = taken ++ after.signals
  parted : Signal.Parted taken after.signals
  line : after.line = m.line + (Signal.wholeLines taken).length
  offset : after.offset = m.offset + (Signal.wholeLines taken).flatten.length

variable {d : Dialect} {m after last : ByteDecoder} {taken more : List Signal}

namespace Advances

theorem refl (m : ByteDecoder) : m.Advances [] m :=
  ⟨rfl, .inr fun _ => rfl, rfl, rfl⟩

theorem trans (first : m.Advances taken after) (second : after.Advances more last) :
    m.Advances (taken ++ more) last := by
  have parted : Signal.Parted taken (more ++ last.signals) := second.signals ▸ first.parted
  have lines := Signal.wholeLines_append parted.left
  refine ⟨?_, parted.append second.parted, ?_, ?_⟩
  · rw [first.signals, second.signals, List.append_assoc]
  · rw [second.line, first.line, lines, List.length_append, Nat.add_assoc]
  · rw [second.offset, first.offset, lines, List.flatten_append, List.length_append,
      Nat.add_assoc]

/-- The field buffer has no part in it. -/
theorem ofField {field : Bytes} (advances : Advances { m with field } taken after) :
    m.Advances taken after :=
  ⟨advances.signals, advances.parted, advances.line, advances.offset⟩

end Advances

/-- What an attempt to read a line takes. -/
theorem readLine_advances (m : ByteDecoder) :
    ∃ taken, m.Advances taken m.readLine.2 ∧
      (m.readLine.1 = .ok false ↔ m.signals = []) ∧
      (m.signals ≠ [] → taken ≠ []) ∧
      Signal.causes taken = match m.readLine.1 with | .error cause => [cause] | .ok _ => [] := by
  have outcome := reads m
  generalize m.readLine = read at outcome
  cases outcome with
  | ended nothing =>
      refine ⟨[], ⟨nothing, .inl rfl, rfl, rfl⟩, ?_, ?_, rfl⟩
      · simp [nothing]
      · exact fun some => absurd nothing some
  | @line bytes later line signals =>
      have counted := line.wholeLines
      refine ⟨bytes.map .byte, ⟨signals, line.parted, ?_, ?_⟩, ?_, ?_, Signal.causes_bytes bytes⟩
      · rw [counted]
        rfl
      · rw [counted, List.flatten_singleton]
        rfl
      · simp [signals, line.ne_nil]
      · simp [line.ne_nil]
  | @failure lost free cause later signals =>
      have counted := Signal.wholeLines_failure free cause
      refine ⟨lost.map .byte ++ [.failure cause],
        ⟨by rw [signals, List.append_assoc]; rfl, Signal.parted_failure free cause later, ?_, ?_⟩,
        ?_, ?_, Signal.causes_failure lost cause⟩
      · rw [counted]
        rfl
      · rw [counted]
        rfl
      · simp [signals]
      · simp

/-- Whether a decoder takes signals on the way to an outcome that reports their failures. -/
def Reports {α : Type} (m : ByteDecoder) (found : Except DecodeError α × ByteDecoder) : Prop :=
  ∃ taken, m.Advances taken found.2 ∧
    Signal.causes taken = (DecodeError.readFailure? found.1).toList

theorem reports_finish (start : ByteDecoder) (fields : List String) (m : ByteDecoder) :
    m.Reports (finish start fields m) :=
  ⟨[], (Advances.refl m.clear).ofField, rfl⟩

theorem Reports.ofField {α : Type} {field : Bytes} {found : Except DecodeError α × ByteDecoder}
    (reports : Reports { m with field } found) : m.Reports found := by
  obtain ⟨taken, advances, causes⟩ := reports
  exact ⟨taken, advances.ofField, causes⟩

/-- The rest of a record reports the failures that it meets. -/
theorem reports_scan (d : Dialect) (start : ByteDecoder) (state : FieldState)
    (fields : List String) (pos : Nat) (m : ByteDecoder) :
    m.Reports (scan d start state fields pos m) := by
  fun_induction scan d start state fields pos m with
  | case1 fields pos m used cause after read =>
      obtain ⟨taken, advances, -, -, causes⟩ := readLine_advances m
      rw [read] at advances causes
      exact ⟨taken, advances, causes⟩
  | case2 fields pos m used after read =>
      obtain ⟨taken, advances, -, -, causes⟩ := readLine_advances m
      rw [read] at advances causes
      exact ⟨taken, advances, causes⟩
  | case3 fields pos m used after read ih =>
      obtain ⟨taken, advances, -, -, causes⟩ := readLine_advances m
      rw [read] at advances causes
      obtain ⟨more, further, rest⟩ := ih
      refine ⟨taken ++ more, advances.trans further, ?_⟩
      rw [Signal.causes_append, causes, rest]
      rfl
  | case4 state fields pos m => exact reports_finish start fields m
  | case5 fields pos m found ih => exact ih
  | case6 fields pos m b found other ih => exact ih.ofField
  | case7 state fields pos m => exact reports_finish start fields m
  | case8 => rename_i ih; exact ih.ofField
  | case9 => rename_i ih; exact ih
  | case10 => rename_i ih; exact ih.ofField
  | case11 => rename_i ih; exact ih.ofField

/-- A call reports the failures among the signals that it takes, and it takes signals unless
there are none. -/
theorem next_advances (d : Dialect) (m : ByteDecoder) :
    ∃ taken, m.Advances taken (m.next d).2 ∧
      ((m.next d).1 = none ↔ m.signals = []) ∧
      (m.signals ≠ [] → taken ≠ []) ∧
      Signal.causes taken = ((m.next d).1.bind DecodeError.readFailure?).toList := by
  obtain ⟨taken, advances, ended, progress, causes⟩ := readLine_advances m
  unfold next
  generalize m.readLine = read at advances ended causes ⊢
  rcases read with ⟨cause | ⟨_ | _⟩, after⟩
  · refine ⟨taken, advances, ?_, progress, causes⟩
    simpa using ended
  · refine ⟨taken, advances, ?_, progress, causes⟩
    simpa using ended
  · have more : m.signals ≠ [] := fun nothing => by simpa using ended.mpr nothing
    dsimp only
    split
    · exact ⟨taken, advances, by simp [more], progress, causes⟩
    · obtain ⟨further, behind, failures⟩ := reports_scan d m .fieldStart [] 0 after.clear
      refine ⟨taken ++ further, advances.trans behind.ofField, by simp [more], fun some => ?_, ?_⟩
      · exact List.append_ne_nil_of_left_ne_nil (progress some) further
      · rw [Signal.causes_append, causes, failures]
        rcases (scan d m .fieldStart [] 0 after.clear).1 with ⟨_ | _⟩ | _ <;> rfl

/-! ## Any number of calls -/

def afterCalls (d : Dialect) (m : ByteDecoder) (n : Nat) : ByteDecoder :=
  (fun m => (m.next d).2)^[n] m

/-- What the call behind so many others yields. -/
def nthCall (d : Dialect) (m : ByteDecoder) (n : Nat) :
    Option (Except DecodeError (Item String)) :=
  ((m.afterCalls d n).next d).1

theorem afterCalls_succ (d : Dialect) (m : ByteDecoder) (n : Nat) :
    m.afterCalls d (n + 1) = ((m.afterCalls d n).next d).2 :=
  Function.iterate_succ_apply' ..

theorem afterCalls_add (d : Dialect) (m : ByteDecoder) (n k : Nat) :
    m.afterCalls d (n + k) = (m.afterCalls d n).afterCalls d k := by
  rw [Nat.add_comm]
  exact Function.iterate_add_apply ..

/-- Calls report the failures among the signals that they take, each once and in order. -/
theorem afterCalls_advances (d : Dialect) (m : ByteDecoder) (n : Nat) :
    ∃ taken, m.Advances taken (m.afterCalls d n) ∧
      Signal.causes taken =
        (List.range n).filterMap fun k => (m.nthCall d k).bind DecodeError.readFailure? := by
  induction n with
  | zero => exact ⟨[], .refl m, rfl⟩
  | succ n ih =>
      obtain ⟨taken, advances, reported⟩ := ih
      obtain ⟨more, further, -, -, rest⟩ := next_advances d (m.afterCalls d n)
      refine ⟨taken ++ more, ?_, ?_⟩
      · rw [afterCalls_succ]
        exact advances.trans further
      · rw [Signal.causes_append, reported, rest, List.range_succ, List.filterMap_append]
        refine congrArg (_ ++ ·) ?_
        rw [List.filterMap_cons, nthCall]
        cases ((m.afterCalls d n).next d).1.bind DecodeError.readFailure? <;> rfl

/-- Each call takes a signal as long as there are any. -/
theorem length_signals_afterCalls (d : Dialect) (m : ByteDecoder) (n : Nat) :
    (m.afterCalls d n).signals.length ≤ m.signals.length - n := by
  induction n with
  | zero => exact Nat.le_refl _
  | succ n ih =>
      obtain ⟨taken, advances, -, progress, -⟩ := next_advances d (m.afterCalls d n)
      have parts := congrArg List.length advances.signals
      rw [List.length_append] at parts
      rw [afterCalls_succ]
      by_cases nothing : (m.afterCalls d n).signals = []
      · rw [nothing, List.length_nil] at parts
        omega
      · have := List.length_pos_iff.mpr (progress nothing)
        omega

end ByteDecoder

end CsvImport

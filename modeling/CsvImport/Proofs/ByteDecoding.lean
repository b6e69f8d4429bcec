import CsvImport.Record.Decoder

/-!
# Decoding byte by byte

A decoder of bytes reads signals into a line buffer, goes through that buffer by position, and
gathers the current field in a second buffer.  It keeps both buffers from one call to the next,
also when a call ends in the middle of a record.  A decoder of lines has no buffers.  Both yield
the same items, so what the buffers hold when a call begins never matters.
-/

namespace CsvImport

/-- A decoder that reads byte by byte and keeps its buffers between calls. -/
structure ByteDecoder where
  /-- What is still to be read. -/
  signals : List Signal
  /-- The number of the next physical line. -/
  line : Nat := 1
  /-- How many bytes have been consumed. -/
  offset : Nat := 0
  /-- The line that was read last, or what was read of it before a failure. -/
  buffer : Bytes := []
  /-- The field that was begun last. -/
  field : Bytes := []
deriving DecidableEq, Repr, Inhabited

/-- An element of a list, from what is left when the elements before it are dropped. -/
theorem of_drop_eq_cons {α : Type} {all later : List α} {x : α} {n : Nat}
    (found : all.drop n = x :: later) :
    all[n]? = some x ∧ all.drop (n + 1) = later ∧ all.take (n + 1) = all.take n ++ [x] := by
  have here : all[n]? = some x := by
    rw [← List.head?_drop, found]
    rfl
  refine ⟨here, ?_, ?_⟩
  · rw [← List.drop_drop, found]
    rfl
  · rw [List.take_add_one, here]
    rfl

namespace ByteDecoder

/-- The bytes up to the first line feed or failure, that failure, and the signals behind. -/
def untilLineFeed : List Signal → Bytes × Option String × List Signal
  | [] => ([], none, [])
  | .failure cause :: later => ([], some cause, later)
  | .byte b :: later =>
      if b = Bytes.lf then ([b], none, later)
      else
        let (bytes, failure, behind) := untilLineFeed later
        (b :: bytes, failure, behind)

theorem untilLineFeed_length (signals : List Signal) :
    (untilLineFeed signals).1.length + (untilLineFeed signals).2.2.length ≤ signals.length := by
  fun_induction untilLineFeed signals with
  | case1 => simp
  | case2 => simp
  | case3 later => simp; omega
  | case4 b later _ bytes failure behind found ih =>
      rw [found] at ih
      simp only [List.length_cons] at ih ⊢
      omega

def fill (m : ByteDecoder) (bytes : Bytes) (behind : List Signal) : ByteDecoder :=
  { m with signals := behind, buffer := bytes }

def count (m : ByteDecoder) : ByteDecoder :=
  { m with line := m.line + 1, offset := m.offset + m.buffer.length }

/-- Read one physical line into the buffer; `false` at the end of the input. -/
def readLine (m : ByteDecoder) : Except String Bool × ByteDecoder :=
  match untilLineFeed m.signals with
  | (bytes, some cause, behind) => (.error cause, m.fill bytes behind)
  | ([], none, behind) => (.ok false, m.fill [] behind)
  | (b :: bytes, none, behind) => (.ok true, (m.fill (b :: bytes) behind).count)

theorem readLine_length {m after : ByteDecoder} (read : m.readLine = (.ok true, after)) :
    after.signals.length < m.signals.length := by
  have shorter := untilLineFeed_length m.signals
  unfold readLine at read
  split at read
  · cases read
  · cases read
  · rename_i b bytes behind found
    cases read
    rw [found] at shorter
    simp only [List.length_cons] at shorter
    change behind.length < m.signals.length
    omega

def push (m : ByteDecoder) (b : UInt8) : ByteDecoder :=
  { m with field := m.field ++ [b] }

def text (m : ByteDecoder) : String :=
  Utf8.decodeLossy m.field

def clear (m : ByteDecoder) : ByteDecoder :=
  { m with field := [] }

def finish (start : ByteDecoder) (fields : List String) (m : ByteDecoder) :
    Except DecodeError (Row String) × ByteDecoder :=
  (.ok ⟨fields ++ [m.text], start.line⟩, m.clear)

/--
Go on with the record that began at the decoder `start`, from a position of the buffer on.
When the buffer ends inside quotes, the next line takes its place and the position is zero again.
-/
def scan (d : Dialect) (start : ByteDecoder) (state : FieldState) (fields : List String)
    (pos : Nat) (m : ByteDecoder) : Except DecodeError (Row String) × ByteDecoder :=
  match _ : m.buffer[pos]? with
  | none =>
      if state = .quoted then
        match _ : m.readLine with
        | (.error cause, after) => (.error (.readInput start.line cause), after)
        | (.ok false, after) => (.error (.unterminatedQuote start.line start.offset), after)
        | (.ok true, after) => scan d start state fields 0 after
      else finish start fields m
  | some b =>
      let endsRecord := b == Bytes.lf || (b == Bytes.cr && m.buffer[pos + 1]? == some Bytes.lf)
      if state = .quoted then
        if b = d.quote then scan d start .quoteInQuoted fields (pos + 1) m
        else scan d start .quoted fields (pos + 1) (m.push b)
      else if endsRecord then finish start fields m
      else if b = d.delimiter then
        scan d start .fieldStart (fields ++ [m.text]) (pos + 1) m.clear
      else if b = d.quote ∧ state = .fieldStart then scan d start .quoted fields (pos + 1) m
      else if b = d.quote ∧ state = .quoteInQuoted then
        scan d start .quoted fields (pos + 1) (m.push d.quote)
      else scan d start .unquoted fields (pos + 1) (m.push b)
termination_by (m.signals.length, m.buffer.length - pos)
decreasing_by
  all_goals first
    | exact Prod.Lex.left _ _ (readLine_length ‹_›)
    | (have within := (List.getElem?_eq_some_iff.mp ‹m.buffer[pos]? = some b›).1
       refine Prod.Lex.right _ ?_
       change m.buffer.length - (pos + 1) < m.buffer.length - pos
       omega)

def next (d : Dialect) (m : ByteDecoder) :
    Option (Except DecodeError (Item String)) × ByteDecoder :=
  match m.readLine with
  | (.error cause, after) => (some (.error (.readInput m.line cause)), after)
  | (.ok false, after) => (none, after)
  | (.ok true, after) =>
      if after.buffer.stripTerminator.isEmpty then (some (.ok .blank), after)
      else
        let (result, behind) := scan d m .fieldStart [] 0 after.clear
        (some (result.map .row), behind)

end ByteDecoder

/-! ## Lines among signals -/

namespace Signal

/-- Bytes that are read as one line when the given signals stand behind them. -/
inductive Line : Bytes → List Signal → Prop where
  | whole {body : Bytes} (free : Bytes.lf ∉ body) (later : List Signal) :
      Line (body ++ [Bytes.lf]) later
  | last {bytes : Bytes} (nonempty : bytes ≠ []) (free : Bytes.lf ∉ bytes) : Line bytes []

theorem Line.ne_nil {bytes : Bytes} {later : List Signal} (line : Line bytes later) :
    bytes ≠ [] := by
  cases line with
  | whole free => simp
  | last nonempty free => exact nonempty

/-- How signals begin. -/
inductive Front : List Signal → Prop where
  | nil : Front []
  | line {bytes : Bytes} {later : List Signal} (line : Line bytes later) :
      Front (bytes.map .byte ++ later)
  | failure {lost : Bytes} (free : Bytes.lf ∉ lost) (cause : String) (later : List Signal) :
      Front (lost.map .byte ++ .failure cause :: later)

/-- Signals begin with a line, or with a failure and what it loses, if there are any. -/
theorem front (signals : List Signal) : Front signals := by
  induction signals with
  | nil => exact .nil
  | cons signal later ih =>
      cases signal with
      | failure cause => exact .failure (List.not_mem_nil : Bytes.lf ∉ ([] : Bytes)) cause later
      | byte b =>
          by_cases ends : b = Bytes.lf
          · subst ends
            exact .line (.whole (List.not_mem_nil : Bytes.lf ∉ ([] : Bytes)) later)
          · -- The byte stands in front of whatever begins behind it.
            have free_cons {bytes : Bytes} (free : Bytes.lf ∉ bytes) : Bytes.lf ∉ b :: bytes :=
              List.not_mem_cons_of_ne_of_not_mem (Ne.symm ends) free
            cases ih with
            | nil => exact .line (.last (List.cons_ne_nil b []) (free_cons List.not_mem_nil))
            | @line bytes later line =>
                cases line with
                | whole free => exact .line (.whole (free_cons free) later)
                | last nonempty free =>
                    exact .line (.last (List.cons_ne_nil b bytes) (free_cons free))
            | failure free cause later => exact .failure (free_cons free) cause later

end Signal

namespace Delivery

theorem ofSignalsFrom_bytes {body : Bytes} (free : Bytes.lf ∉ body) (gathered : Bytes)
    (later : List Signal) :
    ofSignalsFrom gathered (body.map .byte ++ later) =
      ofSignalsFrom (body.reverse ++ gathered) later := by
  induction body generalizing gathered with
  | nil => rfl
  | cons b body ih =>
      have goesOn : b ≠ Bytes.lf := (List.ne_of_not_mem_cons free).symm
      rw [List.map_cons, List.cons_append, ofSignalsFrom, if_neg goesOn,
        ih (List.not_mem_of_not_mem_cons free), List.reverse_cons, List.append_assoc]
      rfl

theorem ofSignals_line {bytes : Bytes} {later : List Signal} (line : Signal.Line bytes later) :
    ofSignals (bytes.map .byte ++ later) = .line bytes :: ofSignals later := by
  unfold ofSignals
  cases line with
  | @whole body free =>
      rw [List.map_append, List.append_assoc, ofSignalsFrom_bytes free]
      simp [ofSignalsFrom]
  | last nonempty free =>
      rw [ofSignalsFrom_bytes free]
      simp [ofSignalsFrom, rest, nonempty]

theorem ofSignals_failure {lost : Bytes} (free : Bytes.lf ∉ lost) (cause : String)
    (later : List Signal) :
    ofSignals (lost.map .byte ++ .failure cause :: later) = .failure cause :: ofSignals later := by
  unfold ofSignals
  rw [ofSignalsFrom_bytes free]
  rfl

end Delivery

namespace ByteDecoder

theorem untilLineFeed_bytes {body : Bytes} (free : Bytes.lf ∉ body) (later : List Signal) :
    untilLineFeed (body.map .byte ++ later) =
      (body ++ (untilLineFeed later).1, (untilLineFeed later).2) := by
  induction body with
  | nil => rfl
  | cons b body ih =>
      have goesOn : b ≠ Bytes.lf := (List.ne_of_not_mem_cons free).symm
      rw [List.map_cons, List.cons_append, untilLineFeed, if_neg goesOn,
        ih (List.not_mem_of_not_mem_cons free)]
      rfl

theorem untilLineFeed_line {bytes : Bytes} {later : List Signal}
    (line : Signal.Line bytes later) :
    untilLineFeed (bytes.map .byte ++ later) = (bytes, none, later) := by
  cases line with
  | whole free =>
      rw [List.map_append, List.append_assoc, untilLineFeed_bytes free]
      rfl
  | last nonempty free =>
      rw [untilLineFeed_bytes free]
      simp [untilLineFeed]

/-- What an attempt to read a line does to a decoder. -/
inductive Reads (m : ByteDecoder) : Except String Bool × ByteDecoder → Prop where
  | ended (nothing : m.signals = []) : Reads m (.ok false, m.fill [] [])
  | line {bytes : Bytes} {later : List Signal} (line : Signal.Line bytes later)
      (signals : m.signals = bytes.map .byte ++ later) :
      Reads m (.ok true, (m.fill bytes later).count)
  | failure {lost : Bytes} (free : Bytes.lf ∉ lost) {cause : String} {later : List Signal}
      (signals : m.signals = lost.map .byte ++ .failure cause :: later) :
      Reads m (.error cause, m.fill lost later)

theorem reads (m : ByteDecoder) : Reads m m.readLine := by
  obtain ⟨signals, line, offset, buffer, field⟩ := m
  unfold readLine
  cases Signal.front signals with
  | nil => exact .ended rfl
  | @line bytes later line =>
      rw [untilLineFeed_line line]
      cases bytes with
      | nil => exact absurd rfl line.ne_nil
      | cons b bytes => exact .line line rfl
  | @failure lost free cause later =>
      rw [untilLineFeed_bytes free]
      simp only [untilLineFeed, List.append_nil]
      exact .failure free rfl

/-! ## The decoder of lines -/

/-- What remains of a decoder without its buffers. -/
def toDecoder (m : ByteDecoder) : Decoder :=
  ⟨Delivery.ofSignals m.signals, m.line, m.offset⟩

def hold (m : ByteDecoder) (s : Scan) : ByteDecoder :=
  { m with field := s.field.reverse }

def texts (s : Scan) : List String :=
  s.closed.reverse.map Utf8.decodeLossy

variable {d : Dialect} {start m : ByteDecoder} {s : Scan} {b : UInt8} {pos : Nat} {later : Bytes}

theorem push_hold (m : ByteDecoder) (s : Scan) (b : UInt8) :
    (m.hold s).push b = m.hold (s.push b) := by
  simp [push, hold, Scan.push]

theorem clear_hold (m : ByteDecoder) (s : Scan) : (m.hold s).clear = m.hold s.close := by
  simp [clear, hold, Scan.close]

theorem texts_close (m : ByteDecoder) (s : Scan) :
    texts s.close = texts s ++ [(m.hold s).text] := by
  simp [texts, hold, text, Scan.close]

theorem finish_hold (start m : ByteDecoder) (s : Scan) :
    finish start (texts s) (m.hold s) =
      (.ok ⟨s.fields.map Utf8.decodeLossy, start.line⟩, m.clear) := by
  rw [finish, ← texts_close, texts, List.map_reverse]
  simp [hold, clear, Scan.fields]

/-- What becomes of a byte of the buffer, with the bytes behind it in view. -/
theorem scan_byte (found : m.buffer.drop pos = b :: later) (state : FieldState)
    (fields : List String) :
    scan d start state fields pos m =
      if state = .quoted then
        if b = d.quote then scan d start .quoteInQuoted fields (pos + 1) m
        else scan d start .quoted fields (pos + 1) (m.push b)
      else if Scan.endsRecord b later then finish start fields m
      else if b = d.delimiter then
        scan d start .fieldStart (fields ++ [m.text]) (pos + 1) m.clear
      else if b = d.quote ∧ state = .fieldStart then scan d start .quoted fields (pos + 1) m
      else if b = d.quote ∧ state = .quoteInQuoted then
        scan d start .quoted fields (pos + 1) (m.push d.quote)
      else scan d start .unquoted fields (pos + 1) (m.push b) := by
  obtain ⟨here, rest, -⟩ := of_drop_eq_cons found
  have behind : m.buffer[pos + 1]? = later.head? := by rw [← List.head?_drop, rest]
  rw [scan]
  split
  · rename_i nothing
    rw [here] at nothing
    cases nothing
  · rename_i other there
    rw [here] at there
    obtain rfl := Option.some.inj there
    simp only [behind]
    rfl

/-- At the end of the buffer a record is finished, unless a quote is open. -/
theorem scan_closed (closed : s.state ≠ .quoted) :
    scan d start s.state (texts s) m.buffer.length (m.hold s) =
      (.ok ⟨s.fields.map Utf8.decodeLossy, start.line⟩, m.clear) := by
  rw [scan]
  split
  · rw [if_neg closed, finish_hold]
  · rename_i b found
    have within := (List.getElem?_eq_some_iff.mp found).1
    exact absurd within (Nat.lt_irrefl _)

/-- A line end outside quotes finishes the record. -/
theorem scan_stop (found : m.buffer.drop pos = b :: later) (outside : s.state ≠ .quoted)
    (ends : Scan.endsRecord b later = true) :
    scan d start s.state (texts s) pos (m.hold s) =
      (.ok ⟨s.fields.map Utf8.decodeLossy, start.line⟩, m.clear) := by
  rw [scan_byte (show (m.hold s).buffer.drop pos = b :: later from found), if_neg outside,
    if_pos ends, finish_hold]

/-- A byte that does not end the record is taken as a scan takes it. -/
theorem scan_step (found : m.buffer.drop pos = b :: later)
    (goesOn : ¬(s.state ≠ .quoted ∧ Scan.endsRecord b later = true)) :
    scan d start s.state (texts s) pos (m.hold s) =
      scan d start (s.step d b).state (texts (s.step d b)) (pos + 1) (m.hold (s.step d b)) := by
  rw [scan_byte (show (m.hold s).buffer.drop pos = b :: later from found)]
  by_cases quoted : s.state = .quoted
  · rw [if_pos quoted]
    by_cases quote : b = d.quote
    · have moved : s.step d b = { s with state := .quoteInQuoted } := by
        simp [Scan.step, Scan.closes, Scan.keeps, FieldState.next, quoted, quote]
      rw [if_pos quote, moved]
      rfl
    · have moved : s.step d b = s.push b := by
        simp [Scan.step, Scan.closes, Scan.keeps, FieldState.next, quoted, quote, Scan.push]
      rw [if_neg quote, moved, push_hold]
      exact congrArg (fun state => scan d start state _ _ _) quoted.symm
  · have inside : Scan.endsRecord b later = false := by simpa [quoted] using goesOn
    rw [if_neg quoted, inside, if_neg Bool.false_ne_true]
    by_cases delimiter : b = d.delimiter
    · have moved : s.step d b = { s.close with state := .fieldStart } := by
        cases state : s.state <;>
          simp_all [Scan.step, Scan.closes, FieldState.next, Scan.close]
      rw [if_pos delimiter, moved, ← texts_close, clear_hold]
      rfl
    · rw [if_neg delimiter]
      by_cases quote : b = d.quote
      · cases state : s.state with
        | quoted => exact absurd state quoted
        | fieldStart =>
            have moved : s.step d b = { s with state := .quoted } := by
              simp_all [Scan.step, Scan.closes, Scan.keeps, FieldState.next]
            rw [if_pos ⟨quote, rfl⟩, moved]
            rfl
        | quoteInQuoted =>
            have moved : s.step d b = { s.push b with state := .quoted } := by
              simp_all [Scan.step, Scan.closes, Scan.keeps, FieldState.next, Scan.push]
            rw [if_neg (by simp), if_pos ⟨quote, rfl⟩, moved, ← quote, push_hold]
            rfl
        | unquoted =>
            have moved : s.step d b = s.push b := by
              simp_all [Scan.step, Scan.closes, Scan.keeps, FieldState.next, Scan.push]
            rw [if_neg (by simp), if_neg (by simp), moved, push_hold]
            exact congrArg (fun state => scan d start state _ _ _) state.symm
      · have moved : s.step d b = { s.push b with state := .unquoted } := by
          cases state : s.state <;>
            simp_all [Scan.step, Scan.closes, Scan.keeps, FieldState.next, Scan.push]
        rw [if_neg (quote ·.1), if_neg (quote ·.1), moved, push_hold]
        rfl

/-- From a position on, the buffer is gone through as a scan goes through a line. -/
theorem scan_line (within : pos ≤ m.buffer.length) :
    scan d start s.state (texts s) pos (m.hold s) =
      scan d start (s.line d (m.buffer.drop pos)).state (texts (s.line d (m.buffer.drop pos)))
        m.buffer.length (m.hold (s.line d (m.buffer.drop pos))) := by
  generalize line : m.buffer.drop pos = rest
  induction rest generalizing s pos with
  | nil =>
      obtain rfl : pos = m.buffer.length :=
        Nat.le_antisymm within (List.drop_eq_nil_iff.mp line)
      rfl
  | cons b later ih =>
      rw [Scan.line]
      by_cases stops : s.state ≠ .quoted ∧ Scan.endsRecord b later = true
      · rw [if_pos stops, scan_stop line stops.1 stops.2]
        exact (scan_closed stops.1).symm
      · have next := (of_drop_eq_cons line).2.1
        have shorter : pos + 1 ≤ m.buffer.length := by
          have := congrArg List.length line
          simp only [List.length_drop, List.length_cons] at this
          omega
        rw [if_neg stops, scan_step line stops, ih shorter next]

theorem readLine_hold (m : ByteDecoder) (s : Scan) :
    (m.hold s).readLine = (m.readLine.1, m.readLine.2.hold s) := by
  unfold readLine hold
  rcases untilLineFeed m.signals with ⟨_ | ⟨b, bytes⟩, _ | cause, behind⟩ <;> rfl

/-- At the end of the buffer, an open quote goes on with the next line. -/
theorem scan_open (quoted : s.state = .quoted) :
    scan d start s.state (texts s) m.buffer.length (m.hold s) =
      match m.readLine with
      | (.error cause, after) => (.error (.readInput start.line cause), after.hold s)
      | (.ok false, after) =>
          (.error (.unterminatedQuote start.line start.offset), after.hold s)
      | (.ok true, after) => scan d start s.state (texts s) 0 (after.hold s) := by
  rw [scan]
  split
  · rw [if_pos quoted]
    split
    all_goals
      rename_i read
      rw [readLine_hold] at read
      obtain ⟨same, rfl⟩ := Prod.mk.inj read
      rcases known : m.readLine with ⟨outcome, after⟩
      rw [known] at same
      obtain rfl : outcome = _ := same
      rfl
  · rename_i b found
    have within := (List.getElem?_eq_some_iff.mp found).1
    exact absurd within (Nat.lt_irrefl _)

end ByteDecoder

namespace Decoder

variable {d : Dialect} {decoder : Decoder} {later : List Delivery}

/-- A record without an open quote is finished, and nothing more is read for it. -/
theorem readOn_closed {start : Decoder} {s : Scan} (closed : s.isOpen = false)
    (line offset : Nat) (input : List Delivery) :
    readOn d start s line offset input = (.ok ⟨s.fields, start.line⟩, ⟨input, line, offset⟩) := by
  cases input <;> simp [readOn, closed]

theorem next_of_nil (input : decoder.input = []) : decoder.next d = (none, decoder) := by
  unfold next nextRaw
  rw [input]
  rfl

theorem next_of_failure {cause : String} (input : decoder.input = .failure cause :: later) :
    decoder.next d =
      (some (.error (.readInput decoder.line cause)), { decoder with input := later }) := by
  unfold next nextRaw
  rw [input]
  rfl

theorem next_of_blank {bytes : Bytes} (input : decoder.input = .line bytes :: later)
    (blank : bytes.stripTerminator.isEmpty = true) :
    decoder.next d =
      (some (.ok .blank), ⟨later, decoder.line + 1, decoder.offset + bytes.length⟩) := by
  unfold next nextRaw
  rw [input]
  simp only [blank]
  rfl

theorem next_of_line {bytes : Bytes} (input : decoder.input = .line bytes :: later)
    (notBlank : bytes.stripTerminator.isEmpty = false) :
    decoder.next d =
      let read := readOn d decoder (Scan.line d {} bytes) (decoder.line + 1)
        (decoder.offset + bytes.length) later
      (some ((read.1.map (·.map Utf8.decodeLossy)).map .row), read.2) := by
  unfold next nextRaw
  rw [input]
  simp only [notBlank]
  rcases readOn d decoder (Scan.line d {} bytes) (decoder.line + 1)
    (decoder.offset + bytes.length) later with ⟨_ | row, after⟩ <;> rfl

end Decoder

namespace ByteDecoder

/-- A record whose buffer is used up goes on as it does for the decoder of lines. -/
theorem scan_end (d : Dialect) (start m : ByteDecoder) (s : Scan) :
    let found := scan d start s.state (texts s) m.buffer.length (m.hold s)
    let read := Decoder.readOn d start.toDecoder s m.line m.offset (Delivery.ofSignals m.signals)
    found.1 = read.1.map (·.map Utf8.decodeLossy) ∧ found.2.toDecoder = read.2 := by
  induction size_eq : m.signals.length using Nat.strongRecOn generalizing m s with
  | _ size ih =>
    by_cases opened : s.isOpen = true
    · have quoted : s.state = .quoted := by simpa [Scan.isOpen] using opened
      have outcome := reads m
      rw [scan_open quoted]
      generalize m.readLine = read at outcome
      cases outcome with
      | ended nothing =>
          have input : Delivery.ofSignals m.signals = [] := by rw [nothing]; rfl
          rw [input, Decoder.readOn, if_pos opened]
          exact ⟨rfl, rfl⟩
      | failure free signals =>
          rw [signals, Delivery.ofSignals_failure free, Decoder.readOn, if_pos opened]
          exact ⟨rfl, rfl⟩
      | @line bytes later line signals =>
          have shorter : later.length < size := by
            have := List.length_pos_iff.mpr line.ne_nil
            rw [← size_eq, signals, List.length_append, List.length_map]
            omega
          rw [signals, Delivery.ofSignals_line line, Decoder.readOn, if_pos opened]
          have next := ih later.length shorter (m.fill bytes later).count (s.line d bytes) rfl
          have whole : scan d start s.state (texts s) 0 ((m.fill bytes later).count.hold s) = _ :=
            scan_line (Nat.zero_le _)
          dsimp only
          rw [whole]
          exact next
    · have outside : s.state ≠ .quoted := by simpa [Scan.isOpen] using opened
      have closed : s.isOpen = false := Bool.eq_false_iff.mpr opened
      rw [scan_closed outside, Decoder.readOn_closed closed]
      exact ⟨rfl, rfl⟩

/-- A decoder of bytes yields what the decoder of lines yields, whatever its buffers hold. -/
theorem next_toDecoder (d : Dialect) (m : ByteDecoder) :
    m.toDecoder.next d = ((m.next d).1, (m.next d).2.toDecoder) := by
  have outcome := reads m
  unfold next
  generalize m.readLine = read at outcome
  cases outcome with
  | ended nothing =>
      have input : m.toDecoder.input = [] := by
        rw [toDecoder, nothing]
        rfl
      rw [Decoder.next_of_nil input]
      exact congrArg (fun input => (none, Decoder.mk input m.line m.offset)) input
  | failure free signals =>
      have input : m.toDecoder.input = _ := signals ▸ Delivery.ofSignals_failure free _ _
      exact Decoder.next_of_failure input
  | @line bytes later line signals =>
      have input : m.toDecoder.input = _ := signals ▸ Delivery.ofSignals_line line
      by_cases blank : bytes.stripTerminator.isEmpty = true
      · rw [Decoder.next_of_blank input blank]
        simp only [fill, count, blank, if_true]
        rfl
      · have notBlank : bytes.stripTerminator.isEmpty = false := Bool.eq_false_iff.mpr blank
        have whole : scan d m .fieldStart [] 0 (m.fill bytes later).count.clear = _ :=
          scan_line (s := {}) (Nat.zero_le _)
        obtain ⟨row, behind⟩ := scan_end d m (m.fill bytes later).count (Scan.line d {} bytes)
        rw [Decoder.next_of_line input notBlank]
        dsimp only
        rw [show (m.fill bytes later).count.buffer = bytes from rfl, notBlank, whole]
        exact Prod.ext (congrArg (some ∘ Except.map Item.row) row.symm) behind.symm

end ByteDecoder

end CsvImport

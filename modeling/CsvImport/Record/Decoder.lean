import CsvImport.FailureKind
import CsvImport.Record.Delivery
import CsvImport.Record.Field
import CsvImport.Text.Utf8

/-!
# The record decoder

A decoder holds the deliveries still to come, the number of the next physical
line and the number of bytes consumed.  `next` yields one item: a row, a blank
line or an error; `records` yields every item up to the first error.
-/

namespace CsvImport

/-- Why a record could not be decoded. -/
inductive DecodeError where
  /-- The input ended inside quotes; the record started at this line and byte. -/
  | unterminatedQuote (line offset : Nat)
  /-- Reading failed inside the record that started at this line. -/
  | readInput (line : Nat) (cause : String)
deriving DecidableEq, Repr, Inhabited

namespace DecodeError

def kind : DecodeError → FailureKind
  | unterminatedQuote .. => .unterminatedQuote
  | readInput .. => .io

def line : DecodeError → Nat
  | unterminatedQuote line _ => line
  | readInput line _ => line

def message : DecodeError → String
  | unterminatedQuote line offset =>
      "Unterminated quoted field starting at line " ++ toString line ++
        " (byte offset " ++ toString offset ++ ")"
  | readInput line cause =>
      "IO error while decoding at line " ++ toString line ++ ": " ++ cause

end DecodeError

/-- The fields of one record and the physical line on which it starts. -/
structure Row (α : Type) where
  fields : List α
  line : Nat
deriving DecidableEq, Repr, Inhabited

namespace Row

def map {α β : Type} (f : α → β) (row : Row α) : Row β :=
  ⟨row.fields.map f, row.line⟩

end Row

/-- One decoded item. -/
inductive Item (α : Type) where
  | row (row : Row α)
  | blank
deriving DecidableEq, Repr, Inhabited

namespace Item

def map {α β : Type} (f : α → β) : Item α → Item β
  | .row r => .row (r.map f)
  | .blank => .blank

def isBlank {α : Type} : Item α → Bool
  | .row _ => false
  | .blank => true

end Item

structure Decoder where
  /-- What is still to be read. -/
  input : List Delivery
  /-- The number of the next physical line. -/
  line : Nat := 1
  /-- How many bytes have been consumed. -/
  offset : Nat := 0
deriving DecidableEq, Repr, Inhabited

namespace Decoder

/-- A decoder at the front of a byte string whose first line has the given number. -/
def ofBytes (bytes : Bytes) (firstLine : Nat := 1) : Decoder :=
  { input := Delivery.ofBytes bytes, line := firstLine }

/--
Finish the record that started at `start`: while a quote is open, take further
lines.
-/
def readOn (d : Dialect) (start : Decoder) (scan : Scan) (line offset : Nat) :
    List Delivery → Except DecodeError (Row Bytes) × Decoder
  | [] =>
      if scan.isOpen then
        (.error (.unterminatedQuote start.line start.offset), ⟨[], line, offset⟩)
      else (.ok ⟨scan.fields, start.line⟩, ⟨[], line, offset⟩)
  | delivery :: later =>
      if scan.isOpen then
        match delivery with
        | .failure cause => (.error (.readInput start.line cause), ⟨later, line, offset⟩)
        | .line bytes =>
            readOn d start (scan.line d bytes) (line + 1) (offset + bytes.length) later
      else (.ok ⟨scan.fields, start.line⟩, ⟨delivery :: later, line, offset⟩)

/-- The next item with its fields as bytes; `none` at the end of the input. -/
def nextRaw (d : Dialect) (decoder : Decoder) :
    Option (Except DecodeError (Item Bytes)) × Decoder :=
  match decoder.input with
  | [] => (none, decoder)
  | .failure cause :: later =>
      (some (.error (.readInput decoder.line cause)), { decoder with input := later })
  | .line bytes :: later =>
      let line := decoder.line + 1
      let offset := decoder.offset + bytes.length
      if bytes.stripTerminator.isEmpty then (some (.ok .blank), ⟨later, line, offset⟩)
      else
        let (result, after) := readOn d decoder (Scan.line d {} bytes) line offset later
        (some (result.map .row), after)

/-- The next item; `none` at the end of the input. -/
def next (d : Dialect) (decoder : Decoder) :
    Option (Except DecodeError (Item String)) × Decoder :=
  let (item, after) := decoder.nextRaw d
  (item.map (·.map (·.map Utf8.decodeLossy)), after)

theorem readOn_length (d : Dialect) (start : Decoder) (scan : Scan) (line offset : Nat)
    (input : List Delivery) :
    (readOn d start scan line offset input).2.input.length ≤ input.length := by
  fun_induction readOn d start scan line offset input with
  | case1 => simp
  | case2 => simp
  | case3 => simp
  | case4 scan line offset later isOpen bytes ih => simp; omega
  | case5 => simp

/-- Every item shortens the input. -/
theorem nextRaw_length {d : Dialect} {decoder after : Decoder}
    {item : Except DecodeError (Item Bytes)} (found : decoder.nextRaw d = (some item, after)) :
    after.input.length < decoder.input.length := by
  unfold nextRaw at found
  split at found
  · simp at found
  · rename_i cause later input
    cases found
    simp [input]
  · rename_i bytes later input
    simp only at found
    split at found
    · cases found
      simp [input]
    · have shorter := readOn_length d decoder (Scan.line d {} bytes) (decoder.line + 1)
        (decoder.offset + bytes.length) later
      cases found
      simp only [input, List.length_cons]
      omega

/-- Every item shortens the input. -/
theorem next_length {d : Dialect} {decoder after : Decoder}
    {item : Except DecodeError (Item String)} (found : decoder.next d = (some item, after)) :
    after.input.length < decoder.input.length := by
  unfold next at found
  cases raw : decoder.nextRaw d with
  | mk item' after' =>
      rw [raw] at found
      cases item' with
      | none => simp at found
      | some result =>
          cases found
          exact nextRaw_length raw

/-- Every item up to and including the first error, and the decoder behind them. -/
def records (d : Dialect) (decoder : Decoder) :
    List (Except DecodeError (Item String)) × Decoder :=
  match _ : decoder.next d with
  | (none, after) => ([], after)
  | (some (.error e), after) => ([.error e], after)
  | (some (.ok item), after) =>
      let (items, last) := after.records d
      (.ok item :: items, last)
termination_by decoder.input.length
decreasing_by exact next_length ‹_›

/-- The next row, blank lines passed over; `none` at the end of the input. -/
def nextRow (d : Dialect) (decoder : Decoder) :
    Except DecodeError (Option (Row String)) × Decoder :=
  match _ : decoder.next d with
  | (none, after) => (.ok none, after)
  | (some (.error e), after) => (.error e, after)
  | (some (.ok (.row row)), after) => (.ok (some row), after)
  | (some (.ok .blank), after) => after.nextRow d
termination_by decoder.input.length
decreasing_by exact next_length ‹_›

end Decoder

end CsvImport

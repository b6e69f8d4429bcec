import CsvImport.Dialect

/-!
# Field states

Where a byte stands relative to the field it belongs to.  The decoder and the
chunk planner move through the same states.
-/

namespace CsvImport

inductive FieldState where
  | fieldStart
  | unquoted
  | quoted
  | quoteInQuoted
deriving DecidableEq, Repr, Inhabited

namespace FieldState

def next (d : Dialect) (state : FieldState) (b : UInt8) : FieldState :=
  match state with
  | .quoted => if b = d.quote then .quoteInQuoted else .quoted
  | .fieldStart =>
      if b = d.delimiter then .fieldStart else if b = d.quote then .quoted else .unquoted
  | .unquoted => if b = d.delimiter then .fieldStart else .unquoted
  | .quoteInQuoted =>
      if b = d.delimiter then .fieldStart else if b = d.quote then .quoted else .unquoted

end FieldState

structure Scan where
  state : FieldState := .fieldStart
  /-- The bytes of the current field, last byte first. -/
  field : Bytes := []
  /-- The fields already closed, last field first. -/
  closed : List Bytes := []
deriving DecidableEq, Repr, Inhabited

namespace Scan

def push (scan : Scan) (b : UInt8) : Scan :=
  { scan with field := b :: scan.field }

def close (scan : Scan) : Scan :=
  { scan with field := [], closed := scan.field.reverse :: scan.closed }

/--
Whether the byte belongs to the content of a field: everything inside quotes but
a quote, and outside everything but a delimiter and an opening quote.
-/
def keeps (d : Dialect) (state : FieldState) (b : UInt8) : Bool :=
  match state with
  | .quoted => b != d.quote
  | .fieldStart => b != d.delimiter && b != d.quote
  | .unquoted => b != d.delimiter
  | .quoteInQuoted => b != d.delimiter

def closes (d : Dialect) (state : FieldState) (b : UInt8) : Bool :=
  state != .quoted && b == d.delimiter

/-- Take one byte that does not end the record. -/
def step (d : Dialect) (scan : Scan) (b : UInt8) : Scan :=
  let moved := { scan with state := scan.state.next d b }
  if closes d scan.state b then moved.close
  else if keeps d scan.state b then moved.push b
  else moved

@[simp]
theorem step_state (d : Dialect) (scan : Scan) (b : UInt8) :
    (scan.step d b).state = scan.state.next d b := by
  unfold step
  split
  · rfl
  · split <;> rfl

/-- Whether the byte `b`, followed by `later`, ends a record outside quotes. -/
def endsRecord (b : UInt8) (later : Bytes) : Bool :=
  b == Bytes.lf || (b == Bytes.cr && later.head? == some Bytes.lf)

/-- Take one physical line, up to where it ends the record. -/
def line (d : Dialect) (scan : Scan) : Bytes → Scan
  | [] => scan
  | b :: later =>
      if scan.state ≠ .quoted ∧ endsRecord b later then scan
      else line d (scan.step d b) later

def isOpen (scan : Scan) : Bool :=
  scan.state == .quoted

def fields (scan : Scan) : List Bytes :=
  scan.close.closed.reverse

end Scan

end CsvImport

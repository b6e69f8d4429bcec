import CsvImport.Bytes

/-!
# Deliveries

A decoder takes its input one physical line at a time.  A delivery is what one
attempt to read a line yields: the line, or a failure, which loses the bytes of
the line read so far.

The bytes and failures of a source form a list of signals.  `ofSignals` cuts
signals into deliveries directly; `Buffer.deliveries` does so through a buffer of a
given capacity that is refilled piece by piece.
-/

namespace CsvImport

/-- A byte of a source, or a failure to read on. -/
inductive Signal where
  | byte (b : UInt8)
  | failure (cause : String)
deriving DecidableEq, Repr, Inhabited

namespace Signal

/--
The bytes from position `here` on, with one failure before the byte at each of
the sorted positions `failing`.
-/
def interleave (cause : String) (here : Nat) (failing : List Nat) : Bytes → List Signal
  | [] => (failing.takeWhile (· ≤ here)).map fun _ => .failure cause
  | b :: rest =>
      ((failing.takeWhile (· ≤ here)).map fun _ => .failure cause) ++
        .byte b :: interleave cause (here + 1) (failing.dropWhile (· ≤ here)) rest

end Signal

/-- The outcome of one attempt to read a physical line. -/
inductive Delivery where
  | line (bytes : Bytes)
  | failure (cause : String)
deriving DecidableEq, Repr, Inhabited

namespace Delivery

def ofBytes (bytes : Bytes) : List Delivery :=
  bytes.lines.map .line

/-- The line gathered so far, last byte first, as the last delivery of an input. -/
def rest (gathered : Bytes) : List Delivery :=
  if gathered.isEmpty then [] else [.line gathered.reverse]

/-- The deliveries of a list of signals, given the line gathered so far, last byte first. -/
def ofSignalsFrom (gathered : Bytes) : List Signal → List Delivery
  | [] => rest gathered
  | .failure cause :: later => .failure cause :: ofSignalsFrom [] later
  | .byte b :: later =>
      if b = Bytes.lf then .line (b :: gathered).reverse :: ofSignalsFrom [] later
      else ofSignalsFrom (b :: gathered) later

def ofSignals (signals : List Signal) : List Delivery :=
  ofSignalsFrom [] signals

end Delivery

/-- One refill of a buffer: a run of bytes, or a failure. -/
inductive Refill where
  | bytes (run : Bytes)
  | failure (cause : String)
deriving DecidableEq, Repr, Inhabited

namespace Buffer

/-- At most `room` bytes from the front of the signals, and the signals behind them. -/
def takeRun : Nat → List Signal → Bytes × List Signal
  | room + 1, .byte b :: later =>
      let (run, behind) := takeRun room later
      (b :: run, behind)
  | _, signals => ([], signals)

theorem takeRun_length (room : Nat) (signals : List Signal) :
    (takeRun room signals).2.length ≤ signals.length := by
  fun_induction takeRun room signals with
  | case1 room b later run behind eq ih => simp_all; omega
  | case2 => simp

def refills (capacity : Nat) (signals : List Signal) : List Refill :=
  match capacity, signals with
  | 0, _ => []
  | _, [] => []
  | _, .failure cause :: later => .failure cause :: refills capacity later
  | room + 1, .byte b :: later =>
      .bytes (b :: (takeRun room later).1) :: refills capacity (takeRun room later).2
termination_by signals.length
decreasing_by
  · simp
  · have shorter := takeRun_length room later
    simp; omega

/--
The complete lines that a run of bytes yields, and the line then gathered, last
byte first.
-/
def cut (gathered : Bytes) : Bytes → List Bytes × Bytes
  | [] => ([], gathered)
  | b :: later =>
      if b = Bytes.lf then
        let (whole, behind) := cut [] later
        ((b :: gathered).reverse :: whole, behind)
      else cut (b :: gathered) later

/-- The deliveries of a list of refills, given the line gathered so far, last byte first. -/
def deliveriesFrom (gathered : Bytes) : List Refill → List Delivery
  | [] => Delivery.rest gathered
  | .failure cause :: later => .failure cause :: deliveriesFrom [] later
  | .bytes run :: later =>
      let (whole, behind) := cut gathered run
      whole.map Delivery.line ++ deliveriesFrom behind later

def deliveries (capacity : Nat) (signals : List Signal) : List Delivery :=
  deliveriesFrom [] (refills capacity signals)

end Buffer

end CsvImport

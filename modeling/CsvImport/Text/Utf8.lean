import CsvImport.Bytes

/-!
# UTF-8

Text is written as UTF-8 and read back by a machine that takes one byte at a
time.  Reading has two forms: `decode?` refuses ill-formed input, and
`decodeLossy` writes U+FFFD for each maximal ill-formed piece.
-/

namespace CsvImport

namespace Utf8

def encode (text : String) : Bytes :=
  text.toList.flatMap String.utf8EncodeChar

def replacement : Char := '\uFFFD'

/--
A sequence that has begun: the value gathered so far, how many continuation
bytes are missing, and the range in which the next one has to lie.
-/
structure Open where
  value : Nat
  missing : Nat
  low : UInt8
  high : UInt8

/-- Between two characters, or inside a sequence. -/
inductive State where
  | between
  | inside (open_ : Open)

inductive Output where
  | char (c : Char)
  | illFormed

def start (b : UInt8) : State × List Output :=
  if b < 0x80 then (.between, [.char (Char.ofNat b.toNat)])
  else if 0xC2 ≤ b ∧ b ≤ 0xDF then (.inside ⟨b.toNat - 0xC0, 1, 0x80, 0xBF⟩, [])
  else if b = 0xE0 then (.inside ⟨0, 2, 0xA0, 0xBF⟩, [])
  else if b = 0xED then (.inside ⟨0xD, 2, 0x80, 0x9F⟩, [])
  else if 0xE1 ≤ b ∧ b ≤ 0xEF then (.inside ⟨b.toNat - 0xE0, 2, 0x80, 0xBF⟩, [])
  else if b = 0xF0 then (.inside ⟨0, 3, 0x90, 0xBF⟩, [])
  else if 0xF1 ≤ b ∧ b ≤ 0xF3 then (.inside ⟨b.toNat - 0xF0, 3, 0x80, 0xBF⟩, [])
  else if b = 0xF4 then (.inside ⟨4, 3, 0x80, 0x8F⟩, [])
  else (.between, [.illFormed])

/-- One step of the machine: a byte that does not continue a sequence starts afresh. -/
def step (state : State) (b : UInt8) : State × List Output :=
  match state with
  | .between => start b
  | .inside seq =>
      if seq.low ≤ b ∧ b ≤ seq.high then
        let value := seq.value * 64 + (b.toNat - 0x80)
        if seq.missing = 1 then (.between, [.char (Char.ofNat value)])
        else (.inside ⟨value, seq.missing - 1, 0x80, 0xBF⟩, [])
      else
        let (after, outputs) := start b
        (after, .illFormed :: outputs)

def finish : State → List Output
  | .between => []
  | .inside _ => [.illFormed]

def outputs (state : State) : Bytes → List Output
  | [] => finish state
  | b :: rest =>
      let (after, out) := step state b
      out ++ outputs after rest

/-- The character of an output, with U+FFFD for an ill-formed piece. -/
def Output.toChar : Output → Char
  | .char c => c
  | .illFormed => replacement

def Output.toChar? : Output → Option Char
  | .char c => some c
  | .illFormed => none

/-- The text of a byte string, every ill-formed piece replaced by U+FFFD. -/
def decodeLossy (bytes : Bytes) : String :=
  String.ofList ((outputs .between bytes).map Output.toChar)

def decode? (bytes : Bytes) : Option String :=
  ((outputs .between bytes).mapM Output.toChar?).map String.ofList

end Utf8

end CsvImport

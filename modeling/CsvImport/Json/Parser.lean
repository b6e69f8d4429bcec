import CsvImport.Json.Value
import CsvImport.Text.Hex

/-!
# Reading JSON

Each reader takes a list of characters and returns what it read together with
the characters behind it.  `parse?` reads one value and nothing but white space
around it.
-/

namespace CsvImport

namespace Json

def isSpace (c : Char) : Bool :=
  c == ' ' || c == '\n' || c == '\t' || c == '\r'

def skipSpace (chars : List Char) : List Char :=
  chars.dropWhile isSpace

def simpleEscape? (c : Char) : Option Char :=
  if c = '"' then some '"'
  else if c = '\\' then some '\\'
  else if c = '/' then some '/'
  else if c = 'b' then some (Char.ofNat 8)
  else if c = 'f' then some (Char.ofNat 12)
  else if c = 'n' then some '\n'
  else if c = 'r' then some '\r'
  else if c = 't' then some '\t'
  else none

/-- What a string holds: characters, and the code units of escapes that are half a pair. -/
inductive Piece where
  | char (c : Char)
  | unit (n : Nat)

/-- The pieces of a string behind its opening quote, and the characters behind its closing one. -/
def stringPieces? : List Char → Option (List Piece × List Char)
  | [] => none
  | '"' :: rest => some ([], rest)
  | '\\' :: 'u' :: a :: b :: c :: d :: rest => do
      let n ← Hex.number? [a, b, c, d]
      let (pieces, behind) ← stringPieces? rest
      if 0xD800 ≤ n ∧ n < 0xE000 then return (.unit n :: pieces, behind)
      else return (.char (Char.ofNat n) :: pieces, behind)
  | '\\' :: c :: rest => do
      let e ← simpleEscape? c
      let (pieces, behind) ← stringPieces? rest
      return (.char e :: pieces, behind)
  | c :: rest =>
      if c.toNat < 32 ∨ c = '\\' then none
      else do
        let (pieces, behind) ← stringPieces? rest
        return (.char c :: pieces, behind)

/-- The characters of a string, each high half of a pair joined with the low half behind it. -/
def joinPieces? : List Piece → Option (List Char)
  | [] => some []
  | .char c :: rest => (joinPieces? rest).map (c :: ·)
  | .unit high :: .unit low :: rest =>
      if high < 0xDC00 ∧ 0xDC00 ≤ low then
        (joinPieces? rest).map
          (Char.ofNat (0x10000 + (high - 0xD800) * 0x400 + (low - 0xDC00)) :: ·)
      else none
  | .unit _ :: _ => none

def string? (chars : List Char) : Option (Value × List Char) := do
  let (pieces, behind) ← stringPieces? chars
  match joinPieces? pieces with
  | some text => return (.string (String.ofList text), behind)
  | none => return (.unpaired, behind)

def digits? (chars : List Char) : Option (List Char × List Char) :=
  let digits := chars.takeWhile Char.isDigit
  if digits.isEmpty then none else some (digits, chars.dropWhile Char.isDigit)

/-- A whole part: zero, or digits that do not begin with zero. -/
def whole? (chars : List Char) : Option (List Char × List Char) := do
  let (digits, behind) ← digits? chars
  match digits with
  | '0' :: _ :: _ => none
  | _ => return (digits, behind)

def fraction? : List Char → Option (List Char × List Char)
  | '.' :: rest => do
      let (digits, behind) ← digits? rest
      return ('.' :: digits, behind)
  | chars => some ([], chars)

def exponent? : List Char → Option (List Char × List Char)
  | e :: rest =>
      if e = 'e' ∨ e = 'E' then
        match rest with
        | sign :: more =>
            if sign = '+' ∨ sign = '-' then do
              let (digits, behind) ← digits? more
              return (e :: sign :: digits, behind)
            else do
              let (digits, behind) ← digits? rest
              return (e :: digits, behind)
        | [] => none
      else some ([], e :: rest)
  | [] => some ([], [])

def number? (chars : List Char) : Option (Value × List Char) := do
  let (sign, unsigned) := match chars with
    | '-' :: rest => (['-'], rest)
    | _ => ([], chars)
  let (whole, behind) ← whole? unsigned
  let (fraction, behind) ← fraction? behind
  let (exponent, behind) ← exponent? behind
  return (.number (String.ofList (sign ++ whole ++ fraction ++ exponent)), behind)

/-- An object of members whose names may be no texts. -/
def objectOf (members : List (Option String × Value)) : Value :=
  match members.mapM fun (name, value) => name.map (·, value) with
  | some members => .object members
  | none => .misnamed

def afterWord? (word : String) (chars : List Char) : Option (List Char) :=
  word.toList.isPrefixOf? chars

mutual

/-- A value nested at most `fuel` deep and long. -/
def value? (fuel : Nat) (chars : List Char) : Option (Value × List Char) :=
  match fuel with
  | 0 => none
  | fuel + 1 =>
      match skipSpace chars with
      | '"' :: rest => string? rest
      | '[' :: rest =>
          match skipSpace rest with
          | ']' :: behind => some (.array [], behind)
          | _ => (items? fuel rest).map fun (items, behind) => (.array items, behind)
      | '\x7b' :: rest =>
          match skipSpace rest with
          | '\x7d' :: behind => some (.object [], behind)
          | _ => (members? fuel rest).map fun (members, behind) => (objectOf members, behind)
      | 'n' :: rest => (afterWord? "ull" rest).map fun behind => (.null, behind)
      | 't' :: rest => (afterWord? "rue" rest).map fun behind => (.bool true, behind)
      | 'f' :: rest => (afterWord? "alse" rest).map fun behind => (.bool false, behind)
      | other => number? other

def items? (fuel : Nat) (chars : List Char) : Option (List Value × List Char) :=
  match fuel with
  | 0 => none
  | fuel + 1 => do
      let (item, behind) ← value? fuel chars
      match skipSpace behind with
      | ',' :: rest =>
          let (more, behind) ← items? fuel rest
          return (item :: more, behind)
      | ']' :: behind => return ([item], behind)
      | _ => none

def members? (fuel : Nat) (chars : List Char) :
    Option (List (Option String × Value) × List Char) :=
  match fuel with
  | 0 => none
  | fuel + 1 =>
      match skipSpace chars with
      | '"' :: rest => do
          let (name, behind) ← string? rest
          let name := name.toText?
          let ':' :: rest := skipSpace behind | none
          let (value, behind) ← value? fuel rest
          match skipSpace behind with
          | ',' :: rest =>
              let (more, behind) ← members? fuel rest
              return ((name, value) :: more, behind)
          | '\x7d' :: behind => return ([(name, value)], behind)
          | _ => none
      | _ => none

end

def parse? (text : String) : Option Value := do
  let chars := text.toList
  let (value, behind) ← value? (2 * chars.length + 2) chars
  if (skipSpace behind).isEmpty then return value else none

end Json

end CsvImport

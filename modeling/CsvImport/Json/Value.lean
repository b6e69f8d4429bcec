/-!
# JSON values
-/

namespace CsvImport

namespace Json

/--
A JSON value.  A number keeps its literal; members keep their order.
`unpaired` is a string whose escapes name half of a surrogate pair, so that it
is no text, and `misnamed` an object that has such a string as a name.
-/
inductive Value where
  | null
  | bool (b : Bool)
  | number (literal : String)
  | string (text : String)
  | unpaired
  | array (items : List Value)
  | object (members : List (String × Value))
  | misnamed
deriving Inhabited

namespace Value

def digit? (c : Char) : Option Nat :=
  if '0' ≤ c ∧ c ≤ '9' then some (c.toNat - '0'.toNat) else none

/-- The number that a string of digits writes; no digits at all write none. -/
def natOfDigits? : List Char → Option Nat
  | [] => none
  | digits => do
      let values ← digits.mapM digit?
      return values.foldl (fun n d => 10 * n + d) 0

def maxWord : Nat := 18446744073709551615

/-- An unsigned number of 64 bits, written without sign, point and exponent. -/
def toNat? : Value → Option Nat
  | number literal => do
      let n ← natOfDigits? literal.toList
      if n ≤ maxWord then return n else none
  | _ => none

def toText? : Value → Option String
  | string text => some text
  | _ => none

def toBool? : Value → Option Bool
  | bool b => some b
  | _ => none

end Value

end Json

end CsvImport

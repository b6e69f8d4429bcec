import CsvImport.Config.Reader
import CsvImport.Json.Value

/-!
# JSON as a notation of configurations

A section is an object, or an array that holds the entries in order.
-/

namespace CsvImport

namespace Json

def member? (members : List (String × Value)) (name : String) : Option (Option Value) :=
  match members.filter fun entry => entry.1 == name with
  | [] => some none
  | [(_, value)] => some (some value)
  | _ => none

def entries? (names : List String) : Value → Option (List (Option Value))
  | .object members => names.mapM (member? members)
  | .array items =>
      if names.length < items.length then none
      else some (items.map some ++ List.replicate (names.length - items.length) none)
  | _ => none

/-- A choice: its name, or an object with the name and nothing under it. -/
def choice? : Value → Option String
  | .string name => some name
  | .object [(name, .null)] => some name
  | _ => none

def asItems? : Value → Option (List Value)
  | .array items => some items
  | _ => none

def present : Value → Option Value
  | .null => none
  | value => some value

def reader : Reader Value where
  text? := Value.toText?
  number? := Value.toNat?
  flag? := Value.toBool?
  choice? := choice?
  optional? value := some (present value)
  list? := asItems?
  entries? := entries?

end Json

end CsvImport

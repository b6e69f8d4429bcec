import CsvImport.Config.Reader
import CsvImport.Json.Value
import CsvImport.Yaml.Node

/-!
# YAML as a notation of configurations

A scalar is taken as what the place asks for: every scalar is a text, and a
plain one may also be a number, a flag or nothing at all.  Nothing at all is
an empty section and an empty list, too.
-/

namespace CsvImport

namespace Yaml

def standardTag (kind : String) : String :=
  "tag:yaml.org,2002:" ++ kind

/-- Whether a scalar may be other than a text: a plain one, or a literal one of the given tag. -/
def mayBe (kind : String) (tag : Option String) (style : ScalarStyle) : Bool :=
  style == .plain || (style == .literal && tag == some (standardTag kind))

/-- The value of a digit up to the letter `f`. -/
def digitIn? (base : Nat) (c : Char) : Option Nat := do
  let n ← Hex.value? c
  if n < base then return n else none

def natIn? (base : Nat) (digits : List Char) : Option Nat := do
  if digits.isEmpty then none
  else
    let values ← digits.mapM (digitIn? base)
    let n := values.foldl (fun n d => n * base + d) 0
    if n ≤ Json.Value.maxWord then return n else none

/-- Digits behind the mark of a base other than ten; they may have a sign of their own not. -/
def marked? (chars : List Char) : Option Nat :=
  match chars with
  | '0' :: 'x' :: digits => natIn? 16 digits
  | '0' :: 'o' :: digits => natIn? 8 digits
  | '0' :: 'b' :: digits => natIn? 2 digits
  | _ => none

def number? (text : String) : Option Nat :=
  let chars := match text.toList with
    | '+' :: rest => rest
    | all => all
  match marked? chars with
  | some n => some n
  | none =>
      match chars with
      | '0' :: _ :: _ => none
      | _ => natIn? 10 chars

def flag? (text : String) : Option Bool :=
  if ["true", "True", "TRUE"].contains text then some true
  else if ["false", "False", "FALSE"].contains text then some false
  else none

/-- Whether a plain scalar of the text says that there is nothing. -/
def isNullText (text : String) : Bool :=
  ["null", "Null", "NULL", "~"].contains text

def isEmptyPlain : Node → Bool
  | .scalar _ .plain text => text.isEmpty
  | _ => false

namespace Document

def text? (doc : Document) (node : Node) : Option String := do
  match ← doc.resolve? node with
  | .scalar _ _ text => return text
  | _ => none

def number? (doc : Document) (node : Node) : Option Nat := do
  match ← doc.resolve? node with
  | .scalar tag style text => if mayBe "int" tag style then Yaml.number? text else none
  | _ => none

def flag? (doc : Document) (node : Node) : Option Bool := do
  match ← doc.resolve? node with
  | .scalar tag style text => if mayBe "bool" tag style then Yaml.flag? text else none
  | _ => none

/-- A choice: its name as a text, or as the tag of a scalar that says nothing. -/
def choice? (doc : Document) (node : Node) : Option String := do
  match ← doc.resolve? node with
  | .scalar tag style text =>
      match (tag.getD "").toList with
      | '!' :: name =>
          if style == .plain && (text.isEmpty || isNullText text) then
            return String.ofList name
          else none
      | _ => return text
  | _ => none

def optional? (doc : Document) (node : Node) : Option (Option Node) := do
  match ← doc.resolve? node with
  | .scalar none .plain text =>
      return if text.isEmpty || isNullText text then none else some node
  | .scalar (some tag) .plain text =>
      if tag = standardTag "null" then
        if isNullText text then return none else none
      else return some node
  | _ => return some node

def list? (doc : Document) (node : Node) : Option (List Node) := do
  match ← doc.resolve? node with
  | .sequence _ items => return items
  | other => if isEmptyPlain other then return [] else none

/-- The value under a name; a name that stands twice is refused. -/
def member? (members : List (String × Node)) (name : String) : Option (Option Node) :=
  match members.filter fun entry => entry.1 == name with
  | [] => some none
  | [(_, value)] => some (some value)
  | _ => none

def entries? (doc : Document) (names : List String) (node : Node) :
    Option (List (Option Node)) := do
  match ← doc.resolve? node with
  | .mapping _ members =>
      let named ← members.mapM fun (key, value) => do return (← doc.text? key, value)
      names.mapM (member? named)
  | other => if isEmptyPlain other then return names.map fun _ => none else none

def reader (doc : Document) : Reader Node where
  text? := doc.text?
  number? := doc.number?
  flag? := doc.flag?
  choice? := doc.choice?
  optional? := doc.optional?
  list? := doc.list?
  entries? := doc.entries?

end Document

end Yaml

end CsvImport

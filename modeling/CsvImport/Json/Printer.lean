import CsvImport.Json.Value
import CsvImport.Text.Hex

/-!
# Printing JSON

The compact form: no white space between tokens, and in strings only the quote,
the backslash and the characters below U+0020 are escaped.
-/

namespace CsvImport

namespace Json

def escape (c : Char) : List Char :=
  if c = '"' then ['\\', '"']
  else if c = '\\' then ['\\', '\\']
  else if c = '\n' then ['\\', 'n']
  else if c = '\r' then ['\\', 'r']
  else if c = '\t' then ['\\', 't']
  else if c.toNat = 8 then ['\\', 'b']
  else if c.toNat = 12 then ['\\', 'f']
  else if c.toNat < 32 then
    ['\\', 'u', '0', '0', Hex.lower (c.toNat / 16), Hex.lower (c.toNat % 16)]
  else [c]

def quote (text : String) : List Char :=
  '"' :: (text.toList.flatMap escape ++ ['"'])

mutual

def renderChars : Value → List Char
  | .null => "null".toList
  | .bool true => "true".toList
  | .bool false => "false".toList
  | .number literal => literal.toList
  | .string text => quote text
  | .unpaired => quote "\uFFFD"
  | .array items => '[' :: (renderItems items ++ [']'])
  | .object members => '\x7b' :: (renderMembers members ++ ['\x7d'])
  | .misnamed => ['\x7b', '\x7d']

def renderItems : List Value → List Char
  | [] => []
  | [item] => renderChars item
  | item :: more => renderChars item ++ ',' :: renderItems more

def renderMembers : List (String × Value) → List Char
  | [] => []
  | [(name, value)] => quote name ++ ':' :: renderChars value
  | (name, value) :: more =>
      quote name ++ ':' :: (renderChars value ++ ',' :: renderMembers more)

end

def render (value : Value) : String :=
  String.ofList (renderChars value)

end Json

end CsvImport

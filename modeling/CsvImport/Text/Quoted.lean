import CsvImport.Text.Hex
import CsvImport.Text.Hidden

/-!
# Quoted text

Text shown between quotes in messages: the quote itself, the backslash and the
common controls have short escapes; every other character that is not shown is
written by its number in braces.
-/

namespace CsvImport

namespace Text

/-- The hexadecimal digits of a number, least digit first, at most `fuel` of them. -/
def hexDigits (fuel n : Nat) : List Char :=
  match fuel with
  | 0 => []
  | fuel + 1 =>
      Hex.lower (n % 16) :: (if n < 16 then [] else hexDigits fuel (n / 16))

def numbered (c : Char) : List Char :=
  '\\' :: 'u' :: '\x7b' :: ((hexDigits 6 c.toNat).reverse ++ ['\x7d'])

def escape (mark c : Char) : List Char :=
  if c.toNat = 0 then ['\\', '0']
  else if c = '\t' then ['\\', 't']
  else if c = '\r' then ['\\', 'r']
  else if c = '\n' then ['\\', 'n']
  else if c = '\\' then ['\\', '\\']
  else if c = mark then ['\\', mark]
  else if c.toNat < 32 then numbered c
  else if c.toNat < 127 then [c]
  else if c.toNat = 127 ∨ isHidden c then numbered c
  else [c]

def singleMark : Char := Char.ofNat 39

def doubleMark : Char := Char.ofNat 34

def quoted (text : String) : String :=
  String.ofList (doubleMark :: (text.toList.flatMap (escape doubleMark) ++ [doubleMark]))

def quotedChar (c : Char) : String :=
  String.ofList (singleMark :: (escape singleMark c ++ [singleMark]))

end Text

end CsvImport

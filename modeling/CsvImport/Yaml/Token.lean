import CsvImport.Text.Utf8
import CsvImport.Yaml.Scalar

/-!
# YAML tokens

A text becomes a flat list of tokens.  Indentation is written out: a block
collection begins with a token of its own and ends with `blockEnd`.  A key need
not be announced: when a `:` follows something that can be a key, the token
`key` is put in front of it.
-/

namespace CsvImport

namespace Yaml

inductive Token where
  | version (major minor : Nat)
  | tagHandle (handle expansion : String)
  | documentStart
  | documentEnd
  | blockSequenceStart
  | blockMappingStart
  | blockEnd
  | flowSequenceStart
  | flowSequenceEnd
  | flowMappingStart
  | flowMappingEnd
  | blockEntry
  | flowEntry
  | key
  | value
  | alias (name : String)
  | anchor (name : String)
  | tag (handle suffix : String)
  | scalar (style : ScalarStyle) (text : String)
deriving DecidableEq, Repr, Inhabited

/-- A place where a key may have begun. -/
structure PossibleKey where
  /-- Whether a text in which it is no key is malformed. -/
  required : Bool
  /-- How many tokens stand before it. -/
  position : Nat
  line : Nat
  column : Nat
  index : Nat
deriving Inhabited

structure Scan where
  cursor : Cursor
  /-- The tokens found, last token first. -/
  found : List Token := []
  /-- The column of the innermost block collection, -1 outside of all. -/
  indent : Int := -1
  /-- The columns of the collections around it. -/
  outerIndents : List Int := []
  /-- Whether a key may begin at the cursor. -/
  keyAllowed : Bool := true
  /-- The possible key in the innermost flow collection, or in the block outside of all. -/
  possibleKey : Option PossibleKey := none
  /-- The possible keys in the flow collections around it. -/
  outerKeys : List (Option PossibleKey) := []
deriving Inhabited

namespace Scan

def inFlow (scan : Scan) : Bool :=
  !scan.outerKeys.isEmpty

def push (scan : Scan) (token : Token) : Scan :=
  { scan with found := token :: scan.found }

def insertAt (scan : Scan) (position : Nat) (token : Token) : Scan :=
  let later := scan.found.length - position
  { scan with found := scan.found.take later ++ token :: scan.found.drop later }

def openBlock (scan : Scan) (column position : Nat) (token : Token) : Scan :=
  if !scan.inFlow && scan.indent < column then
    { scan.insertAt position token with
      indent := column
      outerIndents := scan.indent :: scan.outerIndents }
  else scan

/-- End the block collections deeper than a column, given the columns around them. -/
def closeBlocks (column : Int) (scan : Scan) : List Int → Scan
  | [] => scan
  | outer :: more =>
      if column < scan.indent then
        closeBlocks column { scan.push .blockEnd with indent := outer, outerIndents := more } more
      else scan

def closeTo (scan : Scan) (column : Int) : Scan :=
  if scan.inFlow then scan else closeBlocks column scan scan.outerIndents

/-- Give up the possible key; one that was required makes the text malformed. -/
def dropKey (scan : Scan) : Option Scan :=
  if (scan.possibleKey.map (·.required)).getD false then none
  else some { scan with possibleKey := none }

def noteKey (scan : Scan) : Option Scan :=
  if scan.keyAllowed then do
    let scan ← scan.dropKey
    return { scan with possibleKey := some {
      required := !scan.inFlow && scan.indent == scan.cursor.column
      position := scan.found.length
      line := scan.cursor.line
      column := scan.cursor.column
      index := scan.cursor.index } }
  else some scan

/-- The most characters that a key without an announcement may span. -/
def longestKey : Nat := 1024

def freshKey (cursor : Cursor) (possible : Option PossibleKey) : Option (Option PossibleKey) :=
  match possible with
  | none => some none
  | some place =>
      if place.line < cursor.line ∨ place.index + longestKey < cursor.index then
        if place.required then none else some none
      else some (some place)

/-- Give up the possible keys that the cursor has left behind. -/
def dropStaleKeys (scan : Scan) : Option Scan := do
  let possibleKey ← freshKey scan.cursor scan.possibleKey
  let outerKeys ← scan.outerKeys.mapM (freshKey scan.cursor)
  return { scan with possibleKey, outerKeys }

/-! ## White space and comments -/

def byteOrderMark : Char := '\uFEFF'

def skipSpace (fuel : Nat) (scan : Scan) : Scan :=
  match fuel with
  | 0 => scan
  | fuel + 1 =>
      let start :=
        if scan.cursor.index == 0 && scan.cursor.isAt byteOrderMark then scan.cursor.skip
        else scan.cursor
      let tabs := scan.inFlow || !scan.keyAllowed
      let after := start.skipWhile fun c => c == ' ' || (tabs && c == '\t')
      let after := if after.isAt '#' then after.skipWhile (fun c => !isBreak c) else after
      if after.isIn isBreak then
        skipSpace fuel { scan with
          cursor := after.readBreak.2
          keyAllowed := scan.keyAllowed || !scan.inFlow }
      else { scan with cursor := after }

/-! ## Names, tags and directives -/

/-- Whether the character may stand in the name of an anchor or a directive. -/
def isWordChar (c : Char) : Bool :=
  c.isAlphanum || c == '_' || c == '-'

def anchorName? (cursor : Cursor) : Option (String × Cursor) :=
  let (name, after) := cursor.skip.readWhile isWordChar
  let ended := after.isBlankEnd 0 ||
    after.isIn fun c => ['?', ':', ',', ']', '\x7d', '%', '@', Char.ofNat 96].contains c
  if name.isEmpty || !ended then none else some (String.ofList name, after)

/-- Whether the character may stand in a tag; `full` allows those that end one in a flow. -/
def isTagChar (full : Bool) (c : Char) : Bool :=
  isWordChar c || [';', '/', '?', ':', '@', '&', '=', '+', '$', '.', '!', '~', '*',
    singleMark, '(', ')'].contains c || (full && [',', '[', ']'].contains c)

/-- The bytes of a tag, with percent escapes resolved. -/
def tagBytes (full : Bool) (fuel : Nat) (cursor : Cursor) : Option (Bytes × Cursor) :=
  match fuel with
  | 0 => none
  | fuel + 1 =>
      match cursor.head? with
      | none => some ([], cursor)
      | some c =>
          if c = '%' then do
            let digits := (cursor.rest.drop 1).take 2
            if digits.length < 2 then none
            else
              let n ← Hex.number? digits
              let (bytes, after) ← tagBytes full fuel (cursor.skipMany 3)
              return (UInt8.ofNat n :: bytes, after)
          else if isTagChar full c then do
            let (bytes, after) ← tagBytes full fuel cursor.skip
            return (String.utf8EncodeChar c ++ bytes, after)
          else some ([], cursor)

def tagText? (full : Bool) (before : List Char) (cursor : Cursor) : Option (String × Cursor) := do
  let (bytes, after) ← tagBytes full (cursor.rest.length + 1) cursor
  let text ← Utf8.decode? bytes
  return (String.ofList before ++ text, after)

/-- A tag handle: `!`, `!name` or `!name!`. -/
def tagHandle? (cursor : Cursor) : Option (List Char × Cursor) :=
  if cursor.isAt '!' then
    let (name, after) := cursor.skip.readWhile isWordChar
    if after.isAt '!' then some ('!' :: (name ++ ['!']), after.skip)
    else some ('!' :: name, after)
  else none

def tag? (inFlow : Bool) (cursor : Cursor) : Option (Token × Cursor) := do
  let (token, after) : Token × Cursor ←
    if cursor.ahead? 1 == some '<' then do
      let (suffix, after) ← tagText? true [] cursor.skip.skip
      if suffix.isEmpty || !after.isAt '>' then none
      else return (Token.tag "" suffix, after.skip)
    else do
      let (handle, after) ← tagHandle? cursor
      if 1 < handle.length && handle.getLast? == some '!' then do
        let (suffix, after) ← tagText? false [] after
        if suffix.isEmpty then none else return (Token.tag (String.ofList handle) suffix, after)
      else do
        let (suffix, after) ← tagText? false handle.tail after
        if suffix.isEmpty then return (Token.tag "" "!", after)
        else return (Token.tag "!" suffix, after)
  if after.isBlankEnd 0 || (inFlow && after.isAt ',') then return (token, after) else none

def versionPart? (cursor : Cursor) : Option (Nat × Cursor) :=
  let (digits, after) := cursor.readWhile Char.isDigit
  if digits.isEmpty || 9 < digits.length then none
  else some (digits.foldl (fun n c => n * 10 + (c.toNat - 48)) 0, after)

def version? (cursor : Cursor) : Option (Token × Cursor) := do
  let (major, after) ← versionPart? (cursor.skipWhile isBlank)
  if after.isAt '.' then do
    let (minor, after) ← versionPart? after.skip
    return (.version major minor, after)
  else none

def handleDirective? (cursor : Cursor) : Option (Token × Cursor) := do
  let (handle, after) ← tagHandle? (cursor.skipWhile isBlank)
  if (1 < handle.length && handle.getLast? != some '!') || !after.isIn isBlank then none
  else do
    let (expansion, after) ← tagText? true [] (after.skipWhile isBlank)
    if expansion.isEmpty || !after.isBlankEnd 0 then none
    else return (.tagHandle (String.ofList handle) expansion, after)

def directive? (cursor : Cursor) : Option (Token × Cursor) := do
  let (name, after) := cursor.skip.readWhile isWordChar
  if !after.isBlankEnd 0 then none
  else
    let (token, after) : Token × Cursor ←
      if name = "YAML".toList then version? after
      else if name = "TAG".toList then handleDirective? after
      else none
    let after := after.skipWhile isBlank
    let after := if after.isAt '#' then after.skipWhile (fun c => !isBreak c) else after
    if after.isLineEnd then return (token, after.readBreak.2) else none

/-! ## One token -/

def atEnd (scan : Scan) : Option Scan :=
  (scan.closeTo (-1)).dropKey

def atDirective (scan : Scan) : Option Scan := do
  let scan ← (scan.closeTo (-1)).dropKey
  let (token, cursor) ← directive? scan.cursor
  return { scan.push token with cursor, keyAllowed := false }

def atDocumentMarker (scan : Scan) : Option Scan := do
  let scan ← (scan.closeTo (-1)).dropKey
  let token := if scan.cursor.isAt '-' then Token.documentStart else .documentEnd
  return { scan.push token with cursor := scan.cursor.skipMany 3, keyAllowed := false }

def atFlowStart (scan : Scan) (token : Token) : Option Scan := do
  let scan ← scan.noteKey
  return { scan.push token with
    cursor := scan.cursor.skip
    keyAllowed := true
    possibleKey := none
    outerKeys := scan.possibleKey :: scan.outerKeys }

def atFlowEnd (scan : Scan) (token : Token) : Option Scan := do
  let scan ← scan.dropKey
  let scan := { scan.push token with cursor := scan.cursor.skip, keyAllowed := false }
  match scan.outerKeys with
  | [] => return scan
  | outer :: more => return { scan with possibleKey := outer, outerKeys := more }

def atFlowEntry (scan : Scan) : Option Scan := do
  let scan ← scan.dropKey
  return { scan.push .flowEntry with cursor := scan.cursor.skip, keyAllowed := true }

def atBlockEntry (scan : Scan) : Option Scan := do
  if !scan.inFlow && !scan.keyAllowed then none
  else
    let scan ← (scan.openBlock scan.cursor.column scan.found.length .blockSequenceStart).dropKey
    return { scan.push .blockEntry with cursor := scan.cursor.skip, keyAllowed := true }

def atKey (scan : Scan) : Option Scan := do
  if !scan.inFlow && !scan.keyAllowed then none
  else
    let scan ← (scan.openBlock scan.cursor.column scan.found.length .blockMappingStart).dropKey
    return { scan.push .key with cursor := scan.cursor.skip, keyAllowed := !scan.inFlow }

def atValue (scan : Scan) : Option Scan :=
  let finish (scan : Scan) (keyAllowed : Bool) : Scan :=
    { scan.push .value with cursor := scan.cursor.skip, possibleKey := none, keyAllowed }
  match scan.possibleKey with
  | some place =>
      let announced := scan.insertAt place.position .key
      some (finish (announced.openBlock place.column place.position .blockMappingStart) false)
  | none =>
      if scan.inFlow then some (finish scan false)
      else if !scan.keyAllowed then none
      else
        let scan := scan.openBlock scan.cursor.column scan.found.length .blockMappingStart
        some (finish scan true)

def atAnchor (scan : Scan) (token : String → Token) : Option Scan := do
  let scan ← scan.noteKey
  let (name, cursor) ← anchorName? scan.cursor
  return { scan.push (token name) with cursor, keyAllowed := false }

def atTag (scan : Scan) : Option Scan := do
  let scan ← scan.noteKey
  let (token, cursor) ← tag? scan.inFlow scan.cursor
  return { scan.push token with cursor, keyAllowed := false }

def atBlockScalar (scan : Scan) (style : ScalarStyle) : Option Scan := do
  let scan ← scan.dropKey
  let (text, cursor) ← block? (style == .literal) scan.indent scan.cursor
  return { scan.push (.scalar style (String.ofList text)) with cursor, keyAllowed := true }

def atQuoted (scan : Scan) (style : ScalarStyle) : Option Scan := do
  let scan ← scan.noteKey
  let (text, cursor) ← quoted? (style == .singleQuoted) scan.cursor
  return { scan.push (.scalar style (String.ofList text)) with cursor, keyAllowed := false }

def atPlain (scan : Scan) : Option Scan := do
  let scan ← scan.noteKey
  let (text, broken, cursor) ← plain? scan.inFlow (scan.indent + 1).toNat scan.cursor
  return { scan.push (.scalar .plain (String.ofList text)) with cursor, keyAllowed := broken }

/-- The characters that begin something other than a plain scalar. -/
def indicators : List Char :=
  ['-', '?', ':', ',', '[', ']', '\x7b', '\x7d', '#', '&', '*', '!', '|', '>', singleMark, '"',
    '%', '@', Char.ofNat 96]

/-- Whether a plain scalar begins at the cursor with the character `c`. -/
def beginsPlain (scan : Scan) (c : Char) : Bool :=
  let next := scan.cursor.ahead? 1
  (!isBlank c && !isBreak c && !indicators.contains c) ||
    (c == '-' && !(next.map isBlank).getD false) ||
    (!scan.inFlow && (c == '?' || c == ':') && !scan.cursor.isBlankEnd 1)

def atChar (scan : Scan) (c : Char) : Option Scan :=
  let standsAlone := scan.cursor.isBlankEnd 1
  if scan.cursor.column == 0 && c == '%' then scan.atDirective
  else if scan.cursor.isDocumentMarker then scan.atDocumentMarker
  else if c = '[' then scan.atFlowStart .flowSequenceStart
  else if c = '\x7b' then scan.atFlowStart .flowMappingStart
  else if c = ']' then scan.atFlowEnd .flowSequenceEnd
  else if c = '\x7d' then scan.atFlowEnd .flowMappingEnd
  else if c = ',' then scan.atFlowEntry
  else if c == '-' && standsAlone then scan.atBlockEntry
  else if c == '?' && (scan.inFlow || standsAlone) then scan.atKey
  else if c == ':' && (scan.inFlow || standsAlone) then scan.atValue
  else if c = '*' then scan.atAnchor .alias
  else if c = '&' then scan.atAnchor .anchor
  else if c = '!' then scan.atTag
  else if c == '|' && !scan.inFlow then scan.atBlockScalar .literal
  else if c == '>' && !scan.inFlow then scan.atBlockScalar .folded
  else if c = singleMark then scan.atQuoted .singleQuoted
  else if c = '"' then scan.atQuoted .doubleQuoted
  else if scan.beginsPlain c then scan.atPlain
  else none

def toEnd (fuel : Nat) (scan : Scan) : Option Scan :=
  match fuel with
  | 0 => none
  | fuel + 1 => do
      let scan ← (scan.skipSpace (scan.cursor.rest.length + 1)).dropStaleKeys
      let scan := scan.closeTo scan.cursor.column
      match scan.cursor.head? with
      | none => scan.atEnd
      | some c =>
          let next ← scan.atChar c
          toEnd fuel next

end Scan

def Token.ofText? (text : String) : Option (List Token) :=
  let chars := match text.toList with
    | c :: rest => if c = Scan.byteOrderMark then rest else c :: rest
    | [] => []
  if chars.all isAllowed then
    (Scan.toEnd (chars.length + 1) { cursor := { rest := chars } }).map fun scan =>
      scan.found.reverse
  else none

end Yaml

end CsvImport

import CsvImport.Text.Hex
import CsvImport.Yaml.Cursor

/-!
# YAML scalars

The readers of the five scalar styles.  Each starts at the first character of
the scalar and returns its text and the cursor behind it, or nothing if the text
is malformed.
-/

namespace CsvImport

namespace Yaml

inductive ScalarStyle where
  | plain
  | singleQuoted
  | doubleQuoted
  | literal
  | folded
deriving DecidableEq, Repr, Inhabited

/-- White space met inside a scalar that has not been added to its text yet. -/
structure Gap where
  /-- Blanks on the current line, before any line break. -/
  blanks : List Char := []
  /-- Whether a line break was met. -/
  broken : Bool := false
  /-- The first line break. -/
  first : List Char := []
  /-- The line breaks behind the first. -/
  later : List Char := []

namespace Gap

/-- Line breaks as text: a single line feed becomes a space, more lose the first. -/
def fold (gap : Gap) : List Char :=
  if gap.first == ['\n'] then
    if gap.later.isEmpty then [' '] else gap.later
  else gap.first ++ gap.later

def text (gap : Gap) : List Char :=
  if gap.broken then gap.fold else gap.blanks

/--
Read white space.  In a plain scalar behind a line break a tab before the
column `indent` is refused.
-/
def read (indent : Option Nat) (fuel : Nat) (cursor : Cursor) (gap : Gap) :
    Option (Gap × Cursor) :=
  match fuel with
  | 0 => none
  | fuel + 1 =>
      match cursor.head? with
      | none => some (gap, cursor)
      | some c =>
          if isBlank c then
            if gap.broken then
              match indent with
              | some least =>
                  if c = '\t' ∧ cursor.column < least then none
                  else read indent fuel cursor.skip gap
              | none => read indent fuel cursor.skip gap
            else read indent fuel cursor.skip { gap with blanks := gap.blanks ++ [c] }
          else if isBreak c then
            let (text, after) := cursor.readBreak
            if gap.broken then read indent fuel after { gap with later := gap.later ++ text }
            else read indent fuel after { gap with blanks := [], broken := true, first := text }
          else some (gap, cursor)

end Gap

/-! ## Plain scalars -/

def plainEnds (flow : Bool) (cursor : Cursor) : Bool :=
  (cursor.isAt ':' && cursor.isBlankEnd 1) ||
    (flow && cursor.isIn fun c => [',', '[', ']', '\x7b', '\x7d'].contains c)

/-- Whether a colon stands at the cursor that a flow collection does not allow there. -/
def plainColonMisplaced (flow : Bool) (cursor : Cursor) : Bool :=
  flow && cursor.isAt ':' &&
    match cursor.ahead? 1 with
    | some c => [',', '?', '[', ']', '\x7b', '\x7d'].contains c
    | none => false

def plainRun (flow : Bool) (fuel : Nat) (cursor : Cursor) : Option (List Char × Cursor) :=
  match fuel with
  | 0 => none
  | fuel + 1 =>
      if cursor.isBlankEnd 0 then some ([], cursor)
      else if plainColonMisplaced flow cursor then none
      else if plainEnds flow cursor then some ([], cursor)
      else
        match cursor.head? with
        | none => some ([], cursor)
        | some c => (plainRun flow fuel cursor.skip).map fun (run, after) => (c :: run, after)

/--
The rest of a plain scalar behind the text `done` and a gap.  The answer tells
also whether a line break stands behind the scalar.
-/
def plainFrom (flow : Bool) (indent fuel : Nat) (done : List Char) (gap : Gap) (cursor : Cursor) :
    Option (List Char × Bool × Cursor) :=
  match fuel with
  | 0 => none
  | fuel + 1 =>
      if cursor.isDocumentMarker || cursor.isAt '#' then some (done, gap.broken, cursor)
      else do
        let (run, after) ← plainRun flow (cursor.rest.length + 1) cursor
        let (done, gap) := if run.isEmpty then (done, gap) else (done ++ gap.text ++ run, {})
        if !after.isIn (fun c => isBlank c || isBreak c) then return (done, gap.broken, after)
        else
          let (gap, after) ← gap.read (some indent) (after.rest.length + 1) after
          if !flow && after.column < indent then return (done, gap.broken, after)
          else plainFrom flow indent fuel done gap after

/-- A plain scalar; `indent` is the least column of its further lines. -/
def plain? (flow : Bool) (indent : Nat) (cursor : Cursor) : Option (List Char × Bool × Cursor) :=
  plainFrom flow indent (cursor.rest.length + 1) [] {} cursor

/-! ## Quoted scalars -/

def letterEscape? (c : Char) : Option Char :=
  match c with
  | '0' => some (Char.ofNat 0)
  | 'a' => some (Char.ofNat 7)
  | 'b' => some (Char.ofNat 8)
  | 't' => some '\t'
  | '\t' => some '\t'
  | 'n' => some '\n'
  | 'v' => some (Char.ofNat 11)
  | 'f' => some (Char.ofNat 12)
  | 'r' => some '\r'
  | 'e' => some (Char.ofNat 27)
  | ' ' => some ' '
  | '"' => some '"'
  | '/' => some '/'
  | '\\' => some '\\'
  | 'N' => some nextLine
  | '_' => some '\u00A0'
  | 'L' => some lineSeparator
  | 'P' => some paragraphSeparator
  | _ => none

def numericEscape? (c : Char) : Option Nat :=
  match c with
  | 'x' => some 2
  | 'u' => some 4
  | 'U' => some 8
  | _ => none

def escape? (cursor : Cursor) : Option (Char × Cursor) := do
  let c ← cursor.head?
  match numericEscape? c with
  | some size =>
      let digits := cursor.skip.rest.take size
      if digits.length < size then none
      else
        let n ← Hex.number? digits
        if (0xD800 ≤ n ∧ n < 0xE000) ∨ 0x10FFFF < n then none
        else return (Char.ofNat n, cursor.skip.skipMany size)
  | none =>
      let e ← letterEscape? c
      return (e, cursor.skip)

/-- How a run of non-blank characters inside quotes ends. -/
inductive RunEnd where
  /-- At the closing quote. -/
  | closed
  /-- At white space or the end of the text. -/
  | open_
  /-- At an escaped line break, which has been passed over. -/
  | escapedBreak

def singleMark : Char := Char.ofNat 39

def quoteMark (single : Bool) : Char :=
  if single then singleMark else '"'

def quotedRun (single : Bool) (fuel : Nat) (cursor : Cursor) :
    Option (List Char × RunEnd × Cursor) :=
  match fuel with
  | 0 => none
  | fuel + 1 =>
      match cursor.head? with
      | none => some ([], .open_, cursor)
      | some c =>
          let add (c : Char) (after : Cursor) : Option (List Char × RunEnd × Cursor) :=
            (quotedRun single fuel after).map fun (run, e, last) => (c :: run, e, last)
          if isBlank c || isBreak c then some ([], .open_, cursor)
          else if single && c == singleMark && cursor.ahead? 1 == some singleMark then
            add singleMark cursor.skip.skip
          else if c == quoteMark single then some ([], .closed, cursor)
          else if !single && c == '\\' then
            if cursor.skip.isIn isBreak then some ([], .escapedBreak, cursor.skip.readBreak.2)
            else
              match escape? cursor.skip with
              | some (e, after) => add e after
              | none => none
          else add c cursor.skip

def quotedFrom (single : Bool) (fuel : Nat) (done : List Char) (cursor : Cursor) :
    Option (List Char × Cursor) :=
  match fuel with
  | 0 => none
  | fuel + 1 =>
      if cursor.isDocumentMarker || cursor.rest.isEmpty then none
      else do
        let (run, ending, after) ← quotedRun single (cursor.rest.length + 1) cursor
        let done := done ++ run
        let gap : Gap := match ending with
          | .escapedBreak => { broken := true }
          | _ => {}
        if after.isAt (quoteMark single) then return (done, after.skip)
        else
          let (gap, last) ← gap.read none (after.rest.length + 1) after
          quotedFrom single fuel (done ++ gap.text) last

/-- A quoted scalar, from its opening quote on. -/
def quoted? (single : Bool) (cursor : Cursor) : Option (List Char × Cursor) :=
  quotedFrom single (cursor.rest.length + 1) [] cursor.skip

/-! ## Block scalars -/

/-- What becomes of the line breaks at the end of a block scalar. -/
inductive Chomping where
  | clip
  | strip
  | keep
deriving DecidableEq, Repr

def chomping? (c : Char) : Option Chomping :=
  if c = '+' then some .keep else if c = '-' then some .strip else none

/-- The indentation that a digit asks for; zero is refused. -/
def increment? (cursor : Cursor) : Option (Option Nat × Cursor) :=
  match cursor.head? with
  | some c =>
      if c = '0' then none
      else if c.isDigit then some (some (c.toNat - 48), cursor.skip)
      else some (none, cursor)
  | none => some (none, cursor)

/-- The indicators behind the bar or the angle of a block scalar. -/
def blockIndicators? (cursor : Cursor) : Option (Chomping × Option Nat × Cursor) := do
  match cursor.head?.bind chomping? with
  | some chomping =>
      let (increment, after) ← increment? cursor.skip
      return (chomping, increment, after)
  | none =>
      let (increment, after) ← increment? cursor
      match increment, after.head?.bind chomping? with
      | some _, some chomping => return (chomping, increment, after.skip)
      | _, _ => return (.clip, increment, after)

/--
Pass over indentation and empty lines.  With `indent` unknown every leading space
is indentation, and the widest line counts.
-/
def blockBreaks (indent : Option Nat) (fuel widest : Nat) (breaks : List Char) (cursor : Cursor) :
    Option (List Char × Nat × Cursor) :=
  match fuel with
  | 0 => none
  | fuel + 1 =>
      let spaces := (cursor.rest.takeWhile (· == ' ')).length
      let passed := match indent with
        | some n => min spaces (n - cursor.column)
        | none => spaces
      let after := cursor.skipMany passed
      let widest := max widest after.column
      let within : Bool := match indent with
        | some n => after.column < n
        | none => true
      if within && after.isAt '\t' then none
      else if after.isIn isBreak then
        let (text, next) := after.readBreak
        blockBreaks indent fuel widest (breaks ++ text) next
      else some (breaks, widest, after)

/-- The parts of a block scalar that is being read. -/
structure BlockText where
  done : List Char := []
  /-- The break at the end of the last line. -/
  lastBreak : List Char := []
  /-- The breaks of the empty lines behind it. -/
  emptyBreaks : List Char := []
  /-- Whether the last line began with a blank. -/
  leadingBlank : Bool := false

def blockLines (literal : Bool) (indent fuel : Nat) (text : BlockText) (cursor : Cursor) :
    Option (BlockText × Cursor) :=
  match fuel with
  | 0 => none
  | fuel + 1 =>
      if cursor.column ≠ indent ∨ cursor.rest.isEmpty then some (text, cursor)
      else do
        let blank := cursor.isIn isBlank
        let joint :=
          if !literal && text.lastBreak == ['\n'] && !text.leadingBlank && !blank then
            if text.emptyBreaks.isEmpty then [' '] else []
          else text.lastBreak
        let (line, behind) := cursor.readWhile fun c => !isBreak c
        let (lastBreak, next) := behind.readBreak
        let (emptyBreaks, _, after) ← blockBreaks (some indent) (next.rest.length + 1) 0 [] next
        blockLines literal indent fuel
          { done := text.done ++ joint ++ text.emptyBreaks ++ line
            lastBreak, emptyBreaks, leadingBlank := blank }
          after

/-- A block scalar, from its bar or angle on, inside a block at the column `outer`. -/
def block? (literal : Bool) (outer : Int) (cursor : Cursor) : Option (List Char × Cursor) := do
  let (chomping, increment, after) ← blockIndicators? cursor.skip
  let after := after.skipWhile isBlank
  let after := if after.isAt '#' then after.skipWhile (fun c => !isBreak c) else after
  if !after.isLineEnd then none
  else
    let start := after.readBreak.2
    let known := increment.map fun n => if 0 ≤ outer then outer.toNat + n else n
    let (breaks, widest, first) ← blockBreaks known (start.rest.length + 1) 0 [] start
    let indent := known.getD (max widest (max (outer + 1).toNat 1))
    let (text, last) ← blockLines literal indent (first.rest.length + 1)
      { emptyBreaks := breaks } first
    let tail := match chomping with
      | .strip => []
      | .clip => text.lastBreak
      | .keep => text.lastBreak ++ text.emptyBreaks
    return (text.done ++ tail, last)

end Yaml

end CsvImport

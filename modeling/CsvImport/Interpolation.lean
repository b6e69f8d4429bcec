/-!
# References to environment variables

A text is a sequence of segments: characters that stand for themselves, `$$` for
one dollar sign, and references to variables.  Interpolation puts a text for
every segment and reports every segment for which there is none.
-/

namespace CsvImport

/-- What stands in for a variable without a value. -/
structure Fallback where
  text : List Char
  /-- Whether it also stands in for an empty value. -/
  whenEmpty : Bool
deriving DecidableEq, Repr, Inhabited

/-- A piece of a text with references. -/
inductive Segment where
  /-- A character that stands for itself. -/
  | literal (c : Char)
  /-- Two dollar signs, which stand for one. -/
  | dollar
  /-- A reference to a variable. -/
  | reference (name : List Char) (fallback : Option Fallback)
deriving DecidableEq, Repr, Inhabited

namespace Segment

def isNameStart (c : Char) : Bool :=
  c.isAlpha || c == '_'

def isNameChar (c : Char) : Bool :=
  c.isAlphanum || c == '_'

/-- The longest name at the front, if there is one, and the characters behind it. -/
def name? : List Char → Option (List Char × List Char)
  | [] => none
  | c :: rest =>
      if isNameStart c then some (c :: rest.takeWhile isNameChar, rest.dropWhile isNameChar)
      else none

/-- A fallback up to its closing brace, and the characters behind the brace. -/
def fallback? (whenEmpty : Bool) (chars : List Char) : Option (Fallback × List Char) :=
  match chars.dropWhile (· != '\x7d') with
  | [] => none
  | _ :: behind => some (⟨chars.takeWhile (· != '\x7d'), whenEmpty⟩, behind)

def braceEnd? : List Char → Option (Option Fallback × List Char)
  | '\x7d' :: behind => some (none, behind)
  | ':' :: '-' :: rest =>
      (fallback? true rest).map fun (fallback, behind) => (some fallback, behind)
  | '-' :: rest => (fallback? false rest).map fun (fallback, behind) => (some fallback, behind)
  | _ => none

def braced? (chars : List Char) : Option (Segment × List Char) := do
  let (name, rest) ← name? chars
  let (fallback, behind) ← braceEnd? rest
  return (.reference name fallback, behind)

/-- What a dollar sign begins, given the characters behind it. -/
def afterDollar? : List Char → Option (Segment × List Char)
  | '$' :: behind => some (.dollar, behind)
  | '\x7b' :: rest => braced? rest
  | chars => (name? chars).map fun (name, behind) => (.reference name none, behind)

theorem name?_length {chars name behind : List Char} (found : name? chars = some (name, behind)) :
    behind.length < chars.length := by
  unfold name? at found
  split at found
  · simp at found
  · rename_i c rest
    split at found
    · cases found
      have := (List.dropWhile_suffix (l := rest) isNameChar).length_le
      simp only [List.length_cons]
      omega
    · simp at found

theorem fallback?_length {whenEmpty : Bool} {chars behind : List Char} {fallback : Fallback}
    (found : fallback? whenEmpty chars = some (fallback, behind)) :
    behind.length < chars.length := by
  unfold fallback? at found
  split at found
  · simp at found
  · rename_i brace rest dropped
    cases found
    have := (List.dropWhile_suffix (l := chars) (· != '\x7d')).length_le
    rw [dropped] at this
    simp only [List.length_cons] at this
    omega

theorem braceEnd?_length {chars behind : List Char} {fallback : Option Fallback}
    (found : braceEnd? chars = some (fallback, behind)) : behind.length < chars.length := by
  unfold braceEnd? at found
  split at found
  · cases found; simp
  · rename_i rest
    obtain ⟨⟨inner, after⟩, inner_found, same⟩ := Option.map_eq_some_iff.mp found
    cases same
    have := fallback?_length inner_found
    simp only [List.length_cons]
    omega
  · rename_i rest _
    obtain ⟨⟨inner, after⟩, inner_found, same⟩ := Option.map_eq_some_iff.mp found
    cases same
    have := fallback?_length inner_found
    simp only [List.length_cons]
    omega
  · simp at found

theorem braced?_length {chars behind : List Char} {segment : Segment}
    (found : braced? chars = some (segment, behind)) : behind.length < chars.length := by
  unfold braced? at found
  obtain ⟨⟨name, rest⟩, name_found, found⟩ := Option.bind_eq_some_iff.mp found
  obtain ⟨⟨fallback, after⟩, end_found, found⟩ := Option.bind_eq_some_iff.mp found
  cases found
  have := name?_length name_found
  have := braceEnd?_length end_found
  simp only at *
  omega

theorem afterDollar?_length {chars behind : List Char} {segment : Segment}
    (found : afterDollar? chars = some (segment, behind)) : behind.length < chars.length := by
  unfold afterDollar? at found
  split at found
  · cases found; simp
  · rename_i rest
    have := braced?_length found
    simp only [List.length_cons]
    omega
  · obtain ⟨⟨name, after⟩, name_found, same⟩ := Option.map_eq_some_iff.mp found
    cases same
    exact name?_length name_found

/--
The segments of a text, from left to right.  A dollar sign that begins nothing
stands for itself.
-/
def ofChars : List Char → List Segment
  | [] => []
  | c :: rest =>
      if c = '$' then
        match _ : afterDollar? rest with
        | some (segment, behind) => segment :: ofChars behind
        | none => .literal c :: ofChars rest
      else .literal c :: ofChars rest
termination_by chars => chars.length
decreasing_by
  · have := afterDollar?_length ‹_›
    simp only [List.length_cons]
    omega
  · simp
  · simp

end Segment

/-- The values of environment variables; a value that is no text counts as unset. -/
abbrev Environment := String → Option String

inductive ReferenceProblem where
  /-- The value has a line break. -/
  | lineBreak (name : String)
  /-- There is neither a value nor a fallback. -/
  | unset (name : String)
deriving DecidableEq, Repr, Inhabited

namespace ReferenceProblem

def message : ReferenceProblem → String
  | lineBreak name =>
      "environment variable '" ++ name ++ "' contains newlines, which is not allowed"
  | unset name => "environment variable '" ++ name ++ "' is not set"

end ReferenceProblem

namespace Segment

def hasLineBreak (value : List Char) : Bool :=
  value.any fun c => c == '\n' || c == '\r'

def valueOf (env : Environment) (name : List Char) (fallback : Option Fallback) :
    Except ReferenceProblem (List Char) :=
  let name := String.ofList name
  match env name, fallback with
  | some value, fallback =>
      if hasLineBreak value.toList then .error (.lineBreak name)
      else
        match fallback with
        | some ⟨text, true⟩ => .ok (if value.toList.isEmpty then text else value.toList)
        | _ => .ok value.toList
  | none, some fallback => .ok fallback.text
  | none, none => .error (.unset name)

def resolve (env : Environment) : Segment → Except ReferenceProblem (List Char)
  | literal c => .ok [c]
  | dollar => .ok ['$']
  | reference name fallback => valueOf env name fallback

end Segment

def Segment.problem? (env : Environment) (segment : Segment) : Option ReferenceProblem :=
  match segment.resolve env with
  | .ok _ => none
  | .error problem => some problem

/-- The text of a segment, empty if it has a problem. -/
def Segment.text (env : Environment) (segment : Segment) : List Char :=
  match segment.resolve env with
  | .ok chars => chars
  | .error _ => []

/-- Put its text for every reference of a text, or report every problem. -/
def interpolate (env : Environment) (text : String) : Except (List ReferenceProblem) String :=
  let segments := Segment.ofChars text.toList
  match segments.filterMap (Segment.problem? env) with
  | [] => .ok (String.ofList (segments.flatMap (Segment.text env)))
  | problems => .error problems

def referencedNames (text : String) : List String :=
  (Segment.ofChars text.toList).filterMap fun
    | .reference name _ => some (String.ofList name)
    | _ => none

end CsvImport

import CsvImport.Proofs.References

/-!
# Escaped texts

A text in which every dollar sign is written twice stands for itself, whatever follows it.  Dollar
signs pair up from the left, so that an escaped one never begins a reference together with what
stands behind it.
-/

namespace CsvImport

namespace Segment

def escapeChar (c : Char) : List Char :=
  if c = '$' then ['$', '$'] else [c]

def escape (text : String) : String :=
  String.ofList (text.toList.flatMap escapeChar)

def ofEscaped (c : Char) : Segment :=
  if c = '$' then .dollar else .literal c

/-- An escaped character is a segment of its own, and what follows is read as if it stood alone. -/
theorem ofChars_escapeChar (c : Char) (later : List Char) :
    ofChars (escapeChar c ++ later) = ofEscaped c :: ofChars later := by
  unfold escapeChar ofEscaped
  split
  · exact ofChars_of_form .dollar
  · rename_i other
    refine ofChars_of_none fun segment behind form => ?_
    obtain ⟨rest, same⟩ := form.head
    cases same
    exact other rfl

/-- An escaped text is read character by character, up to its end and no further. -/
theorem ofChars_escaped (chars later : List Char) :
    ofChars (chars.flatMap escapeChar ++ later) = chars.map ofEscaped ++ ofChars later := by
  induction chars with
  | nil => rfl
  | cons c rest ih =>
      rw [List.flatMap_cons, List.append_assoc, ofChars_escapeChar, ih]
      rfl

variable (env : Environment)

theorem resolve_ofEscaped (c : Char) : (ofEscaped c).resolve env = .ok [c] := by
  unfold ofEscaped
  split
  · rename_i isDollar
    rw [isDollar]
    rfl
  · rfl

theorem problem?_ofEscaped (c : Char) : (ofEscaped c).problem? env = none := by
  rw [problem?, resolve_ofEscaped]

theorem text_ofEscaped (c : Char) : (ofEscaped c).text env = [c] := by
  rw [text, resolve_ofEscaped]

theorem problems_escaped (chars : List Char) (later : List Segment) :
    (chars.map ofEscaped ++ later).filterMap (problem? env) = later.filterMap (problem? env) := by
  have none : (chars.map ofEscaped).filterMap (problem? env) = [] := by
    rw [List.filterMap_eq_nil_iff]
    intro segment member
    obtain ⟨c, -, rfl⟩ := List.mem_map.mp member
    exact problem?_ofEscaped env c
  rw [List.filterMap_append, none, List.nil_append]

theorem texts_escaped (chars : List Char) (later : List Segment) :
    (chars.map ofEscaped ++ later).flatMap (text env) = chars ++ later.flatMap (text env) := by
  have same : (chars.map ofEscaped).flatMap (text env) = chars := by
    induction chars with
    | nil => rfl
    | cons c rest ih =>
        rw [List.map_cons, List.flatMap_cons, text_ofEscaped, ih]
        rfl
  rw [List.flatMap_append, same]

end Segment

/-- What follows an escaped text is interpolated as if it stood alone. -/
theorem interpolate_escape_append (env : Environment) (text later : String) :
    interpolate env (Segment.escape text ++ later) = (interpolate env later).map (text ++ ·) := by
  unfold interpolate Segment.escape
  simp only [String.toList_append, String.toList_ofList, Segment.ofChars_escaped,
    Segment.problems_escaped, Segment.texts_escaped]
  cases (Segment.ofChars later.toList).filterMap (Segment.problem? env) with
  | nil =>
      change Except.ok _ = Except.ok _
      rw [String.ofList_append, String.ofList_toList]
  | cons problem more => rfl

theorem interpolate_empty (env : Environment) : interpolate env "" = .ok "" := by
  have none : Segment.ofChars "".toList = [] := by rw [String.toList_empty, Segment.ofChars]
  unfold interpolate
  rw [none]
  rfl

/-- Writing every dollar sign twice escapes a text: it stands for itself in every environment, and
what follows it succeeds with its own result, or fails with its own problems, as if it stood
alone. -/
theorem interpolate_escape (env : Environment) (text : String) :
    interpolate env (Segment.escape text) = .ok text ∧
      ∀ later : String,
        (∀ result, interpolate env (Segment.escape text ++ later) = .ok result ↔
          ∃ rest, interpolate env later = .ok rest ∧ result = text ++ rest) ∧
        ∀ problems, interpolate env (Segment.escape text ++ later) = .error problems ↔
          interpolate env later = .error problems := by
  constructor
  · have whole := interpolate_escape_append env text ""
    rw [interpolate_empty, String.append_empty] at whole
    rw [whole, Except.map, String.append_empty]
  · intro later
    rw [interpolate_escape_append]
    cases interpolate env later with
    | ok rest =>
        refine ⟨fun result => ⟨?_, ?_⟩, fun problems => ⟨?_, ?_⟩⟩
        · rintro ⟨⟩
          exact ⟨rest, rfl, rfl⟩
        · rintro ⟨_, ⟨⟩, rfl⟩
          rfl
        · rintro ⟨⟩
        · rintro ⟨⟩
    | error found =>
        refine ⟨fun result => ⟨?_, ?_⟩, fun problems => Iff.rfl⟩
        · rintro ⟨⟩
        · rintro ⟨_, ⟨⟩, -⟩

/-- Of three dollar signs, the first two are one, and the third begins the reference. -/
example : interpolate (fun _ => some "v") (Segment.escape "$" ++ "$\x7bA\x7d") = .ok "$v" := by
  decide +kernel

end CsvImport

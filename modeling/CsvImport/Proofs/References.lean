import CsvImport.Interpolation
import CsvImport.Text.Utf8
import Mathlib.Data.List.Forall2
import Mathlib.Data.List.TakeWhile

/-!
# References

The written forms of references, said without a scanner, and what each of them stands for.  A text
has exactly one decomposition, in which a form is taken wherever one begins, and interpolation puts
for every piece what it stands for, or reports every reference that stands for nothing.
-/

namespace CsvImport

namespace Segment

/-! ## Written forms -/

def BeginsName (c : Char) : Prop :=
  'A' ≤ c ∧ c ≤ 'Z' ∨ 'a' ≤ c ∧ c ≤ 'z' ∨ c = '_'

def ContinuesName (c : Char) : Prop :=
  BeginsName c ∨ '0' ≤ c ∧ c ≤ '9'

instance (c : Char) : Decidable (BeginsName c) :=
  inferInstanceAs (Decidable (_ ∨ _ ∨ _))

instance (c : Char) : Decidable (ContinuesName c) :=
  inferInstanceAs (Decidable (_ ∨ _))

inductive IsName : List Char → Prop where
  | intro {first : Char} {more : List Char} (begins : BeginsName first)
      (continues : ∀ c ∈ more, ContinuesName c) : IsName (first :: more)

/-- A text begins with a written form of the segment, and `behind` follows. -/
inductive Form : List Char → Segment → List Char → Prop where
  | dollar {behind : List Char} : Form ('$' :: '$' :: behind) .dollar behind
  | braced {name behind : List Char} (isName : IsName name) :
      Form ('$' :: '\x7b' :: (name ++ '\x7d' :: behind)) (.reference name none) behind
  | ifUnset {name fallback behind : List Char} (isName : IsName name)
      (inside : '\x7d' ∉ fallback) :
      Form ('$' :: '\x7b' :: (name ++ '-' :: (fallback ++ '\x7d' :: behind)))
        (.reference name (some ⟨fallback, false⟩)) behind
  | ifEmpty {name fallback behind : List Char} (isName : IsName name)
      (inside : '\x7d' ∉ fallback) :
      Form ('$' :: '\x7b' :: (name ++ ':' :: '-' :: (fallback ++ '\x7d' :: behind)))
        (.reference name (some ⟨fallback, true⟩)) behind
  | bare {name behind : List Char} (isName : IsName name)
      (longest : ∀ c ∈ behind.head?, ¬ContinuesName c) :
      Form ('$' :: (name ++ behind)) (.reference name none) behind

/-- The segments of a text, from left to right: a form where one begins, and else a character. -/
inductive Decomposes : List Char → List Segment → Prop where
  | nil : Decomposes [] []
  | form {chars behind : List Char} {segment : Segment} {more : List Segment}
      (begins : Form chars segment behind) (later : Decomposes behind more) :
      Decomposes chars (segment :: more)
  | literal {c : Char} {rest : List Char} {more : List Segment}
      (none : ∀ segment behind, ¬Form (c :: rest) segment behind) (later : Decomposes rest more) :
      Decomposes (c :: rest) (.literal c :: more)

theorem isNameStart_iff {c : Char} : isNameStart c = true ↔ BeginsName c := by
  change (decide ('A' ≤ c ∧ c ≤ 'Z') || (decide ('a' ≤ c) && decide (c ≤ 'z')) || c == '_') = true ↔
    'A' ≤ c ∧ c ≤ 'Z' ∨ 'a' ≤ c ∧ c ≤ 'z' ∨ c = '_'
  simp only [Bool.or_eq_true, Bool.and_eq_true, decide_eq_true_eq, beq_iff_eq, or_assoc]

theorem isNameChar_iff {c : Char} : isNameChar c = true ↔ ContinuesName c := by
  have start : isNameChar c = (isNameStart c || c.isDigit) := by
    simp only [isNameChar, isNameStart, Char.isAlphanum]
    rw [Bool.or_assoc, Bool.or_assoc, Bool.or_comm c.isDigit]
  rw [start, Bool.or_eq_true, isNameStart_iff]
  simp only [ContinuesName, Char.isDigit, Bool.and_eq_true, decide_eq_true_eq]
  rfl

/-- The front of a text that satisfies a condition, and what follows. -/
theorem span_eq {p : Char → Bool} {front behind : List Char} (inside : ∀ c ∈ front, p c = true)
    (stops : ∀ c ∈ behind.head?, ¬p c = true) :
    (front ++ behind).takeWhile p = front ∧ (front ++ behind).dropWhile p = behind := by
  rw [List.takeWhile_append_of_pos inside, List.dropWhile_append_of_pos inside]
  cases behind with
  | nil => exact ⟨List.append_nil _, rfl⟩
  | cons c rest =>
      have stop := stops c rfl
      rw [List.takeWhile_cons_of_neg stop, List.dropWhile_cons_of_neg stop]
      exact ⟨List.append_nil _, rfl⟩

theorem not_of_head?_dropWhile {p : Char → Bool} (chars : List Char) :
    ∀ c ∈ (chars.dropWhile p).head?, ¬p c = true := by
  intro c first
  have stop := List.head?_dropWhile_not p chars
  rw [first] at stop
  simpa using stop

/-- A name is read up to the first character that does not continue it. -/
theorem name?_eq_some_iff {chars name behind : List Char} :
    name? chars = some (name, behind) ↔
      IsName name ∧ chars = name ++ behind ∧ ∀ c ∈ behind.head?, ¬ContinuesName c := by
  constructor
  · intro found
    unfold name? at found
    split at found
    · cases found
    · rename_i c rest
      split at found
      · rename_i begins
        cases found
        refine ⟨.intro (isNameStart_iff.mp begins) fun other member => ?_, ?_,
          fun other first => ?_⟩
        · exact isNameChar_iff.mp (List.mem_takeWhile_imp member)
        · rw [List.cons_append, List.takeWhile_append_dropWhile]
        · rw [← isNameChar_iff]
          exact not_of_head?_dropWhile rest other first
      · cases found
  · rintro ⟨⟨begins, continues⟩, rfl, longest⟩
    simp only [← isNameChar_iff] at continues longest
    obtain ⟨taken, left⟩ := span_eq continues longest
    rw [List.cons_append]
    unfold name?
    simp only [taken, left, isNameStart_iff.mpr begins, ↓reduceIte]

/-- A fallback is read up to the first closing brace. -/
theorem fallback?_eq_some_iff {whenEmpty : Bool} {chars behind : List Char} {fallback : Fallback} :
    fallback? whenEmpty chars = some (fallback, behind) ↔
      ∃ text, '\x7d' ∉ text ∧ fallback = ⟨text, whenEmpty⟩ ∧ chars = text ++ '\x7d' :: behind := by
  constructor
  · intro found
    unfold fallback? at found
    split at found
    · cases found
    · rename_i brace rest dropped
      cases found
      have stop := not_of_head?_dropWhile (p := (· != '\x7d')) chars
      rw [dropped] at stop
      obtain rfl : brace = '\x7d' := by simpa using stop brace rfl
      refine ⟨_, fun member => ?_, rfl, ?_⟩
      · simpa using List.mem_takeWhile_imp member
      · rw [← dropped, List.takeWhile_append_dropWhile]
  · rintro ⟨text, inside, rfl, rfl⟩
    have plain : ∀ c ∈ text, (c != '\x7d') = true := by
      rintro c member
      rw [bne_iff_ne]
      rintro rfl
      exact inside member
    have stops : ∀ c ∈ ('\x7d' :: behind).head?, ¬(c != '\x7d') = true := by
      rintro c ⟨⟩
      decide
    obtain ⟨taken, left⟩ := span_eq plain stops
    unfold fallback?
    rw [taken, left]

/-- A form begins with a dollar sign. -/
theorem Form.head {chars behind : List Char} {segment : Segment}
    (form : Form chars segment behind) :
    ∃ rest, chars = '$' :: rest := by
  cases form <;> exact ⟨_, rfl⟩

theorem IsName.head {name : List Char} (isName : IsName name) :
    ∃ first more, name = first :: more ∧ BeginsName first := by
  obtain ⟨begins, -⟩ := isName
  exact ⟨_, _, rfl, begins⟩

/-- What follows the name of a reference in braces: nothing, or one of two kinds of fallback. -/
theorem braceEnd?_eq_some_iff {chars behind : List Char} {fallback : Option Fallback} :
    braceEnd? chars = some (fallback, behind) ↔
      fallback = none ∧ chars = '\x7d' :: behind ∨
      (∃ text, '\x7d' ∉ text ∧ fallback = some ⟨text, false⟩ ∧
        chars = '-' :: (text ++ '\x7d' :: behind)) ∨
      ∃ text, '\x7d' ∉ text ∧ fallback = some ⟨text, true⟩ ∧
        chars = ':' :: '-' :: (text ++ '\x7d' :: behind) := by
  constructor
  · intro found
    unfold braceEnd? at found
    split at found
    · cases found
      exact .inl ⟨rfl, rfl⟩
    · obtain ⟨⟨inner, rest⟩, read, same⟩ := Option.map_eq_some_iff.mp found
      cases same
      obtain ⟨text, inside, rfl, rfl⟩ := fallback?_eq_some_iff.mp read
      exact .inr (.inr ⟨text, inside, rfl, rfl⟩)
    · obtain ⟨⟨inner, rest⟩, read, same⟩ := Option.map_eq_some_iff.mp found
      cases same
      obtain ⟨text, inside, rfl, rfl⟩ := fallback?_eq_some_iff.mp read
      exact .inr (.inl ⟨text, inside, rfl, rfl⟩)
    · cases found
  · rintro (⟨rfl, rfl⟩ | ⟨text, inside, rfl, rfl⟩ | ⟨text, inside, rfl, rfl⟩)
    · rfl
    · change (fallback? false _).map _ = _
      rw [fallback?_eq_some_iff.mpr ⟨text, inside, rfl, rfl⟩]
      rfl
    · change (fallback? true _).map _ = _
      rw [fallback?_eq_some_iff.mpr ⟨text, inside, rfl, rfl⟩]
      rfl

theorem braced?_eq_some_iff {chars behind : List Char} {segment : Segment} :
    braced? chars = some (segment, behind) ↔ Form ('$' :: '\x7b' :: chars) segment behind := by
  constructor
  · intro found
    obtain ⟨⟨name, rest⟩, nameRead, found⟩ := Option.bind_eq_some_iff.mp found
    obtain ⟨⟨fallback, after⟩, endRead, same⟩ := Option.bind_eq_some_iff.mp found
    cases same
    obtain ⟨isName, rfl, -⟩ := name?_eq_some_iff.mp nameRead
    rcases braceEnd?_eq_some_iff.mp endRead with
      ⟨rfl, rfl⟩ | ⟨text, inside, rfl, rfl⟩ | ⟨text, inside, rfl, rfl⟩
    · exact .braced isName
    · exact .ifUnset isName inside
    · exact .ifEmpty isName inside
  · -- The name ends where the brace or the operator stands, since none of them continues a name.
    have read : ∀ {name rest : List Char} {fallback : Option Fallback} {c : Char},
        IsName name → ¬ContinuesName c → braceEnd? (c :: rest) = some (fallback, behind) →
        braced? (name ++ c :: rest) = some (.reference name fallback, behind) := by
      intro name rest fallback c isName stops ends
      have nameRead : name? (name ++ c :: rest) = some (name, c :: rest) :=
        name?_eq_some_iff.mpr ⟨isName, rfl, fun other first => by cases first; exact stops⟩
      unfold braced?
      simp only [nameRead, ends, Option.bind_eq_bind, Option.bind_some]
      rfl
    generalize whole : '$' :: '\x7b' :: chars = text
    intro form
    cases form with
    | dollar => cases whole
    | braced isName =>
        cases whole
        exact read isName (by decide) (braceEnd?_eq_some_iff.mpr (.inl ⟨rfl, rfl⟩))
    | ifUnset isName inside =>
        cases whole
        exact read isName (by decide)
          (braceEnd?_eq_some_iff.mpr (.inr (.inl ⟨_, inside, rfl, rfl⟩)))
    | ifEmpty isName inside =>
        cases whole
        exact read isName (by decide)
          (braceEnd?_eq_some_iff.mpr (.inr (.inr ⟨_, inside, rfl, rfl⟩)))
    | bare isName longest =>
        obtain ⟨first, more, rfl, begins⟩ := isName.head
        cases whole
        exact absurd begins (by decide)

/-- What a dollar sign begins is the form at its place. -/
theorem afterDollar?_eq_some_iff {chars behind : List Char} {segment : Segment} :
    afterDollar? chars = some (segment, behind) ↔ Form ('$' :: chars) segment behind := by
  unfold afterDollar?
  split
  · rename_i rest
    constructor
    · rintro ⟨⟩
      exact .dollar
    · generalize whole : '$' :: '$' :: rest = text
      intro form
      cases form with
      | dollar =>
          cases whole
          rfl
      | bare isName longest =>
          obtain ⟨first, more, rfl, begins⟩ := isName.head
          cases whole
          exact absurd begins (by decide)
      | _ => cases whole
  · exact braced?_eq_some_iff
  · rename_i notDollar notBrace
    constructor
    · intro found
      obtain ⟨⟨name, after⟩, nameRead, same⟩ := Option.map_eq_some_iff.mp found
      cases same
      obtain ⟨isName, rfl, longest⟩ := name?_eq_some_iff.mp nameRead
      exact .bare isName longest
    · generalize whole : '$' :: chars = text
      intro form
      cases form with
      | bare isName longest =>
          cases whole
          rw [name?_eq_some_iff.mpr ⟨isName, rfl, longest⟩]
          rfl
      | dollar =>
          cases whole
          exact absurd rfl (notDollar _)
      | _ =>
          cases whole
          exact absurd rfl (notBrace _)

theorem ofChars_of_form {chars behind : List Char} {segment : Segment}
    (form : Form chars segment behind) : ofChars chars = segment :: ofChars behind := by
  obtain ⟨rest, rfl⟩ := form.head
  rw [ofChars, if_pos rfl]
  split
  · rename_i found read
    rw [afterDollar?_eq_some_iff.mpr form] at read
    cases read
    rfl
  · rename_i read
    rw [afterDollar?_eq_some_iff.mpr form] at read
    cases read

theorem ofChars_of_none {c : Char} {rest : List Char}
    (none : ∀ segment behind, ¬Form (c :: rest) segment behind) :
    ofChars (c :: rest) = .literal c :: ofChars rest := by
  rw [ofChars]
  split
  · rename_i isDollar
    subst isDollar
    split
    · rename_i read
      exact absurd (afterDollar?_eq_some_iff.mp read) (none _ _)
    · rfl
  · rfl

theorem decomposes_iff {chars : List Char} {segments : List Segment} :
    Decomposes chars segments ↔ segments = ofChars chars := by
  constructor
  · intro decomposes
    induction decomposes with
    | nil => rw [ofChars]
    | form begins later ih => rw [ofChars_of_form begins, ih]
    | literal none later ih => rw [ofChars_of_none none, ih]
  · rintro rfl
    fun_induction ofChars chars with
    | case1 => exact .nil
    | case2 rest segment behind read ih => exact .form (afterDollar?_eq_some_iff.mp read) ih
    | case3 rest read ih =>
        refine .literal (fun segment behind form => ?_) ih
        cases read.symm.trans (afterDollar?_eq_some_iff.mpr form)
    | case4 c rest other ih =>
        refine .literal (fun segment behind form => ?_) ih
        obtain ⟨_, same⟩ := form.head
        cases same
        exact other rfl

end Segment

end CsvImport

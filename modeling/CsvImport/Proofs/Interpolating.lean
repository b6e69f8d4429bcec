import CsvImport.Proofs.References
import CsvImport.Text.Utf8

/-!
# Interpolating

What the segments of a text stand for, said case by case, and what keeps one from standing for
anything.  Interpolation puts what every segment stands for, or reports one problem for every
segment that has one.
-/

namespace CsvImport

/-- The variables whose values are given as bytes; a value that is no text counts as unset. -/
def Environment.ofBytes (values : String → Option Bytes) : Environment :=
  fun name => (values name).bind Utf8.decode?

namespace Segment

variable {values : String → Option Bytes} {name value : List Char} {fallback : Option Fallback}

def HasValue (values : String → Option Bytes) (name value : List Char) : Prop :=
  ∃ bytes, values (String.ofList name) = some bytes ∧
    Utf8.decode? bytes = some (String.ofList value)

def BreaksLine (value : List Char) : Prop :=
  '\n' ∈ value ∨ '\r' ∈ value

inductive StandsFor (values : String → Option Bytes) : Segment → List Char → Prop where
  | literal (c : Char) : StandsFor values (.literal c) [c]
  | dollar : StandsFor values .dollar ['$']
  | value {name value : List Char} {fallback : Option Fallback} (set : HasValue values name value)
      (whole : ¬BreaksLine value) (used : value = [] → ∀ text, fallback ≠ some ⟨text, true⟩) :
      StandsFor values (.reference name fallback) value
  | ifEmpty {name text : List Char} (set : HasValue values name []) :
      StandsFor values (.reference name (some ⟨text, true⟩)) text
  | ifUnset {name : List Char} {fallback : Fallback}
      (unset : ∀ value, ¬HasValue values name value) :
      StandsFor values (.reference name (some fallback)) fallback.text

/-- What keeps a segment from standing for a text; the problem names the variable. -/
inductive HasProblem (values : String → Option Bytes) : Segment → ReferenceProblem → Prop where
  | lineBreak {name value : List Char} {fallback : Option Fallback}
      (set : HasValue values name value) (broken : BreaksLine value) :
      HasProblem values (.reference name fallback) (.lineBreak (String.ofList name))
  | unset {name : List Char} (unset : ∀ value, ¬HasValue values name value) :
      HasProblem values (.reference name none) (.unset (String.ofList name))

theorem hasValue_iff : HasValue values name value ↔
    Environment.ofBytes values (String.ofList name) = some (String.ofList value) :=
  Option.bind_eq_some_iff.symm

theorem hasLineBreak_iff : hasLineBreak value = true ↔ BreaksLine value := by
  simp only [hasLineBreak, BreaksLine, List.any_eq_true, Bool.or_eq_true, beq_iff_eq, and_or_left,
    exists_or, exists_eq_right]

theorem hasValue_cases (values : String → Option Bytes) (name : List Char) :
    (∃ text : String, Environment.ofBytes values (String.ofList name) = some text ∧
      ∀ value, HasValue values name value ↔ value = text.toList) ∨
    Environment.ofBytes values (String.ofList name) = none ∧
      ∀ value, ¬HasValue values name value := by
  cases found : Environment.ofBytes values (String.ofList name) with
  | none =>
      refine .inr ⟨rfl, fun value has => ?_⟩
      cases found.symm.trans (hasValue_iff.mp has)
  | some text =>
      refine .inl ⟨text, rfl, fun value => ?_⟩
      rw [hasValue_iff, found, Option.some.injEq]
      constructor
      · rintro rfl
        exact String.toList_ofList.symm
      · rintro rfl
        exact String.ofList_toList.symm

/-- A text for a reference to a variable that is set. -/
theorem valueOf_set {env : Environment} {text : String}
    (found : env (String.ofList name) = some text)
    (whole : ¬BreaksLine text.toList) (fallback : Option Fallback) :
    valueOf env name fallback = .ok
      (match fallback with
        | some ⟨other, true⟩ => if text.toList = [] then other else text.toList
        | _ => text.toList) := by
  have plain : hasLineBreak text.toList = false := by
    rw [← Bool.not_eq_true, hasLineBreak_iff]
    exact whole
  unfold valueOf
  simp only [found, plain, Bool.false_eq_true, ↓reduceIte]
  rcases fallback with _ | ⟨other, _ | _⟩
  · rfl
  · rfl
  · simp only [List.isEmpty_iff]

theorem valueOf_broken {env : Environment} {text : String}
    (found : env (String.ofList name) = some text) (broken : BreaksLine text.toList)
    (fallback : Option Fallback) :
    valueOf env name fallback = .error (.lineBreak (String.ofList name)) := by
  unfold valueOf
  simp only [found, hasLineBreak_iff.mpr broken, ↓reduceIte]

theorem valueOf_unset {env : Environment} (found : env (String.ofList name) = none) :
    ∀ fallback, valueOf env name fallback =
      (match fallback with
        | some fallback => .ok fallback.text
        | none => .error (.unset (String.ofList name))) := by
  rintro (_ | fallback) <;> simp only [valueOf, found]

/-- A reference to a variable that is set to a text of one line. -/
theorem standsFor_set {chars : List Char} {text : String}
    (has : ∀ value, HasValue values name value ↔ value = text.toList)
    (whole : ¬BreaksLine text.toList) :
    StandsFor values (.reference name fallback) chars ↔
      chars = match fallback with
        | some ⟨other, true⟩ => if text.toList = [] then other else text.toList
        | _ => text.toList := by
  constructor
  · intro stands
    cases stands with
    | value set _ used =>
        obtain rfl := (has _).mp set
        split
        · split
          · rename_i empty
            exact absurd rfl (used empty _)
          · rfl
        · rfl
    | ifEmpty set => exact (if_pos ((has _).mp set).symm).symm
    | ifUnset unset => exact absurd ((has _).mpr rfl) (unset _)
  · rintro rfl
    split
    · rename_i other
      split
      · rename_i empty
        exact .ifEmpty ((has _).mpr empty.symm)
      · rename_i some
        exact .value ((has _).mpr rfl) whole fun empty => absurd empty some
    · rename_i always
      exact .value ((has _).mpr rfl) whole fun _ => always

theorem resolve_eq_ok_iff {segment : Segment} {chars : List Char} :
    segment.resolve (.ofBytes values) = .ok chars ↔ StandsFor values segment chars := by
  cases segment with
  | literal c =>
      constructor
      · rintro ⟨⟩
        exact .literal c
      · rintro ⟨⟩
        rfl
  | dollar =>
      constructor
      · rintro ⟨⟩
        exact .dollar
      · rintro ⟨⟩
        rfl
  | reference name fallback =>
      change valueOf _ name fallback = _ ↔ _
      rcases hasValue_cases values name with ⟨text, found, has⟩ | ⟨found, unset⟩
      · by_cases broken : BreaksLine text.toList
        · rw [valueOf_broken found broken]
          refine ⟨fun same => (by cases same), fun stands => ?_⟩
          cases stands with
          | value set whole _ => exact absurd ((has _).mp set ▸ broken) whole
          | ifEmpty set =>
              rw [← (has _).mp set] at broken
              rcases broken with member | member <;> cases member
          | ifUnset unset => exact absurd ((has _).mpr rfl) (unset _)
        · rw [valueOf_set found broken, standsFor_set has broken, Except.ok.injEq]
          exact eq_comm
      · rw [valueOf_unset found]
        constructor
        · cases fallback with
          | none => rintro ⟨⟩
          | some fallback =>
              rintro ⟨⟩
              exact .ifUnset unset
        · intro stands
          cases stands with
          | value set => exact absurd set (unset _)
          | ifEmpty set => exact absurd set (unset _)
          | ifUnset => rfl

/-- A segment is not resolved if it has a problem, and that problem is reported. -/
theorem resolve_eq_error_iff {segment : Segment} {problem : ReferenceProblem} :
    segment.resolve (.ofBytes values) = .error problem ↔ HasProblem values segment problem := by
  cases segment with
  | literal c => exact ⟨fun same => (by cases same), fun has => (by cases has)⟩
  | dollar => exact ⟨fun same => (by cases same), fun has => (by cases has)⟩
  | reference name fallback =>
      change valueOf _ name fallback = _ ↔ _
      rcases hasValue_cases values name with ⟨text, found, has⟩ | ⟨found, unset⟩
      · by_cases broken : BreaksLine text.toList
        · rw [valueOf_broken found broken]
          constructor
          · rintro ⟨⟩
            exact .lineBreak ((has _).mpr rfl) broken
          · intro problem
            cases problem with
            | lineBreak => rfl
            | unset unset => exact absurd ((has _).mpr rfl) (unset _)
        · rw [valueOf_set found broken]
          refine ⟨fun same => (by cases same), fun problem => ?_⟩
          cases problem with
          | lineBreak set other => exact absurd ((has _).mp set ▸ other) broken
          | unset unset => exact absurd ((has _).mpr rfl) (unset _)
      · rw [valueOf_unset found]
        constructor
        · cases fallback with
          | none =>
              rintro ⟨⟩
              exact .unset unset
          | some fallback => rintro ⟨⟩
        · intro problem
          cases problem with
          | lineBreak set => exact absurd set (unset _)
          | unset => rfl

def IsProblem (values : String → Option Bytes) (segment : Segment) : Prop :=
  ∃ problem, HasProblem values segment problem

theorem isSome_problem?_iff {segment : Segment} :
    (segment.problem? (.ofBytes values)).isSome = true ↔ IsProblem values segment := by
  unfold IsProblem problem?
  simp only [← resolve_eq_error_iff]
  cases segment.resolve (.ofBytes values) <;> simp

instance (values : String → Option Bytes) (segment : Segment) :
    Decidable (IsProblem values segment) :=
  decidable_of_iff _ isSome_problem?_iff

/-- The problems of segments are one for each segment that has one, in order. -/
theorem forall₂_problems (values : String → Option Bytes) (segments : List Segment) :
    List.Forall₂ (HasProblem values) (segments.filter fun segment => IsProblem values segment)
      (segments.filterMap (problem? (.ofBytes values))) := by
  induction segments with
  | nil => exact .nil
  | cons segment later ih =>
      cases resolved : segment.resolve (.ofBytes values) with
      | ok chars =>
          have none : segment.problem? (.ofBytes values) = none := by rw [problem?, resolved]
          have fine : ¬IsProblem values segment := by
            rw [← isSome_problem?_iff, none]
            exact Bool.false_ne_true
          rw [List.filterMap_cons_none none, List.filter_cons_of_neg (by simpa using fine)]
          exact ih
      | error problem =>
          have some : segment.problem? (.ofBytes values) = some problem := by
            rw [problem?, resolved]
          have has := resolve_eq_error_iff.mp resolved
          have listed : IsProblem values segment := ⟨problem, has⟩
          rw [List.filterMap_cons_some some, List.filter_cons_of_pos (by simpa using listed)]
          exact .cons has ih

/-- Segments without problems stand for their texts. -/
theorem forall₂_texts {segments : List Segment}
    (fine : ∀ segment ∈ segments, ¬IsProblem values segment) :
    List.Forall₂ (StandsFor values) segments (segments.map (text (.ofBytes values))) := by
  induction segments with
  | nil => exact .nil
  | cons segment later ih =>
      refine .cons ?_ (ih fun other member => fine other (List.mem_cons_of_mem _ member))
      rw [← resolve_eq_ok_iff, text]
      cases resolved : segment.resolve (.ofBytes values) with
      | ok chars => rfl
      | error problem =>
          have problem : IsProblem values segment := ⟨problem, resolve_eq_error_iff.mp resolved⟩
          exact absurd problem (fine segment (List.mem_cons_self ..))

theorem problems_eq_nil_iff {segments : List Segment} :
    segments.filterMap (problem? (.ofBytes values)) = [] ↔
      ∀ segment ∈ segments, ¬IsProblem values segment := by
  rw [List.filterMap_eq_nil_iff]
  refine forall₂_congr fun segment _ => ?_
  rw [← isSome_problem?_iff, Option.not_isSome_iff_eq_none]

end Segment

/-- How interpolation ends. -/
theorem interpolate_cases (values : String → Option Bytes) (text : String) :
    let segments := Segment.ofChars text.toList
    (∀ segment ∈ segments, ¬segment.IsProblem values) ∧
      interpolate (.ofBytes values) text =
        .ok (String.ofList (segments.flatMap (Segment.text (.ofBytes values)))) ∨
    (∃ segment ∈ segments, segment.IsProblem values) ∧
      interpolate (.ofBytes values) text =
        .error (segments.filterMap (Segment.problem? (.ofBytes values))) := by
  intro segments
  unfold interpolate
  simp only
  split
  · rename_i none
    exact .inl ⟨Segment.problems_eq_nil_iff.mp none, rfl⟩
  · rename_i some
    refine .inr ⟨?_, rfl⟩
    by_contra fine
    push Not at fine
    exact some (Segment.problems_eq_nil_iff.mpr fine)

/-- A text is decomposed in one way only, with a written form taken wherever one begins.
Interpolation succeeds exactly if every reference stands for something; then each piece is replaced
by what it stands for, and what was put is not read again.  Otherwise one problem is reported for
every reference that has one, in order, and it names the variable. -/
theorem interpolate_meaning (values : String → Option Bytes) (text : String) :
    ∃ segments : List Segment,
      (∀ other, Segment.Decomposes text.toList other ↔ other = segments) ∧
      ((∃ result, interpolate (.ofBytes values) text = .ok result) ↔
        ∀ segment ∈ segments, ∀ problem, ¬Segment.HasProblem values segment problem) ∧
      (∀ result, interpolate (.ofBytes values) text = .ok result →
        ∃ pieces, List.Forall₂ (Segment.StandsFor values) segments pieces ∧
          result.toList = pieces.flatten) ∧
      ∀ problems, interpolate (.ofBytes values) text = .error problems →
        List.Forall₂ (Segment.HasProblem values)
          (segments.filter fun segment => segment.IsProblem values) problems := by
  refine ⟨Segment.ofChars text.toList, fun other => Segment.decomposes_iff, ?_⟩
  rcases interpolate_cases values text with ⟨fine, ends⟩ | ⟨⟨segment, member, problem⟩, ends⟩
  · rw [ends]
    refine ⟨⟨fun _ segment member problem has => ?_, fun _ => ⟨_, rfl⟩⟩, ?_, ?_⟩
    · exact fine segment member ⟨problem, has⟩
    · rintro _ ⟨⟩
      refine ⟨_, Segment.forall₂_texts fine, ?_⟩
      rw [String.toList_ofList, List.flatMap_def]
    · rintro _ ⟨⟩
  · rw [ends]
    refine ⟨⟨?_, fun fine => ?_⟩, ?_, ?_⟩
    · rintro ⟨_, ⟨⟩⟩
    · obtain ⟨problem, has⟩ := problem
      exact absurd has (fine segment member problem)
    · rintro _ ⟨⟩
    · rintro _ ⟨⟩
      exact Segment.forall₂_problems values _

/-- A fallback is not read again, and dollar signs pair up from the left. -/
example : interpolate (.ofBytes fun _ => none) "$$$\x7bA:-$B\x7d$9$$\x7bC" = .ok "$$B$9$\x7bC" := by
  decide +kernel

end CsvImport

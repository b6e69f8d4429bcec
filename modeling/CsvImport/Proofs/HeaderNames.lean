import CsvImport.Proofs.Lossless
import CsvImport.Proofs.Splitting
import Mathlib.Data.List.DropRight

/-!
# Header names

Names make a header exactly if there are any, each of them is more than white space, and no two of
them are the same, after trimming where that is asked for.  Otherwise the first name that is blank
or stands earlier too is reported.  It makes no difference whether the names are given, are the
first record of a text, or are split off a source.
-/

namespace CsvImport

/-! ## Trimming -/

namespace Text

/-- A text with a character that is no white space. -/
def Visible (text : String) : Prop :=
  ∃ c ∈ text.toList, isBlank c = false

theorem isBlankText_eq_false_iff {text : String} : isBlankText text = false ↔ Visible text := by
  unfold isBlankText Visible
  rw [List.all_eq_false]
  simp only [Bool.not_eq_true]

instance (text : String) : Decidable (Visible text) :=
  decidable_of_iff _ isBlankText_eq_false_iff

theorem isBlankText_iff {text : String} : isBlankText text = true ↔ ¬Visible text := by
  rw [← isBlankText_eq_false_iff, Bool.not_eq_false]

/-- What is dropped from the front of a list satisfies the condition. -/
theorem mem_dropWhile_iff {p : Char → Bool} {chars : List Char} {c : Char} (stays : p c = false) :
    c ∈ chars.dropWhile p ↔ c ∈ chars := by
  constructor
  · exact fun member => (List.dropWhile_suffix p).subset member
  · intro member
    rw [← List.takeWhile_append_dropWhile (p := p) (l := chars), List.mem_append] at member
    refine member.resolve_left fun dropped => ?_
    cases stays.symm.trans (List.mem_takeWhile_imp dropped)

/-- Trimming leaves every character that is no white space. -/
theorem visible_trim {text : String} : Visible (trim text) ↔ Visible text := by
  unfold Visible trim trimChars
  rw [String.toList_ofList]
  refine exists_congr fun c => and_congr_left fun visible => ?_
  rw [List.mem_reverse, mem_dropWhile_iff visible, List.mem_reverse, mem_dropWhile_iff visible]

theorem trimChars_trimChars (chars : List Char) : trimChars (trimChars chars) = trimChars chars := by
  change (((chars.dropWhile isBlank).rdropWhile isBlank).dropWhile isBlank).rdropWhile isBlank =
    (chars.dropWhile isBlank).rdropWhile isBlank
  -- The front of what is left is the front of what the first pass left.
  have front : ((chars.dropWhile isBlank).rdropWhile isBlank).dropWhile isBlank =
      (chars.dropWhile isBlank).rdropWhile isBlank := by
    rw [List.dropWhile_eq_self_iff]
    intro nonempty
    have within := List.rdropWhile_prefix isBlank (chars.dropWhile isBlank)
    rw [within.getElem nonempty]
    exact List.dropWhile_get_zero_not _ _ _
  rw [front, List.rdropWhile_idempotent]

theorem trim_trim (text : String) : trim (trim text) = trim text := by
  unfold trim
  rw [String.toList_ofList, trimChars_trimChars]

end Text

namespace Header

/-! ## The first fault -/

def taken (trim : Bool) (names : List String) : List String :=
  if trim then names.map Text.trim else names

/-- The name at a position is blank or stands earlier too. -/
structure IsFault (names : List String) (index : Nat) (name : String) : Prop where
  here : names[index]? = some name
  wrong : ¬Text.Visible name ∨ name ∈ names.take index

/-- The name at a position is the first one that is blank or stands earlier too. -/
structure FirstFault (names : List String) (index : Nat) (name : String) : Prop where
  fault : IsFault names index name
  least : ∀ earlier < index, ∀ other, ¬IsFault names earlier other

/-- How a fault is reported: by its position if the name is blank, and else by the name. -/
def report (index : Nat) (name : String) : HeaderError :=
  if Text.Visible name then .duplicateField name else .emptyField index

variable {trim : Bool} {names front later earlier : List String} {index : Nat} {name : String}

theorem FirstFault.unique {index' : Nat} {name' : String} (first : FirstFault names index name)
    (second : FirstFault names index' name') : index = index' ∧ name = name' := by
  obtain rfl : index = index' := by
    rcases Nat.lt_trichotomy index index' with before | same | behind
    · exact absurd first.fault (second.least _ before _)
    · exact same
    · exact absurd second.fault (first.least _ behind _)
  exact ⟨rfl, Option.some.inj (first.fault.here.symm.trans second.fault.here)⟩

/-- Names are free of faults exactly if they are visible and distinct. -/
theorem faultless_iff :
    (∀ index name, ¬IsFault names index name) ↔
      (∀ name ∈ names, Text.Visible name) ∧ names.Nodup := by
  constructor
  · intro fine
    refine ⟨fun name member => ?_, List.nodup_iff_getElem?_ne_getElem?.mpr ?_⟩
    · obtain ⟨index, here⟩ := List.mem_iff_getElem?.mp member
      by_contra blank
      exact fine index name ⟨here, .inl blank⟩
    · intro i j before within same
      have here := List.getElem?_eq_getElem within
      refine fine j names[j] ⟨here, .inr (List.mem_iff_getElem?.mpr ⟨i, ?_⟩)⟩
      rw [List.getElem?_take_of_lt before, same, here]
  · rintro ⟨visible, distinct⟩ index name ⟨here, blank | stands⟩
    · exact blank (visible name (List.mem_of_getElem? here))
    · obtain ⟨i, there⟩ := List.mem_iff_getElem?.mp stands
      have before := (List.getElem?_eq_some_iff.mp there).1
      rw [List.length_take] at before
      rw [List.getElem?_take_of_lt (by omega)] at there
      exact List.nodup_iff_getElem?_ne_getElem?.mp distinct i index (by omega)
        (List.getElem?_eq_some_iff.mp here).1 (there.trans here.symm)

/-- The search goes on behind names without faults, and knows them all. -/
theorem firstProblem_cases (known : ∀ name, name ∈ earlier ↔ name ∈ front)
    (fine : ∀ index < front.length, ∀ name, ¬IsFault (front ++ later) index name) :
    (∀ index name, ¬IsFault (front ++ later) index name) ∧
        firstProblem front.length earlier later = none ∨
      ∃ index name, FirstFault (front ++ later) index name ∧
        firstProblem front.length earlier later = some (report index name) := by
  -- A name that is no fault moves from the names ahead to those in front, and becomes known.
  induction later generalizing front earlier with
  | nil =>
      refine .inl ⟨fun index name fault => ?_, rfl⟩
      have within := (List.getElem?_eq_some_iff.mp fault.here).1
      rw [List.append_nil] at within
      exact fine index within name fault
  | cons name later ih =>
      have here : (front ++ name :: later)[front.length]? = some name := by simp
      have before : (front ++ name :: later).take front.length = front := List.take_left
      unfold firstProblem
      by_cases visible : Text.Visible name
      · rw [if_neg (by rw [Text.isBlankText_iff]; exact not_not_intro visible)]
        by_cases stands : name ∈ earlier
        · rw [if_pos stands]
          have fault : IsFault (front ++ name :: later) front.length name :=
            ⟨here, .inr (by rw [before]; exact (known name).mp stands)⟩
          exact .inr ⟨front.length, name, ⟨fault, fine⟩, by rw [report, if_pos visible]⟩
        · rw [if_neg stands]
          have next := @ih (front ++ [name]) (name :: earlier)
          rw [List.append_assoc, List.singleton_append, List.length_append] at next
          refine next (fun other => ?_) fun index within other fault => ?_
          · rw [List.mem_cons, List.mem_append, List.mem_singleton, known, or_comm]
          · rcases Nat.lt_succ_iff_lt_or_eq.mp within with inside | rfl
            · exact fine index inside other fault
            · obtain rfl := Option.some.inj (here.symm.trans fault.here)
              rcases fault.wrong with blank | again
              · exact blank visible
              · rw [before, ← known] at again
                exact stands again
      · rw [if_pos (Text.isBlankText_iff.mpr visible)]
        exact .inr ⟨front.length, name, ⟨⟨here, .inl visible⟩, fine⟩,
          by rw [report, if_neg visible]⟩

/-- Names are searched for the first fault. -/
theorem search_cases (names : List String) :
    (∀ index name, ¬IsFault names index name) ∧ firstProblem 0 [] names = none ∨
      ∃ index name, FirstFault names index name ∧
        firstProblem 0 [] names = some (report index name) :=
  @firstProblem_cases [] names [] (fun _ => Iff.rfl) fun _ => nofun

/-! ## Building a header -/

theorem ofNames_taken (trim : Bool) (names : List String) :
    ofNames trim names = ofNames false (taken trim names) := by
  cases trim <;> rfl

theorem ofNames_of_valid {names : List String} (valid : Valid names) :
    ofNames false names = .ok ⟨names, valid⟩ := by
  have visible : ∀ name ∈ names, Text.Visible name := fun name member =>
    Text.isBlankText_eq_false_iff.mp (valid.not_blank name member)
  have fine := faultless_iff.mpr ⟨visible, valid.nodup⟩
  unfold ofNames
  simp only [Bool.false_eq_true, ↓reduceIte]
  split
  · rename_i empty
    exact absurd empty valid.ne_nil
  · split
    · rename_i problem
      rcases search_cases names with ⟨-, none⟩ | ⟨index, name, first, -⟩
      · cases none.symm.trans problem
      · exact absurd first.fault (fine index name)
    · rfl

/-- Names with a fault are refused because of the first one. -/
theorem ofNames_of_firstFault (first : FirstFault names index name) :
    ofNames false names = .error (report index name) := by
  unfold ofNames
  simp only [Bool.false_eq_true, ↓reduceIte]
  split
  · rename_i empty
    subst empty
    cases first.fault.here
  · rcases search_cases names with ⟨fine, -⟩ | ⟨index', name', first', found⟩
    · exact absurd first.fault (fine index name)
    · obtain ⟨rfl, rfl⟩ := first.unique first'
      split
      · rename_i problem
        rw [Option.some.inj (problem.symm.trans found)]
      · rename_i none
        cases none.symm.trans found

/-- Names are accepted as the header that holds them. -/
theorem ofNames_eq_ok_iff {trim : Bool} {header : Header} :
    ofNames trim names = .ok header ↔ header.names = taken trim names := by
  constructor
  · exact names_of_ofNames
  · intro same
    have valid : Valid (taken trim names) := same ▸ header.valid
    obtain rfl : header = ⟨taken trim names, valid⟩ := by
      cases header
      cases same
      rfl
    rw [ofNames_taken, ofNames_of_valid]

/-- How names are checked, given what comes of them. -/
structure Checks (trim : Bool) (names : List String) (outcome : Except HeaderError Header) :
    Prop where
  /-- Names make a header if there are any, all visible and, as they are taken, distinct. -/
  accepted_iff : (∃ header, outcome = .ok header) ↔
    names ≠ [] ∧ (∀ name ∈ names, Text.Visible name) ∧ (taken trim names).Nodup
  holds : ∀ header, outcome = .ok header → header.names = taken trim names
  /-- A name is at a position exactly if the position is that of the name. -/
  get?_iff : ∀ header, outcome = .ok header → ∀ index name,
    header.get? index = some name ↔ header.indexOf? name = some index
  unknown : ∀ header, outcome = .ok header →
    ∀ name ∉ taken trim names, header.indexOf? name = none
  /-- There are no names, or the first fault is reported. -/
  refused_iff : ∀ e, outcome = .error e ↔
    names = [] ∧ e = .emptyField 0 ∨
      ∃ index name, FirstFault (taken trim names) index name ∧ e = report index name

theorem visible_taken (trim : Bool) (names : List String) :
    (∀ name ∈ taken trim names, Text.Visible name) ↔ ∀ name ∈ names, Text.Visible name := by
  cases trim with
  | false => exact Iff.rfl
  | true =>
      unfold taken
      simp only [↓reduceIte, List.forall_mem_map, Text.visible_trim]

theorem taken_eq_nil_iff (trim : Bool) (names : List String) : taken trim names = [] ↔ names = [] := by
  cases trim with
  | false => exact Iff.rfl
  | true => exact List.map_eq_nil_iff

theorem checks_of_faultless (nonempty : names ≠ [])
    (fine : ∀ index name, ¬IsFault (taken trim names) index name) :
    Checks trim names (ofNames trim names) := by
  obtain ⟨visible, distinct⟩ := faultless_iff.mp fine
  have valid : Valid (taken trim names) :=
    ⟨mt (taken_eq_nil_iff trim names).mp nonempty,
      fun name member => Text.isBlankText_eq_false_iff.mpr (visible name member), distinct⟩
  rw [ofNames_taken, ofNames_of_valid valid]
  constructor
  · exact ⟨fun _ => ⟨nonempty, (visible_taken trim names).mp visible, distinct⟩,
      fun _ => ⟨_, rfl⟩⟩
  · rintro header ⟨⟩
    rfl
  · rintro header ⟨⟩ index name
    exact get?_eq_some_iff
  · rintro header ⟨⟩ name unknown
    exact indexOf?_of_not_mem unknown
  · intro e
    constructor
    · rintro ⟨⟩
    · rintro (⟨empty, -⟩ | ⟨index, name, first, -⟩)
      · exact absurd empty nonempty
      · exact absurd first.fault (fine index name)

theorem checks_of_firstFault (first : FirstFault (taken trim names) index name) :
    Checks trim names (ofNames trim names) := by
  rw [ofNames_taken, ofNames_of_firstFault first]
  constructor
  · refine ⟨nofun, ?_⟩
    rintro ⟨-, visible, distinct⟩
    have fine := faultless_iff.mpr ⟨(visible_taken trim names).mpr visible, distinct⟩
    exact absurd first.fault (fine index name)
  · nofun
  · nofun
  · nofun
  · intro e
    rw [Except.error.injEq]
    constructor
    · intro same
      exact .inr ⟨index, name, first, same.symm⟩
    · rintro (⟨empty, -⟩ | ⟨index', name', first', reported⟩)
      · have here := first.fault.here
        rw [(taken_eq_nil_iff trim names).mpr empty] at here
        cases here
      · obtain ⟨rfl, rfl⟩ := first.unique first'
        exact reported.symm

theorem checks_nil (trim : Bool) : Checks trim [] (ofNames trim []) := by
  have none : taken trim [] = [] := (taken_eq_nil_iff trim []).mpr rfl
  have same : ofNames trim [] = .error (.emptyField 0) := by rw [ofNames_taken, none]; rfl
  rw [same]
  constructor
  · exact ⟨nofun, fun some => absurd rfl some.1⟩
  · nofun
  · nofun
  · nofun
  · intro e
    constructor
    · rintro ⟨⟩
      exact .inl ⟨rfl, rfl⟩
    · rintro (⟨-, rfl⟩ | ⟨index, name, first, -⟩)
      · rfl
      · have here := first.fault.here
        rw [none] at here
        cases here

theorem checks_ofNames (trim : Bool) (names : List String) :
    Checks trim names (ofNames trim names) := by
  by_cases empty : names = []
  · rw [empty]
    exact checks_nil trim
  · rcases search_cases (taken trim names) with ⟨fine, -⟩ | ⟨index, name, first, -⟩
    · exact checks_of_faultless empty fine
    · exact checks_of_firstFault first

/-! ## Names in a record -/

variable {d : Dialect} {bytes : Bytes} {blanks : Nat} {row : Row String}

/-- A text that begins with a row is parsed as the header that its fields make. -/
theorem parse_of_leads (leads : (Decoder.ofBytes bytes.afterByteOrderMark).Leads d 0 row) :
    parse d bytes = ofNames d.trimHeader row.fields := by
  have first : ((Decoder.ofBytes bytes.afterByteOrderMark).next d).1 = some (.ok (.row row)) :=
    leads.2
  unfold parse
  rw [first]

/-- Names are checked in the same way if they are given, if they are the fields of the record that
a text begins with, and if they are the fields of the first record of a source.  Trimming them
beforehand makes no difference where they are trimmed. -/
theorem names_checked :
    (∀ trim names, Checks trim names (ofNames trim names)) ∧
      (∀ names, ofNames true (names.map Text.trim) = ofNames true names) ∧
      ∀ (d : Dialect) (bytes : Bytes) (blanks : Nat) (row : Row String),
        (Decoder.ofBytes bytes.afterByteOrderMark).Leads d blanks row →
          (blanks = 0 → Checks d.trimHeader row.fields (parse d bytes)) ∧
          ∃ outcome start line, Checks d.trimHeader row.fields outcome ∧
            split d bytes = outcome.map fun header => some ⟨header, start, line⟩ := by
  refine ⟨checks_ofNames, fun names => ?_, fun d bytes blanks row leads => ⟨?_, ?_⟩⟩
  · rw [ofNames_taken, ofNames_taken true names]
    refine congrArg (ofNames false) ?_
    change (names.map Text.trim).map Text.trim = names.map Text.trim
    rw [List.map_map]
    exact List.map_congr_left fun name _ => Text.trim_trim name
  · rintro rfl
    rw [parse_of_leads leads]
    exact checks_ofNames ..
  · exact ⟨_, _, _, checks_ofNames .., split_of_leads leads⟩

/-- Behind a blank line, trimming makes the second name the same as the first. -/
theorem names_checked_trimmedRepeat :
    let d : Dialect := { trimHeader := true }
    let bytes : Bytes := [10, 97, 32, 44, 97, 10]
    (Decoder.ofBytes bytes.afterByteOrderMark).Leads d 1 ⟨["a ", "a"], 2⟩ ∧
      FirstFault (taken true ["a ", "a"]) 1 "a" ∧
      split d bytes = .error (.duplicateField "a") := by
  intro d bytes
  have leads : (Decoder.ofBytes bytes.afterByteOrderMark).Leads d 1 ⟨["a ", "a"], 2⟩ := by
    refine ⟨fun k within => ?_, by decide +kernel⟩
    obtain rfl := Nat.lt_one_iff.mp within
    decide +kernel
  have visible : Text.Visible "a" := by decide
  have first : FirstFault (taken true ["a ", "a"]) 1 "a" := by
    refine ⟨⟨by decide, .inr (by decide)⟩, fun earlier before other fault => ?_⟩
    obtain rfl := Nat.lt_one_iff.mp before
    have front : (taken true ["a ", "a"])[0]? = some "a" := by decide
    obtain rfl := Option.some.inj (front.symm.trans fault.here)
    rcases fault.wrong with blank | stands
    · exact blank visible
    · cases stands
  obtain ⟨-, outcome, start, line, checked, parts⟩ := names_checked.2.2 d bytes 1 _ leads
  have refused := (checked.refused_iff _).mpr (.inr ⟨1, "a", first, rfl⟩)
  rw [refused, report, if_pos visible] at parts
  exact ⟨leads, first, parts⟩

end Header

end CsvImport

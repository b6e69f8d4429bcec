import CsvImport.Proofs.BatchNames
import Mathlib.Data.List.DropRight

/-!
# Paths

A path is its pieces with slashes between them.  The pieces that name something are its steps:
the components of the path behind the root.  Pieces that name nothing may be left out or added
without changing where a path leads, and an absolute path is parted into a lexical parent and its
last step.
-/

namespace CsvImport

/-! ## Pieces -/

theorem piecesOf_eq_splitOn (chars : List Char) : piecesOf chars = chars.splitOn '/' := by
  induction chars with
  | nil => exact (List.splitOn_nil _).symm
  | cons c rest ih =>
      unfold piecesOf
      rw [ih]
      unfold List.splitOn
      rw [List.splitOnP_cons_eq_if_modifyHead]
      by_cases slash : c = '/'
      · rw [if_pos slash, if_pos (by simpa using slash)]
      · rw [if_neg slash, if_neg (by simpa using slash)]
        obtain ⟨first, more, same⟩ :=
          List.exists_cons_of_ne_nil (List.splitOnP_ne_nil (· == '/') rest)
        rw [same]
        rfl

theorem piecesOf_append_slash (before after : List Char) :
    piecesOf (before ++ '/' :: after) = piecesOf before ++ piecesOf after := by
  simp only [piecesOf_eq_splitOn, List.splitOn_append_cons_self]

theorem piecesOf_joinPieces {pieces : List (List Char)} (whole : ∀ piece ∈ pieces, '/' ∉ piece)
    (some : pieces ≠ []) : piecesOf (joinPieces pieces) = pieces := by
  rw [piecesOf_eq_splitOn]
  exact List.splitOn_intercalate '/' whole some

theorem piecesOf_ne_nil (chars : List Char) : piecesOf chars ≠ [] := by
  rw [piecesOf_eq_splitOn]
  exact List.splitOn_ne_nil '/' chars

/-- No piece holds a slash, and what it holds stands in the text. -/
theorem of_mem_piecesOf {chars piece : List Char} (member : piece ∈ piecesOf chars) :
    '/' ∉ piece ∧ piece ⊆ chars := by
  induction chars generalizing piece with
  | nil =>
      obtain rfl := List.mem_singleton.mp member
      exact ⟨List.not_mem_nil, List.nil_subset _⟩
  | cons c rest ih =>
      have wider {piece : List Char} (member : piece ∈ piecesOf rest) :
          '/' ∉ piece ∧ piece ⊆ c :: rest :=
        ⟨(ih member).1, List.subset_cons_of_subset c (ih member).2⟩
      unfold piecesOf at member
      split at member
      · rcases List.mem_cons.mp member with rfl | member
        · exact ⟨List.not_mem_nil, List.nil_subset _⟩
        · exact wider member
      · rename_i notSlash
        split at member
        · rename_i none
          exact absurd none (piecesOf_ne_nil rest)
        · rename_i first more pieces
          have tail : '/' ∉ first ∧ first ⊆ c :: rest := wider (pieces ▸ List.mem_cons_self ..)
          rcases List.mem_cons.mp member with rfl | member
          · refine ⟨List.not_mem_cons_of_ne_of_not_mem (Ne.symm notSlash) tail.1, ?_⟩
            exact List.cons_subset.mpr ⟨List.mem_cons_self .., tail.2⟩
          · exact wider (pieces ▸ List.mem_cons_of_mem _ member)

/-- Pieces in front of others make a part of what all make. -/
theorem joinPieces_isPrefix {front pieces : List (List Char)} (found : front <+: pieces) :
    joinPieces front <+: joinPieces pieces := by
  obtain ⟨later, rfl⟩ := found
  induction front with
  | nil => exact List.nil_prefix
  | cons first front ih =>
      cases front with
      | nil =>
          unfold joinPieces
          cases later with
          | nil => exact List.prefix_refl _
          | cons next more =>
              rw [List.singleton_append, List.intercalate_cons_cons, List.intercalate_singleton]
              exact (List.prefix_append ..).trans (List.prefix_append ..)
      | cons next front =>
          unfold joinPieces at ih ⊢
          rw [List.cons_append, List.cons_append, List.intercalate_cons_cons,
            List.intercalate_cons_cons, List.prefix_append_right_inj]
          exact ih

theorem subset_joinPieces {piece : List Char} {pieces : List (List Char)}
    (member : piece ∈ pieces) : piece ⊆ joinPieces pieces := by
  induction pieces with
  | nil => cases member
  | cons first later ih =>
      rcases List.mem_cons.mp member with rfl | listed
      · have front : joinPieces [piece] <+: joinPieces (piece :: later) :=
          joinPieces_isPrefix (List.prefix_append [piece] later)
        rw [joinPieces, List.intercalate_singleton] at front
        exact front.subset
      · obtain ⟨next, more, rfl⟩ := List.exists_cons_of_ne_nil (List.ne_nil_of_mem listed)
        unfold joinPieces at ih ⊢
        rw [List.intercalate_cons_cons]
        exact List.subset_append_of_subset_right _ (ih listed)

theorem mem_joinPieces {c : Char} {pieces : List (List Char)} (member : c ∈ joinPieces pieces) :
    c = '/' ∨ ∃ piece ∈ pieces, c ∈ piece := by
  induction pieces with
  | nil => cases member
  | cons first later ih =>
      cases later with
      | nil =>
          rw [joinPieces, List.intercalate_singleton] at member
          exact .inr ⟨first, List.mem_cons_self .., member⟩
      | cons next more =>
          rw [joinPieces, List.intercalate_cons_cons] at member
          rcases List.mem_append.mp member with front | rest
          · rcases List.mem_append.mp front with inside | slash
            · exact .inr ⟨first, List.mem_cons_self .., inside⟩
            · exact .inl (List.mem_singleton.mp slash)
          · refine (ih rest).imp_right ?_
            rintro ⟨piece, listed, inside⟩
            exact ⟨piece, List.mem_cons_of_mem _ listed, inside⟩

namespace Location

/-! ## Pieces that name nothing -/

theorem trimPieces_isPrefix (pieces : List (List Char)) : trimPieces pieces <+: pieces :=
  List.rdropWhile_prefix isVoid pieces

/-- Pieces without those at the end that name nothing name the same. -/
theorem filter_trimPieces (pieces : List (List Char)) :
    (trimPieces pieces).filter (!isVoid ·) = pieces.filter (!isVoid ·) := by
  have parts : trimPieces pieces ++ pieces.rtakeWhile isVoid = pieces :=
    List.rdropWhile_append_rtakeWhile
  have nothing : (pieces.rtakeWhile isVoid).filter (!isVoid ·) = [] := by
    rw [List.filter_eq_nil_iff]
    intro piece member
    simp [List.mem_rtakeWhile_imp member]
  rw [← List.append_nil (List.filter _ (trimPieces pieces)), ← nothing, ← List.filter_append,
    parts]

/-- The last of the pieces that are left names something. -/
theorem not_isVoid_of_trimPieces {pieces before : List (List Char)} {last : List Char}
    (left : trimPieces pieces = before ++ [last]) : isVoid last = false := by
  have some : List.rdropWhile isVoid pieces ≠ [] := by
    change trimPieces pieces ≠ []
    simp [left]
  have named := List.rdropWhile_last_not isVoid pieces some
  have ends : (List.rdropWhile isVoid pieces).getLast some = last := by
    change (trimPieces pieces).getLast some = last
    simp only [left, List.getLast_concat]
  rw [ends] at named
  exact Bool.eq_false_iff.mpr named

end Location

namespace Store

/-! ## Steps -/

/-- The steps of a path that is made of pieces are the pieces that name something. -/
theorem steps_joinPieces {pieces : List (List Char)} (whole : ∀ piece ∈ pieces, '/' ∉ piece)
    (some : pieces ≠ []) :
    steps (String.ofList (joinPieces pieces)) =
      (pieces.filter (!Location.isVoid ·)).map String.ofList := by
  rw [steps, String.toList_ofList, piecesOf_joinPieces whole some]

theorem steps_append (first later : String) :
    steps (first ++ "/" ++ later) = steps first ++ steps later := by
  have chars : (first ++ "/" ++ later).toList = first.toList ++ '/' :: later.toList := by
    rw [String.toList_append, String.toList_append, List.append_assoc]
    rfl
  unfold steps
  rw [chars, piecesOf_append_slash, List.filter_append, List.map_append]

theorem steps_behind_root (path : String) : steps ("/" ++ path) = steps path :=
  steps_append "" path

/-- A step of a path is a step of its own. -/
theorem steps_of_mem {path name : String} (member : name ∈ steps path) : steps name = [name] := by
  obtain ⟨piece, listed, rfl⟩ := List.mem_map.mp member
  obtain ⟨written, named⟩ := List.mem_filter.mp listed
  rw [steps, String.toList_ofList, Key.piecesOf_whole (of_mem_piecesOf written).1]
  simp [named]

theorem endsInName_iff {path : String} :
    endsInName path = true ↔
      ∃ front last, piecesOf path.toList = front ++ [last] ∧ Location.isVoid last = false := by
  unfold endsInName
  constructor
  · intro ends
    rcases List.eq_nil_or_concat' (piecesOf path.toList) with none | ⟨front, last, same⟩
    · exact absurd none (piecesOf_ne_nil _)
    · rw [same, List.getLast?_concat] at ends
      exact ⟨front, last, same, by simpa using ends⟩
  · rintro ⟨front, last, same, named⟩
    rw [same, List.getLast?_concat]
    simp [named]

theorem steps_ne_nil_of_endsInName {path : String} (ends : endsInName path = true) :
    steps path ≠ [] := by
  obtain ⟨front, last, pieces, named⟩ := endsInName_iff.mp ends
  have kept : last ∈ (front ++ [last]).filter (!Location.isVoid ·) :=
    List.mem_filter.mpr ⟨by simp, by simp [named]⟩
  rw [steps, pieces]
  exact List.ne_nil_of_mem (List.mem_map_of_mem kept)

/-- What follows on the pieces of a path and adds no step does not end in a name. -/
theorem eq_of_isPrefix {path longer : String}
    (front : piecesOf path.toList <+: piecesOf longer.toList) (same : steps path = steps longer)
    (ends : endsInName longer = true) : path = longer := by
  obtain ⟨tail, parts⟩ := front
  have nothing : tail.filter (!Location.isVoid ·) = [] := by
    have sizes := congrArg List.length same
    rw [steps, steps, ← parts, List.filter_append, List.map_append, List.length_append] at sizes
    simpa using sizes
  rcases List.eq_nil_or_concat' tail with rfl | ⟨inner, last, rfl⟩
  · rw [List.append_nil] at parts
    rw [← String.toList_inj, ← joinPieces_piecesOf path.toList, parts, joinPieces_piecesOf]
  · obtain ⟨others, name, same, named⟩ := endsInName_iff.mp ends
    rw [← parts, ← List.append_assoc] at same
    obtain ⟨-, isLast⟩ := List.append_inj' same rfl
    obtain rfl := List.singleton_inj.mp isLast
    rw [List.filter_append] at nothing
    simp [named] at nothing

end Store

namespace Location

/-! ## Parents -/

/-- Whether a path is the lexical parent of an absolute one: the pieces of that up to the name in
front of its last step, or else the root.  A path without steps has no parent but itself. -/
structure IsParent (path parent : String) : Prop where
  rooted : parent.toList.head? = some '/'
  steps : Store.steps parent = (Store.steps path).dropLast
  ends : if Store.steps path = [] then parent = path
    else parent = "/" ∨
      piecesOf parent.toList <+: piecesOf path.toList ∧ Store.endsInName parent = true

theorem IsParent.unique {path parent other : String} (isParent : IsParent path parent)
    (again : IsParent path other) : parent = other := by
  have same : Store.steps parent = Store.steps other := isParent.steps.trans again.steps.symm
  have first := isParent.ends
  have second := again.ends
  split at first
  · rename_i none
    rw [if_pos none] at second
    rw [first, second]
  · rename_i some
    rw [if_neg some] at second
    have root : Store.steps "/" = [] := rfl
    rcases first with rfl | ⟨front, ends⟩
    · rcases second with rfl | ⟨-, otherEnds⟩
      · rfl
      · exact absurd (same.symm.trans root) (Store.steps_ne_nil_of_endsInName otherEnds)
    · rcases second with rfl | ⟨otherFront, otherEnds⟩
      · exact absurd (same.trans root) (Store.steps_ne_nil_of_endsInName ends)
      · rcases List.prefix_or_prefix_of_prefix front otherFront with shorter | longer
        · exact Store.eq_of_isPrefix shorter same otherEnds
        · exact (Store.eq_of_isPrefix longer same.symm ends).symm

/-- A path without steps is not parted; any other is parted in front of its last step. -/
theorem split_cases (path : String) :
    (Store.steps path = [] ∧ split path = (path, none)) ∨
    ∃ before last, before ++ [last] <+: piecesOf path.toList ∧
      Store.steps path = (before.filter (!isVoid ·)).map String.ofList ++ [String.ofList last] ∧
      split path = (pathOf (trimPieces before),
        if last = ['.', '.'] then none else some ⟨[Key.encodePart (String.ofList last)]⟩) := by
  have named := filter_trimPieces (piecesOf path.toList)
  unfold split Store.steps
  rw [← named]
  cases left : (trimPieces (piecesOf path.toList)).reverse with
  | nil =>
      rw [List.reverse_eq_nil_iff.mp left]
      exact .inl ⟨rfl, rfl⟩
  | cons last rest =>
      have whole : trimPieces (piecesOf path.toList) = rest.reverse ++ [last] := by
        rw [← List.reverse_cons, ← left, List.reverse_reverse]
      have ends := not_isVoid_of_trimPieces whole
      refine .inr ⟨rest.reverse, last, ?_, ?_, ?_⟩
      · rw [← whole]
        exact trimPieces_isPrefix _
      · rw [whole, List.filter_append, List.map_append]
        simp [ends]
      · simp only
        split <;> rfl

/-- Pieces from the front of an absolute path begin with the empty one. -/
theorem head_of_isPrefix {path : String} {first : List Char} {pieces : List (List Char)}
    (absolute : path.toList.head? = some '/') (front : first :: pieces <+: piecesOf path.toList) :
    first = [] := by
  obtain ⟨rest, chars⟩ := List.head?_eq_some_iff.mp absolute
  rw [chars, piecesOf, if_pos rfl] at front
  exact (List.cons_prefix_cons.mp front).1

/-- The pieces in front of the last step of an absolute path make its lexical parent. -/
theorem pathOf_isParent {path : String} {before : List (List Char)} {last : List Char}
    (absolute : path.toList.head? = some '/') (front : before ++ [last] <+: piecesOf path.toList)
    (steps : Store.steps path =
      (before.filter (!isVoid ·)).map String.ofList ++ [String.ofList last]) :
    IsParent path (pathOf (trimPieces before)) := by
  have some : Store.steps path ≠ [] := by
    simp [steps]
  have kept : (Store.steps path).dropLast =
      ((trimPieces before).filter (!isVoid ·)).map String.ofList := by
    rw [steps, List.dropLast_concat, filter_trimPieces]
  have pieces : trimPieces before <+: piecesOf path.toList :=
    (trimPieces_isPrefix before).trans ((List.prefix_append ..).trans front)
  rcases List.eq_nil_or_concat' (trimPieces before) with nothing | ⟨inner, name, left⟩
  · -- Nothing is named in front of the last step.
    rw [nothing] at kept ⊢
    constructor
    · rfl
    · rw [kept]
      rfl
    · rw [if_neg some]
      exact .inl rfl
  · have named := not_isVoid_of_trimPieces left
    rw [left] at kept pieces ⊢
    have whole : ∀ piece ∈ inner ++ [name], '/' ∉ piece := fun piece member =>
      (of_mem_piecesOf (pieces.subset member)).1
    have filled : inner ++ [name] ≠ [] := by simp
    have written : (pathOf (inner ++ [name])).toList = joinPieces (inner ++ [name]) := by
      unfold pathOf
      rw [if_neg (by simp), String.toList_ofList]
    have again : piecesOf (pathOf (inner ++ [name])).toList = inner ++ [name] := by
      rw [written, piecesOf_joinPieces whole filled]
    constructor
    · -- The last piece names something, so the empty one in front is not the only one.
      cases inner with
      | nil =>
          obtain rfl := head_of_isPrefix absolute pieces
          cases named
      | cons first more =>
          obtain rfl := head_of_isPrefix absolute pieces
          rw [written]
          obtain ⟨next, others, same⟩ : ∃ next others, more ++ [name] = next :: others :=
            List.exists_cons_of_ne_nil (by simp)
          rw [List.cons_append, same, joinPieces, List.intercalate_cons_cons]
          rfl
    · rw [kept, Store.steps, again]
    · rw [if_neg some]
      refine .inr ⟨?_, Store.endsInName_iff.mpr ⟨inner, name, again, named⟩⟩
      rw [again]
      exact pieces

/-- The key of the last of some steps; none if there is no step, or if the last one leads back. -/
def lastKey? (steps : List String) : Option Key :=
  match steps.getLast? with
  | none => none
  | some name => if name = ".." then none else some ⟨[Key.encodePart name]⟩

/-- An absolute path is parted into its lexical parent and the key of its last step. -/
theorem split_eq {path : String} (absolute : path.toList.head? = some '/') :
    IsParent path (split path).1 ∧ (split path).2 = lastKey? (Store.steps path) := by
  rcases split_cases path with ⟨none, same⟩ | ⟨before, last, front, steps, same⟩
  · rw [same, none]
    refine ⟨⟨absolute, ?_, ?_⟩, rfl⟩
    · rw [none]
      rfl
    · rw [if_pos none]
  · rw [same]
    refine ⟨pathOf_isParent absolute front steps, ?_⟩
    rw [lastKey?, steps, List.getLast?_concat]
    have back : String.ofList last = ".." ↔ last = ['.', '.'] := by
      rw [← String.toList_inj, String.toList_ofList]
      rfl
    simp only [back]

end Location

end CsvImport

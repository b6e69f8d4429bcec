import CsvImport.Proofs.Paths
import Mathlib.Data.List.Infix

/-!
# What URLs address

A URL is matched against patterns in order: the memory store, then three ways to write an absolute
path.  A relative path is made absolute and matched again, which ends with that second call, since
an absolute path matches.  Every URL without line feeds is classified so, and the path that it
writes is parted at its last step if an object is asked for.
-/

namespace CsvImport

namespace Location

/-! ## Parts of a URL -/

theorem behind?_eq_some_iff {start text rest : String} :
    behind? start text = some rest ↔ text = start ++ rest := by
  unfold behind?
  rw [Option.map_eq_some_iff, ← String.toList_inj, String.toList_append]
  constructor
  · rintro ⟨chars, found, rfl⟩
    rw [String.toList_ofList]
    exact (List.isPrefixOf?_eq_some_iff_append_eq.mp found).symm
  · intro same
    refine ⟨rest.toList, List.isPrefixOf?_eq_some_iff_append_eq.mpr same.symm, ?_⟩
    exact String.ofList_toList ..

theorem behind?_eq_none_iff {start text : String} :
    behind? start text = none ↔ ¬start.toList <+: text.toList := by
  rw [Option.eq_none_iff_forall_ne_some]
  constructor
  · rintro other ⟨rest, same⟩
    refine other (String.ofList rest) (behind?_eq_some_iff.mpr ?_)
    rw [← String.toList_inj, String.toList_append, String.toList_ofList, same]
  · rintro other rest found
    obtain rfl := behind?_eq_some_iff.mp found
    refine other ?_
    rw [String.toList_append]
    exact List.prefix_append ..

theorem head?_slash (rest : String) : ("/" ++ rest).toList.head? = some '/' := by
  rw [String.toList_append]
  rfl

theorem toList_slash (chars : List Char) : ("/" ++ String.ofList chars).toList = '/' :: chars := by
  rw [String.toList_append, @String.toList_ofList chars]
  rfl

/-- A text does not begin with another that begins otherwise. -/
theorem behind?_of_head {start text : String} {c e : Char} (first : start.toList.head? = some c)
    (head : text.toList.head? = some e) (other : c ≠ e) : behind? start text = none := by
  obtain ⟨letters, startChars⟩ := List.head?_eq_some_iff.mp first
  obtain ⟨rest, chars⟩ := List.head?_eq_some_iff.mp head
  rw [behind?_eq_none_iff, startChars, chars]
  exact fun front => other (List.cons_prefix_cons.mp front).1

theorem holds_iff {part chars : List Char} : holds part chars = true ↔ part <:+: chars := by
  induction chars with
  | nil => rw [holds, List.isEmpty_iff, List.infix_nil]
  | cons c rest ih =>
      rw [holds, Bool.or_eq_true, ih, List.isPrefixOf_iff_prefix, List.infix_cons_iff]

/-- An absolute path as it stands, and any other behind the root. -/
def rooted (path : String) : String :=
  if path.toList.head? = some '/' then path else "/" ++ path

theorem ofPath_eq (path : String) (withKey : Bool) :
    ofPath path withKey =
      if withKey then .disk (split (rooted path)).1 (split (rooted path)).2
      else .disk (rooted path) none := by
  unfold ofPath rooted
  cases withKey <;> simp only [if_true, Bool.false_eq_true, if_false]

theorem head?_rooted (path : String) : (rooted path).toList.head? = some '/' := by
  unfold rooted
  split
  · assumption
  · exact head?_slash path

/-- Whether the one slash in front is written or not, the path is the same. -/
theorem ofPath_slash {rest : String} (single : rest.toList.head? ≠ some '/') (withKey : Bool) :
    ofPath ("/" ++ rest) withKey = ofPath rest withKey := by
  have same : rooted ("/" ++ rest) = rooted rest := by
    rw [rooted, if_pos (head?_slash rest), rooted, if_neg single]
  rw [ofPath_eq, ofPath_eq, same]

theorem steps_rooted (path : String) : Store.steps (rooted path) = Store.steps path := by
  unfold rooted
  split
  · rfl
  · exact Store.steps_behind_root path

/-- The pieces that a path has behind the root: those that name something, and an empty one if it
ends in a slash. -/
def namesOf (path : String) : List (List Char) :=
  (piecesOf path.toList).filter (!isVoid ·) ++
    if path.toList.getLast? = some '/' then [[]] else []

theorem of_mem_namesOf {path : String} {piece : List Char} (member : piece ∈ namesOf path) :
    '/' ∉ piece ∧ piece ⊆ path.toList := by
  rcases List.mem_append.mp member with named | slash
  · exact of_mem_piecesOf (List.mem_of_mem_filter named)
  · split at slash
    · obtain rfl := List.mem_singleton.mp slash
      exact ⟨List.not_mem_nil, List.nil_subset _⟩
    · cases slash

theorem steps_namesOf (path : String) :
    ((namesOf path).filter (!isVoid ·)).map String.ofList = Store.steps path := by
  have nothing : (if path.toList.getLast? = some '/' then [[]] else []).filter
      (fun piece => !isVoid piece) = [] := by
    split <;> rfl
  rw [namesOf, List.filter_append, nothing, List.append_nil, List.filter_filter]
  simp only [Bool.and_self]
  rfl

/-- A piece that is not empty makes the front of the text. -/
theorem head?_joinPieces {first : List Char} (whole : '/' ∉ first) (filled : first ≠ [])
    (later : List (List Char)) : (joinPieces (first :: later)).head? ≠ some '/' := by
  obtain ⟨c, letters, rfl⟩ := List.exists_cons_of_ne_nil filled
  have other : c ≠ '/' := by
    rintro rfl
    exact whole (List.mem_cons_self ..)
  have front : joinPieces [c :: letters] <+: joinPieces ((c :: letters) :: later) :=
    joinPieces_isPrefix (List.prefix_append [c :: letters] later)
  rw [← front.choose_spec]
  simpa [joinPieces] using other

/-- Without a slash in front two slashes stand behind a whole piece if they stand in the text. -/
theorem infix_of_infix_append {piece chars : List Char} (whole : '/' ∉ piece)
    (slashes : ['/', '/'] <:+: piece ++ '/' :: chars) : ['/', '/'] <:+: '/' :: chars := by
  induction piece with
  | nil => exact slashes
  | cons c letters ih =>
      obtain ⟨notFirst, whole⟩ := not_or.mp (mt List.mem_cons.mpr whole)
      rcases List.infix_cons_iff.mp slashes with front | later
      · exact absurd (List.cons_prefix_cons.mp front).1 notFirst
      · exact ih whole later

/-- Two slashes follow each other only around an empty piece that is not the last. -/
theorem not_infix_joinPieces {pieces : List (List Char)} (whole : ∀ piece ∈ pieces, '/' ∉ piece)
    (filled : ∀ piece ∈ pieces.dropLast, piece ≠ []) :
    ¬['/', '/'] <:+: '/' :: joinPieces pieces := by
  induction pieces with
  | nil => decide
  | cons first later ih =>
      have firstWhole : '/' ∉ first := whole first (List.mem_cons_self ..)
      intro slashes
      cases later with
      | nil =>
          rw [joinPieces, List.intercalate_singleton] at slashes
          rcases List.infix_cons_iff.mp slashes with front | behind
          · exact firstWhole ((List.cons_prefix_cons.mp front).2.subset (List.mem_cons_self ..))
          · exact firstWhole (behind.subset (List.mem_cons_self ..))
      | cons next more =>
          rw [joinPieces, List.intercalate_cons_cons, List.append_assoc] at slashes
          have firstFilled : first ≠ [] := filled first (List.mem_cons_self ..)
          obtain ⟨c, letters, rfl⟩ := List.exists_cons_of_ne_nil firstFilled
          rcases List.infix_cons_iff.mp slashes with front | behind
          · have same := (List.cons_prefix_cons.mp (List.cons_prefix_cons.mp front).2).1
            exact firstWhole (same ▸ List.mem_cons_self ..)
          · refine ih (fun piece member => whole piece (List.mem_cons_of_mem _ member))
              (fun piece member => filled piece (List.mem_cons_of_mem _ member)) ?_
            exact infix_of_infix_append firstWhole behind

/-- Only at the end of a path is a piece empty. -/
theorem ne_nil_of_mem_dropLast_namesOf {path : String} {piece : List Char}
    (member : piece ∈ (namesOf path).dropLast) : piece ≠ [] := by
  have named : piece ∈ (piecesOf path.toList).filter (!isVoid ·) := by
    unfold namesOf at member
    split at member
    · rwa [List.dropLast_concat] at member
    · rw [List.append_nil] at member
      exact List.mem_of_mem_dropLast member
  rintro rfl
  cases (List.mem_filter.mp named).2

theorem not_infix_namesOf (path : String) :
    ¬['/', '/'] <:+: '/' :: joinPieces (namesOf path) :=
  not_infix_joinPieces (fun _ member => (of_mem_namesOf member).1)
    fun _ => ne_nil_of_mem_dropLast_namesOf

theorem head?_joinPieces_namesOf (path : String) :
    (joinPieces (namesOf path)).head? ≠ some '/' := by
  intro slash
  obtain ⟨rest, chars⟩ := List.head?_eq_some_iff.mp slash
  refine not_infix_namesOf path ?_
  rw [chars]
  exact (List.prefix_append ['/', '/'] rest).isInfix

/-! ## Working directories -/

/-- A working directory is an absolute path, with one slash in front and without line feeds. -/
structure IsWorkingDirectory (path : String) : Prop where
  rooted : path.toList.head? = some '/'
  single : path.toList.tail.head? ≠ some '/'
  free : '\n' ∉ path.toList

theorem isWorkingDirectory_root : IsWorkingDirectory "/" where
  rooted := by decide
  single := by decide
  free := by decide

/-- The pieces behind the root that lead to a working directory. -/
def directoryPieces (workingDirectory : String) : List (List Char) :=
  trimPieces (piecesOf workingDirectory.toList.tail)

theorem trimPieces_cons (pieces : List (List Char)) :
    trimPieces ([] :: pieces) =
      if (trimPieces pieces).isEmpty then [] else [] :: trimPieces pieces := by
  unfold trimPieces
  rw [List.reverse_cons, List.dropWhile_append, List.isEmpty_reverse]
  split
  · rfl
  · rw [List.reverse_append]
    rfl

section

variable {workingDirectory : String}

theorem IsWorkingDirectory.pieces (isDirectory : IsWorkingDirectory workingDirectory) :
    piecesOf workingDirectory.toList = [] :: piecesOf workingDirectory.toList.tail := by
  obtain ⟨rest, chars⟩ := List.head?_eq_some_iff.mp isDirectory.rooted
  rw [chars, piecesOf, if_pos rfl]
  rfl

theorem of_mem_directoryPieces {piece : List Char}
    (member : piece ∈ directoryPieces workingDirectory) :
    '/' ∉ piece ∧ piece ⊆ workingDirectory.toList := by
  obtain ⟨whole, inside⟩ := of_mem_piecesOf ((trimPieces_isPrefix _).subset member)
  exact ⟨whole, fun c within => List.mem_of_mem_tail (inside within)⟩

/-- The pieces of a relative path stand behind those of the working directory. -/
theorem absolute_eq (isDirectory : IsWorkingDirectory workingDirectory) (path : String) :
    absolute workingDirectory path =
      "/" ++ String.ofList (joinPieces (directoryPieces workingDirectory ++ namesOf path)) := by
  have base : (if (trimPieces (piecesOf workingDirectory.toList)).isEmpty then [[]]
      else trimPieces (piecesOf workingDirectory.toList)) =
      [] :: directoryPieces workingDirectory := by
    rw [isDirectory.pieces, trimPieces_cons]
    unfold directoryPieces
    cases trimPieces (piecesOf workingDirectory.toList.tail) <;> rfl
  have unfolded : absolute workingDirectory path =
      if ([] :: (directoryPieces workingDirectory ++ namesOf path)).length ≤ 1 then "/"
      else String.ofList (joinPieces
        ([] :: (directoryPieces workingDirectory ++ namesOf path))) := by
    unfold absolute
    simp only [base, List.cons_append, List.append_assoc]
    rfl
  rw [unfolded]
  cases directoryPieces workingDirectory ++ namesOf path with
  | nil => rfl
  | cons first more =>
      rw [if_neg (by simp), ← String.toList_inj, String.toList_append]
      simp only [String.toList_ofList]
      rw [joinPieces, List.intercalate_cons_cons]
      rfl

theorem head?_absolute (isDirectory : IsWorkingDirectory workingDirectory) (path : String) :
    (absolute workingDirectory path).toList.head? = some '/' := by
  rw [absolute_eq isDirectory]
  exact head?_slash _

/-- A path without line feeds stays without them behind a working directory. -/
theorem absolute_free (isDirectory : IsWorkingDirectory workingDirectory) {path : String}
    (free : '\n' ∉ path.toList) : '\n' ∉ (absolute workingDirectory path).toList := by
  rw [absolute_eq isDirectory, toList_slash]
  intro inside
  have behind := (List.mem_cons.mp inside).resolve_left (by decide)
  obtain ⟨piece, member, within⟩ := (mem_joinPieces behind).resolve_left (by decide)
  rcases List.mem_append.mp member with base | name
  · exact isDirectory.free ((of_mem_directoryPieces base).2 within)
  · exact free ((of_mem_namesOf name).2 within)

/-- Behind its slash an absolute path made of a relative one has no further slash. -/
theorem head?_joinPieces_directoryPieces (isDirectory : IsWorkingDirectory workingDirectory)
    (path : String) :
    (joinPieces (directoryPieces workingDirectory ++ namesOf path)).head? ≠ some '/' := by
  cases pieces : directoryPieces workingDirectory with
  | nil => exact head?_joinPieces_namesOf path
  | cons first more =>
      have member : first ∈ directoryPieces workingDirectory := pieces ▸ List.mem_cons_self ..
      have front : first :: more <+: piecesOf workingDirectory.toList.tail :=
        pieces ▸ trimPieces_isPrefix _
      have single := isDirectory.single
      refine head?_joinPieces (of_mem_directoryPieces member).1 ?_ _
      rintro rfl
      unfold directoryPieces at pieces
      cases chars : workingDirectory.toList.tail with
      | nil =>
          rw [chars] at pieces
          cases pieces
      | cons c rest =>
          rw [chars] at single front
          rw [piecesOf, if_neg fun slash => single (congrArg some slash)] at front
          split at front <;> cases (List.cons_prefix_cons.mp front).1

theorem steps_absolute (isDirectory : IsWorkingDirectory workingDirectory) (path : String) :
    Store.steps (absolute workingDirectory path) =
      Store.steps workingDirectory ++ Store.steps path := by
  have directory : ((directoryPieces workingDirectory).filter (!isVoid ·)).map String.ofList =
      Store.steps workingDirectory := by
    rw [directoryPieces, filter_trimPieces, Store.steps, isDirectory.pieces]
    rfl
  rw [absolute_eq isDirectory, Store.steps_behind_root, ← directory, ← steps_namesOf path,
    ← List.map_append, ← List.filter_append]
  cases whole : directoryPieces workingDirectory ++ namesOf path with
  | nil => rfl
  | cons first more =>
      refine Store.steps_joinPieces ?_ (List.cons_ne_nil _ _)
      intro piece member
      rcases List.mem_append.mp (whole ▸ member) with front | behind
      · exact (of_mem_directoryPieces front).1
      · exact (of_mem_namesOf behind).1

end

/-- A relative path made absolute at the root is its pieces behind the root. -/
theorem absolute_root (path : String) :
    absolute "/" path = "/" ++ String.ofList (joinPieces (namesOf path)) :=
  absolute_eq isWorkingDirectory_root path

/-! ## Calls -/

/-- What a pattern that begins with `start` captures: all that stands behind it, unless a line feed
is among it. -/
def captured? (start text : String) : Option String :=
  (behind? start text).filter fun rest => !rest.toList.contains '\n'

/-- What one call for a URL comes to: a result, or a call for another URL. -/
inductive Answer where
  | done (result : Except StorageError Location)
  | again (url : String)
deriving DecidableEq, Repr

/-- One call for a URL.  The patterns are tried in order; a path that matches none of them is made
absolute and left to another call. -/
def call (workingDirectory url : String) (withKey : Bool) : Answer :=
  match captured? "memory://" url with
  | some key => .done (.ok (.memory (if key.isEmpty then none else some (Key.ofText key))))
  | none =>
      match captured? "file://" url <|> captured? "file:" url <|> captured? "/" url with
      | some path => .done (.ok (ofPath path withKey))
      | none =>
          if url.isEmpty || holds "://".toList url.toList then .done (.error (.invalidUrl url))
          else
            let path := absolute workingDirectory url
            if path.toList.head? = some '/' then .again path
            else .done (.error (.invalidUrl url))

theorem contains_lineFeed {text : String} (free : '\n' ∉ text.toList) :
    text.toList.contains '\n' = false := by
  simpa using free

/-- Whether a text is refused as a URL if no pattern fits it. -/
theorem isRefused_iff (url : String) :
    (url.isEmpty || holds "://".toList url.toList) = true ↔
      ¬(url ≠ "" ∧ ¬"://".toList <:+: url.toList) := by
  rw [Bool.or_eq_true, String.isEmpty_iff, holds_iff]
  tauto

/-- A URL comes to a result after so many further calls. -/
inductive Parses (workingDirectory : String) (withKey : Bool) :
    Nat → String → Except StorageError Location → Prop where
  | done {url : String} {result : Except StorageError Location}
      (answer : call workingDirectory url withKey = .done result) :
      Parses workingDirectory withKey 0 url result
  | again {url next : String} {n : Nat} {result : Except StorageError Location}
      (answer : call workingDirectory url withKey = .again next)
      (rest : Parses workingDirectory withKey n next result) :
      Parses workingDirectory withKey (n + 1) url result

/-- A URL comes to at most one result. -/
theorem Parses.unique {workingDirectory url : String} {withKey : Bool} {n m : Nat}
    {result other : Except StorageError Location}
    (parses : Parses workingDirectory withKey n url result)
    (again : Parses workingDirectory withKey m url other) : m = n ∧ other = result := by
  induction parses generalizing m with
  | done answer =>
      cases again with
      | done same =>
          rw [answer] at same
          cases same
          exact ⟨rfl, rfl⟩
      | again same =>
          rw [answer] at same
          cases same
  | again answer rest ih =>
      cases again with
      | done same =>
          rw [answer] at same
          cases same
      | again same later =>
          rw [answer] at same
          cases same
          obtain ⟨rfl, rfl⟩ := ih later
          exact ⟨rfl, rfl⟩

/-- Without line feeds a pattern captures all that stands behind its start. -/
theorem captured?_eq {url : String} (free : '\n' ∉ url.toList) (start : String) :
    captured? start url = behind? start url := by
  unfold captured?
  cases found : behind? start url with
  | none => rfl
  | some rest =>
      obtain rfl := behind?_eq_some_iff.mp found
      rw [String.toList_append] at free
      have whole : '\n' ∉ rest.toList := fun inside => free (List.mem_append_right _ inside)
      exact Option.filter_some_pos (by simpa using whole)

/-- A call ends with what the URL addresses, or goes on with a relative path made absolute. -/
theorem call_cases {workingDirectory url : String}
    (isDirectory : IsWorkingDirectory workingDirectory) (free : '\n' ∉ url.toList)
    (withKey : Bool) :
    call workingDirectory url withKey = .done (parse workingDirectory url withKey) ∨
      call workingDirectory url withKey = .again (absolute workingDirectory url) ∧
        parse workingDirectory url withKey =
          .ok (ofPath (absolute workingDirectory url) withKey) := by
  have still : '\n' ∉ (absolute workingDirectory url).toList := absolute_free isDirectory free
  unfold call parse
  simp only [captured?_eq free, contains_lineFeed free, contains_lineFeed still, cond_false]
  cases behind? "memory://" url with
  | some key => exact .inl rfl
  | none =>
      cases behind? "file://" url <|> behind? "file:" url <|> behind? "/" url with
      | some path => exact .inl rfl
      | none =>
          simp only
          split
          · exact .inl rfl
          · rw [if_pos (head?_absolute isDirectory url)]
            exact .inr ⟨rfl, rfl⟩

/-- Of the patterns, only the last one fits an absolute path. -/
theorem behind?_absolute (rest : String) :
    behind? "memory://" ("/" ++ rest) = none ∧ behind? "file://" ("/" ++ rest) = none ∧
      behind? "file:" ("/" ++ rest) = none ∧ behind? "/" ("/" ++ rest) = some rest :=
  have other {start : String} {c : Char} (first : start.toList.head? = some c) (ne : c ≠ '/') :
      behind? start ("/" ++ rest) = none := behind?_of_head first (head?_slash rest) ne
  ⟨other (c := 'm') (by decide) (by decide), other (c := 'f') (by decide) (by decide),
    other (c := 'f') (by decide) (by decide), behind?_eq_some_iff.mpr rfl⟩

theorem call_slash {rest : String} (free : '\n' ∉ ("/" ++ rest).toList)
    (workingDirectory : String) (withKey : Bool) :
    call workingDirectory ("/" ++ rest) withKey = .done (.ok (ofPath rest withKey)) := by
  obtain ⟨memory, uri, scheme, path⟩ := behind?_absolute rest
  unfold call
  simp only [captured?_eq free]
  rw [memory, uri, scheme, path]
  rfl

/-- An absolute path addresses what stands behind its slash. -/
theorem parse_slash {rest : String} (free : '\n' ∉ ("/" ++ rest).toList)
    (workingDirectory : String) (withKey : Bool) :
    parse workingDirectory ("/" ++ rest) withKey = .ok (ofPath rest withKey) := by
  obtain ⟨memory, uri, scheme, path⟩ := behind?_absolute rest
  unfold parse
  rw [contains_lineFeed free, memory, uri, scheme, path]
  rfl

/-- What a URL without line feeds addresses is found with at most one further call. -/
theorem parses_from {workingDirectory url : String}
    (isDirectory : IsWorkingDirectory workingDirectory) (free : '\n' ∉ url.toList)
    (withKey : Bool) :
    ∃ n ≤ 1, Parses workingDirectory withKey n url (parse workingDirectory url withKey) := by
  rcases call_cases isDirectory free withKey with answer | ⟨answer, result⟩
  · exact ⟨0, Nat.zero_le 1, .done answer⟩
  · refine ⟨1, Nat.le_refl 1, .again answer (.done ?_)⟩
    let pieces := directoryPieces workingDirectory ++ namesOf url
    have single : (String.ofList (joinPieces pieces)).toList.head? ≠ some '/' := by
      rw [String.toList_ofList]
      exact head?_joinPieces_directoryPieces isDirectory url
    have still : '\n' ∉ ("/" ++ String.ofList (joinPieces pieces)).toList := by
      rw [← absolute_eq isDirectory]
      exact absolute_free isDirectory free
    rw [result, absolute_eq isDirectory, ofPath_slash single]
    exact call_slash still workingDirectory withKey

theorem parses_parse {url : String} (free : '\n' ∉ url.toList) (withKey : Bool) :
    ∃ n ≤ 1, Parses "/" withKey n url (parse "/" url withKey) :=
  parses_from isWorkingDirectory_root free withKey

/-! ## Calls without an end -/

/-- A pattern fits no text in which a line feed stands behind its start. -/
theorem captured?_lineFeed {start url : String} (startFree : '\n' ∉ start.toList)
    (broken : '\n' ∈ url.toList) : captured? start url = none := by
  unfold captured?
  rw [Option.filter_eq_none_iff]
  intro rest found
  obtain rfl := behind?_eq_some_iff.mp found
  rw [String.toList_append] at broken
  have inside : '\n' ∈ rest.toList := (List.mem_append.mp broken).resolve_left startFree
  simpa using inside

/-- A text in which a line feed stands is refused or made absolute. -/
theorem call_lineFeed {url : String} (broken : '\n' ∈ url.toList) (withKey : Bool) :
    call "/" url withKey =
      if url.isEmpty || holds "://".toList url.toList then .done (.error (.invalidUrl url))
      else .again (absolute "/" url) := by
  have fits {start : String} (startFree : '\n' ∉ start.toList) : captured? start url = none :=
    captured?_lineFeed startFree broken
  unfold call
  rw [fits (by decide), fits (by decide), fits (by decide), fits (by decide)]
  simp only [Option.orElse_eq_orElse, Option.orElse_none]
  rw [if_pos (head?_absolute isWorkingDirectory_root url)]

theorem lineFeed_absolute {path : String} (broken : '\n' ∈ path.toList) :
    '\n' ∈ (absolute "/" path).toList := by
  rw [← joinPieces_piecesOf path.toList] at broken
  obtain ⟨piece, listed, inside⟩ := (mem_joinPieces broken).resolve_left (by decide)
  have named : piece ∈ namesOf path := by
    refine List.mem_append_left _ (List.mem_filter.mpr ⟨listed, ?_⟩)
    rw [Bool.not_eq_true', isVoid, Bool.or_eq_false_iff]
    constructor <;> rw [beq_eq_false_iff_ne] <;> rintro rfl <;> revert inside <;> decide
  rw [absolute_root, toList_slash]
  exact List.mem_cons_of_mem _ (subset_joinPieces named inside)

/-- Made absolute, no path holds what marks a URL. -/
theorem not_infix_absolute (path : String) :
    ¬"://".toList <:+: (absolute "/" path).toList := by
  have slashes : ['/', '/'] <:+: "://".toList := by decide
  rw [absolute_root, toList_slash]
  exact fun inside => not_infix_namesOf path (slashes.trans inside)

/-- For a path in which a line feed stands, one call leads to the next without an end. -/
theorem Parses.isUrl {url : String} {withKey : Bool} {n : Nat}
    {result : Except StorageError Location} (parses : Parses "/" withKey n url result)
    (broken : '\n' ∈ url.toList) : "://".toList <:+: url.toList := by
  have goesOn {url : String} (broken : '\n' ∈ url.toList) (isPath : ¬"://".toList <:+: url.toList) :
      call "/" url withKey = .again (absolute "/" url) := by
    have filled : url ≠ "" := by
      rintro rfl
      cases broken
    rw [call_lineFeed broken]
    exact if_neg (mt (isRefused_iff url).mp (not_not_intro ⟨filled, isPath⟩))
  by_contra isPath
  induction parses with
  | done answer =>
      rw [goesOn broken isPath] at answer
      cases answer
  | again answer _ ih =>
      rw [goesOn broken isPath] at answer
      cases answer
      exact ih (lineFeed_absolute broken) (not_infix_absolute _)

/-- The calls come to a result, and to what the URL addresses, unless the URL is a path in which a
line feed stands. -/
theorem parses_iff {url : String} {withKey : Bool} {result : Except StorageError Location} :
    (∃ n, Parses "/" withKey n url result) ↔
      result = parse "/" url withKey ∧ ('\n' ∈ url.toList → "://".toList <:+: url.toList) := by
  by_cases broken : '\n' ∈ url.toList
  · have refused : parse "/" url withKey = .error (.invalidUrl url) := by
      rw [parse, show url.toList.contains '\n' = true by simpa using broken, cond_true]
    have answered (isUrl : "://".toList <:+: url.toList) :
        Parses "/" withKey 0 url (.error (.invalidUrl url)) := by
      refine .done ?_
      rw [call_lineFeed broken]
      exact if_pos ((isRefused_iff url).mpr fun isPath => isPath.2 isUrl)
    rw [refused]
    constructor
    · rintro ⟨m, parses⟩
      have isUrl := parses.isUrl broken
      exact ⟨((answered isUrl).unique parses).2, fun _ => isUrl⟩
    · rintro ⟨rfl, isUrl⟩
      exact ⟨0, answered (isUrl broken)⟩
  · obtain ⟨n, -, parses⟩ := parses_parse broken withKey
    constructor
    · rintro ⟨m, other⟩
      exact ⟨(parses.unique other).2, fun inside => absurd inside broken⟩
    · rintro ⟨rfl, -⟩
      exact ⟨n, parses⟩

/-! ## Classification -/

/-- The path that a URL of the disk writes, which may be relative. -/
def written (url : String) : String :=
  (behind? "file://" url <|> behind? "file:" url).getD url

theorem parse_of_captured {url path : String} (free : '\n' ∉ url.toList)
    (memory : behind? "memory://" url = none)
    (found : (behind? "file://" url <|> behind? "file:" url <|> behind? "/" url) = some path)
    (workingDirectory : String) (withKey : Bool) :
    parse workingDirectory url withKey = .ok (ofPath path withKey) := by
  unfold parse
  rw [contains_lineFeed free, memory, found]
  rfl

/-- The path of the file that a URL of the disk names; behind the start of a file URL it is
absolute. -/
def filePath (url : String) : String :=
  ((behind? "file://" url <|> behind? "file:" url).map rooted).getD url

/-- A URL that is not of the memory store and that some pattern or a relative path fits addresses
the disk, at an absolute path with the steps of the one it names. -/
theorem parse_disk_from {store : Store} {url : String}
    (isDirectory : IsWorkingDirectory store.workingDirectory) (free : '\n' ∉ url.toList)
    (notMemory : ¬"memory://".toList <+: url.toList)
    (onDisk : "file:".toList <+: url.toList ∨ "/".toList <+: url.toList ∨
      url ≠ "" ∧ ¬"://".toList <:+: url.toList) :
    ∃ path, path.toList.head? = some '/' ∧
      Store.steps path = store.stepsFrom (filePath url) ∧
      ∀ withKey, parse store.workingDirectory url withKey =
        .ok (if withKey then .disk (split path).1 (split path).2 else .disk path none) := by
  have memory := behind?_eq_none_iff.mpr notMemory
  -- What a pattern captures is named, with a slash in front.
  have direct {rest : String}
      (found : (behind? "file://" url <|> behind? "file:" url <|> behind? "/" url) = some rest)
      (same : store.stepsFrom (filePath url) = Store.steps rest) :
      ∃ path, path.toList.head? = some '/' ∧
        Store.steps path = store.stepsFrom (filePath url) ∧
        ∀ withKey, parse store.workingDirectory url withKey =
          .ok (if withKey then .disk (split path).1 (split path).2 else .disk path none) := by
    refine ⟨rooted rest, head?_rooted rest, ?_, fun withKey => ?_⟩
    · rw [same, steps_rooted]
    · rw [parse_of_captured free memory found, ofPath_eq]
  have absoluteSteps {rest : String} (same : filePath url = rooted rest) :
      store.stepsFrom (filePath url) = Store.steps rest := by
    rw [same, Store.stepsFrom, if_pos (head?_rooted rest), steps_rooted]
  cases uri : behind? "file://" url with
  | some rest =>
      refine direct (by rw [uri]; rfl) (absoluteSteps ?_)
      rw [filePath, uri]
      rfl
  | none =>
      cases scheme : behind? "file:" url with
      | some rest =>
          refine direct (by rw [uri, scheme]; rfl) (absoluteSteps ?_)
          rw [filePath, uri, scheme]
          rfl
      | none =>
          have same : filePath url = url := by
            rw [filePath, uri, scheme]
            rfl
          cases slash : behind? "/" url with
          | some rest =>
              refine direct (by rw [uri, scheme, slash]; rfl) ?_
              obtain rfl := behind?_eq_some_iff.mp slash
              rw [same, Store.stepsFrom, if_pos (head?_slash rest), Store.steps_behind_root]
          | none =>
              have relative : url ≠ "" ∧ ¬"://".toList <:+: url.toList :=
                (onDisk.resolve_left (behind?_eq_none_iff.mp scheme)).resolve_left
                  (behind?_eq_none_iff.mp slash)
              have notRooted : ¬url.toList.head? = some '/' := by
                intro head
                obtain ⟨rest, chars⟩ := List.head?_eq_some_iff.mp head
                exact behind?_eq_none_iff.mp slash ⟨rest, chars.symm⟩
              have isAbsolute := head?_absolute isDirectory url
              refine ⟨absolute store.workingDirectory url, isAbsolute, ?_, fun withKey => ?_⟩
              · rw [steps_absolute isDirectory, same, Store.stepsFrom, if_neg notRooted]
              · have rootedSame : rooted (absolute store.workingDirectory url) =
                    absolute store.workingDirectory url := if_pos isAbsolute
                have still := absolute_free isDirectory free
                unfold parse
                rw [contains_lineFeed free, memory, uri, scheme, slash]
                simp only [Option.orElse_eq_orElse, Option.orElse_none]
                rw [if_neg (mt (isRefused_iff url).mp (not_not_intro relative)),
                  contains_lineFeed still, ofPath_eq, rootedSame]
                rfl

theorem parse_disk {url : String} (free : '\n' ∉ url.toList)
    (notMemory : ¬"memory://".toList <+: url.toList)
    (onDisk : "file:".toList <+: url.toList ∨ "/".toList <+: url.toList ∨
      url ≠ "" ∧ ¬"://".toList <:+: url.toList) :
    ∃ path, path.toList.head? = some '/' ∧ Store.steps path = Store.steps (written url) ∧
      ∀ withKey, parse "/" url withKey =
        .ok (if withKey then .disk (split path).1 (split path).2 else .disk path none) := by
  have isDirectory : IsWorkingDirectory ({} : Store).workingDirectory := isWorkingDirectory_root
  obtain ⟨path, isAbsolute, steps, parsed⟩ := parse_disk_from isDirectory free notMemory onDisk
  refine ⟨path, isAbsolute, steps.trans ?_, parsed⟩
  have root (path : String) : Store.stepsFrom {} path = Store.steps path := by
    unfold Store.stepsFrom
    split <;> rfl
  rw [root, filePath, written]
  cases behind? "file://" url <|> behind? "file:" url with
  | none => rfl
  | some rest => exact steps_rooted rest

/-- An absolute path with one slash in front may be written with either start of a file URL. -/
theorem parse_spellings {rest : String} (free : '\n' ∉ ("/" ++ rest).toList)
    (single : rest.toList.head? ≠ some '/') (workingDirectory : String) (withKey : Bool) :
    parse workingDirectory ("file:" ++ ("/" ++ rest)) withKey =
        parse workingDirectory ("/" ++ rest) withKey ∧
      parse workingDirectory ("file://" ++ ("/" ++ rest)) withKey =
        parse workingDirectory ("/" ++ rest) withKey := by
  have memory {start : String} (first : start.toList.head? = some 'f') (text : String) :
      behind? "memory://" (start ++ text) = none := by
    refine behind?_of_head (c := 'm') (e := 'f') (by decide) ?_ (by decide)
    rw [String.toList_append, List.head?_append, first]
    rfl
  have uri : behind? "file://" ("file://" ++ ("/" ++ rest)) = some ("/" ++ rest) :=
    behind?_eq_some_iff.mpr rfl
  have scheme : behind? "file:" ("file:" ++ ("/" ++ rest)) = some ("/" ++ rest) :=
    behind?_eq_some_iff.mpr rfl
  have noUri : behind? "file://" ("file:" ++ ("/" ++ rest)) = none := by
    have two : "file://".toList = "file:".toList ++ ['/', '/'] := by decide
    rw [behind?_eq_none_iff, String.toList_append, two, List.prefix_append_right_inj,
      String.toList_append]
    rintro ⟨tail, same⟩
    have cut : '/' :: tail = rest.toList := (List.cons.inj same).2
    rw [← cut] at single
    exact single rfl
  have still {start : String} (startFree : '\n' ∉ start.toList) :
      '\n' ∉ (start ++ ("/" ++ rest)).toList := by
    rw [String.toList_append]
    exact fun inside => (List.mem_append.mp inside).elim startFree free
  rw [parse_slash free, ← ofPath_slash single]
  constructor
  · exact parse_of_captured (still (by decide)) (memory (by decide) _)
      (by rw [noUri, scheme]; rfl) _ _
  · exact parse_of_captured (still (by decide)) (memory (by decide) _) (by rw [uri]; rfl) _ _

/-- A URL that nothing fits is refused. -/
theorem parse_refused {url : String} (notMemory : ¬"memory://".toList <+: url.toList)
    (notFile : ¬"file:".toList <+: url.toList) (notAbsolute : ¬"/".toList <+: url.toList)
    (notRelative : ¬(url ≠ "" ∧ ¬"://".toList <:+: url.toList)) (workingDirectory : String)
    (withKey : Bool) : parse workingDirectory url withKey = .error (.invalidUrl url) := by
  have notUri : ¬"file://".toList <+: url.toList := by
    have shorter : "file:".toList <+: "file://".toList := by decide
    exact fun front => notFile (shorter.trans front)
  unfold parse
  rw [behind?_eq_none_iff.mpr notMemory, behind?_eq_none_iff.mpr notUri,
    behind?_eq_none_iff.mpr notFile, behind?_eq_none_iff.mpr notAbsolute]
  -- A line feed in the URL leads to the same refusal.
  cases url.toList.contains '\n' with
  | true => rfl
  | false => exact if_pos ((isRefused_iff url).mpr notRelative)

/-- A last step that is a key as it stands makes the path again behind the parent. -/
theorem IsParent.join {path parent name : String} (isParent : IsParent path parent)
    (last : (Store.steps path).getLast? = some name) :
    Store.steps (parent ++ "/" ++ Key.text ⟨[name]⟩) = Store.steps path := by
  have alone : Key.text ⟨[name]⟩ = name := rfl
  rw [alone, Store.steps_append, isParent.steps, Store.steps_of_mem (List.mem_of_getLast? last)]
  exact List.dropLast_append_getLast? name last

/-- Every URL without line feeds is classified, with at most one further call.  It addresses the
memory store if it begins so, else the disk if it begins as a file URL or an absolute path does or
is some text without `://`, and else it is refused and named.  On disk the path is absolute and has
the steps of the one that the URL writes.  With a key, it is parted into its lexical parent and the
key of its last step, which is none if there is no last step or if it leads back; and if the last
step is a key as it stands, parent and key make the same path again.  An absolute path with one
slash in front may be written with either start of a file URL. -/
theorem parse_classifies {url : String} (free : '\n' ∉ url.toList) :
    let starts (start : String) : Prop := start.toList <+: url.toList
    let onDisk := starts "file:" ∨ starts "/" ∨ url ≠ "" ∧ ¬"://".toList <:+: url.toList
    (∀ withKey, ∃ n ≤ 1, ∀ m result,
      Parses "/" withKey m url result ↔ m = n ∧ result = parse "/" url withKey) ∧
    (starts "memory://" → ∀ withKey, ∃ key, parse "/" url withKey = .ok (.memory key)) ∧
    (¬starts "memory://" → ¬onDisk →
      ∀ withKey, parse "/" url withKey = .error (.invalidUrl url)) ∧
    (¬starts "memory://" → onDisk → ∃ path root key,
      parse "/" url false = .ok (.disk path none) ∧ parse "/" url true = .ok (.disk root key) ∧
      path.toList.head? = some '/' ∧ Store.steps path = Store.steps (written url) ∧
      IsParent path root ∧
      key = lastKey? (Store.steps (written url)) ∧
      ∀ name, (Store.steps (written url)).getLast? = some name → Key.encodePart name = name →
        key = some ⟨[name]⟩ ∧
          Store.steps (root ++ "/" ++ Key.text ⟨[name]⟩) = Store.steps (written url)) ∧
    ∀ rest, url = "/" ++ rest → rest.toList.head? ≠ some '/' → ∀ withKey,
      parse "/" ("file:" ++ url) withKey = parse "/" url withKey ∧
        parse "/" ("file://" ++ url) withKey = parse "/" url withKey := by
  intro starts onDisk
  refine ⟨fun withKey => ?_, fun memory withKey => ?_, fun notMemory notDisk withKey => ?_,
    fun notMemory isDisk => ?_, ?_⟩
  · obtain ⟨n, few, parses⟩ := parses_parse free withKey
    refine ⟨n, few, fun m result => ⟨parses.unique, ?_⟩⟩
    rintro ⟨rfl, rfl⟩
    exact parses
  · cases found : behind? "memory://" url with
    | none => exact absurd memory (behind?_eq_none_iff.mp found)
    | some key =>
        unfold parse
        rw [contains_lineFeed free, found]
        exact ⟨_, rfl⟩
  · obtain ⟨notFile, notDirect⟩ := not_or.mp notDisk
    obtain ⟨notAbsolute, notRelative⟩ := not_or.mp notDirect
    exact parse_refused notMemory notFile notAbsolute notRelative "/" withKey
  · obtain ⟨path, isAbsolute, steps, parsed⟩ := parse_disk free notMemory isDisk
    obtain ⟨parent, keyed⟩ := split_eq isAbsolute
    have plain := parsed false
    have parted := parsed true
    rw [if_neg Bool.false_ne_true] at plain
    rw [if_pos rfl] at parted
    rw [steps] at keyed
    refine ⟨path, (split path).1, (split path).2, plain, parted, isAbsolute, steps, parent, keyed,
      fun name last same => ⟨?_, ?_⟩⟩
    · have goesOn : name ≠ ".." := by
        rintro rfl
        revert same
        decide
      simp only [keyed, lastKey?, last, if_neg goesOn, same]
    · rw [← steps] at last ⊢
      exact parent.join last
  · rintro rest rfl single withKey
    exact parse_spellings free single "/" withKey

/-- A relative path to an object, with a step that names nothing. -/
theorem parse_classifies_relative :
    let url := "data/./in.csv"
    '\n' ∉ url.toList ∧ ¬"memory://".toList <+: url.toList ∧ url ≠ "" ∧
      ¬"://".toList <:+: url.toList ∧
      (∃ n ≤ 1, Parses "/" true n url (parse "/" url true)) ∧
      ∃ path root, parse "/" url true = .ok (.disk root (some ⟨["in.csv"]⟩)) ∧
        IsParent path root ∧ Store.steps path = ["data", "in.csv"] ∧
        Store.steps (root ++ "/" ++ Key.text ⟨["in.csv"]⟩) = ["data", "in.csv"] := by
  intro url
  have free : '\n' ∉ url.toList := by decide
  have notMemory : ¬"memory://".toList <+: url.toList := by decide
  have relative : url ≠ "" ∧ ¬"://".toList <:+: url.toList := by decide
  have steps : Store.steps (written url) = ["data", "in.csv"] := by decide
  obtain ⟨calls, -, -, onDisk, -⟩ := parse_classifies free
  obtain ⟨path, root, key, -, parsed, -, same, parent, -, joins⟩ :=
    onDisk notMemory (.inr (.inr relative))
  rw [steps] at same joins
  obtain ⟨rfl, joined⟩ := joins "in.csv" rfl (by decide)
  obtain ⟨n, few, parses⟩ := calls true
  exact ⟨free, notMemory, relative.1, relative.2, ⟨n, few, (parses n _).mpr ⟨rfl, rfl⟩⟩, path, root,
    parsed, parent, same, joined⟩

/-- A URL of another store is refused. -/
example : parse "/" "s3://bucket/key.csv" true = .error (.invalidUrl "s3://bucket/key.csv") := by
  decide

end Location

end CsvImport

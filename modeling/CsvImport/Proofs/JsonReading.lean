import CsvImport.Json.Parser
import CsvImport.Proofs.Decimals
import CsvImport.Proofs.Documents
import CsvImport.Proofs.Lines
import CsvImport.Proofs.TextBytes

/-!
# Reading JSON that was printed

Texts and decimal numbers are read back from their printed form, and so are objects of
them, whatever characters the texts and the names hold.
-/

namespace CsvImport

namespace Json

/-! ## Strings -/

theorem value?_lower : ∀ n < 16, Hex.value? (Hex.lower n) = some n := by
  decide

/-- The digits behind a control character's escape write its number. -/
theorem number?_control {n : Nat} (small : n < 32) :
    Hex.number? ['0', '0', Hex.lower (n / 16), Hex.lower (n % 16)] = some n := by
  have zero : Hex.value? '0' = some 0 := by decide
  have high := value?_lower (n / 16) (by omega)
  have low := value?_lower (n % 16) (by omega)
  unfold Hex.number?
  simp only [List.mapM_cons, List.mapM_nil, zero, high, low, Option.pure_def, Option.bind_eq_bind,
    Option.bind_some, List.foldl_cons, List.foldl_nil, Option.some.injEq]
  omega

/-- One character of a string is read back from its escape. -/
theorem stringPieces?_escape (c : Char) (rest : List Char) :
    stringPieces? (escape c ++ rest) =
      (stringPieces? rest).bind fun (pieces, behind) => some (.char c :: pieces, behind) := by
  unfold escape
  split
  · subst c; rfl
  split
  · subst c; rfl
  split
  · subst c; rfl
  split
  · subst c; rfl
  split
  · subst c; rfl
  split
  · rename_i same
    obtain rfl : c = Char.ofNat 8 := by rw [← same, Char.ofNat_toNat]
    rfl
  split
  · rename_i same
    obtain rfl : c = Char.ofNat 12 := by rw [← same, Char.ofNat_toNat]
    rfl
  split
  · rename_i control
    change (Hex.number? _).bind _ = _
    have whole : ¬(55296 ≤ c.toNat ∧ c.toNat < 57344) := by omega
    rw [number?_control control, Option.bind_some]
    simp only [whole, ↓reduceIte, Char.ofNat_toNat]
    rfl
  · rename_i quote backslash _ _ _ _ _ printed
    rw [List.singleton_append, stringPieces?]
    · rw [if_neg]
      · rfl
      · rintro (control | same)
        · exact printed control
        · exact backslash same
    · exact fun same => quote same
    · exact fun _ _ _ _ _ same _ => backslash same
    · exact fun _ _ same _ => backslash same

theorem stringPieces?_escaped (chars behind : List Char) :
    stringPieces? (chars.flatMap escape ++ '"' :: behind) = some (chars.map .char, behind) := by
  induction chars with
  | nil => rfl
  | cons c more ih =>
      rw [List.flatMap_cons, List.append_assoc, stringPieces?_escape, ih]
      rfl

theorem joinPieces?_chars (chars : List Char) : joinPieces? (chars.map .char) = some chars := by
  induction chars with
  | nil => rfl
  | cons c more ih =>
      rw [List.map_cons, joinPieces?, ih]
      rfl

/-- A text is read back from what follows its opening quote. -/
theorem string?_escaped (text : String) (behind : List Char) :
    string? (text.toList.flatMap escape ++ '"' :: behind) = some (.string text, behind) := by
  unfold string?
  rw [stringPieces?_escaped]
  simp only [Option.bind_eq_bind, Option.bind_some, joinPieces?_chars, String.ofList_toList]
  rfl

theorem quote_append (text : String) (behind : List Char) :
    quote text ++ behind = '"' :: (text.toList.flatMap escape ++ '"' :: behind) := by
  unfold quote
  simp

/-! ## Numbers -/

/-- A decimal number does not begin with a zero unless it is zero. -/
theorem toDigits_head {n : Nat} (positive : 0 < n) :
    ∃ c more, Nat.toDigits 10 n = c :: more ∧ c ≠ '0' := by
  induction n using Nat.strongRecOn with
  | ind n ih =>
      by_cases small : n < 10
      · refine ⟨n.digitChar, [], Nat.toDigits_of_lt_base small, ?_⟩
        have nonzero : ∀ d < 10, 0 < d → d.digitChar ≠ '0' := by decide
        exact nonzero n small positive
      · obtain ⟨c, more, digits, nonzero⟩ := ih (n / 10) (by omega) (by omega)
        refine ⟨c, more ++ [(n % 10).digitChar], ?_, nonzero⟩
        rw [Nat.toDigits_of_base_le (by omega) (by omega), digits]
        rfl

/-- What can stand behind a value in an object. -/
def Closes (behind : List Char) : Prop :=
  ∃ c more, behind = c :: more ∧ (c = ',' ∨ c = '\x7d')

theorem whole?_toDigits (n : Nat) {behind : List Char} (closes : Closes behind) :
    whole? (Nat.toDigits 10 n ++ behind) = some (Nat.toDigits 10 n, behind) := by
  have isDigit : ∀ c ∈ Nat.toDigits 10 n, c.isDigit = true :=
    fun c member => Nat.isDigit_of_mem_toDigits (by omega) (by omega) member
  have stops : behind.takeWhile Char.isDigit = [] ∧ behind.dropWhile Char.isDigit = behind := by
    obtain ⟨c, more, rfl, rfl | rfl⟩ := closes
    · exact ⟨rfl, rfl⟩
    · exact ⟨rfl, rfl⟩
  have digits : digits? (Nat.toDigits 10 n ++ behind) = some (Nat.toDigits 10 n, behind) := by
    unfold digits?
    rw [List.takeWhile_append_of_pos isDigit, List.dropWhile_append_of_pos isDigit, stops.1,
      stops.2, List.append_nil]
    simp [Nat.toDigits_ne_nil]
  unfold whole?
  rw [digits]
  rcases Nat.eq_zero_or_pos n with rfl | positive
  · rfl
  · obtain ⟨c, more, same, nonzero⟩ := toDigits_head positive
    rw [same]
    simp only [Option.bind_eq_bind, Option.bind_some]
    split
    · rename_i zero
      cases zero
      exact absurd rfl nonzero
    · rfl

/-- The digits of a number, the first of them apart. -/
theorem toString_cons (n : Nat) :
    ∃ c more, (toString n).toList = c :: more ∧ c.isDigit = true ∧
      c :: more = Nat.toDigits 10 n := by
  have text := Decimal.toList_toString n
  obtain ⟨c, more, digits⟩ := List.exists_cons_of_ne_nil (Nat.toDigits_ne_nil (n := n) (b := 10))
  refine ⟨c, more, text.trans digits, ?_, digits.symm⟩
  exact Nat.isDigit_of_mem_toDigits (n := n) (b := 10) (by omega) (by omega)
    (by rw [digits]; exact List.mem_cons_self ..)

theorem isSpace_digit {c : Char} (isDigit : c.isDigit = true) : isSpace c = false :=
  Decimal.of_isDigit (P := (isSpace · = false)) (by decide) isDigit

theorem number?_toString (n : Nat) {behind : List Char} (closes : Closes behind) :
    number? ((toString n).toList ++ behind) = some (.number (toString n), behind) := by
  obtain ⟨c, more, text, isDigit, digits⟩ := toString_cons n
  have whole := whole?_toDigits n closes
  have rest : fraction? behind = some ([], behind) ∧ exponent? behind = some ([], behind) := by
    obtain ⟨c, more, rfl, rfl | rfl⟩ := closes
    · exact ⟨rfl, rfl⟩
    · exact ⟨rfl, rfl⟩
  have unsigned : c ≠ '-' := by
    rintro rfl
    exact absurd isDigit (by decide)
  rw [← digits] at whole
  unfold number?
  rw [text]
  simp only [List.cons_append] at whole ⊢
  split
  · rename_i sign
    cases sign
    exact absurd rfl unsigned
  · simp only [whole, rest.1, rest.2, Option.bind_eq_bind, Option.bind_some, List.append_nil,
      List.nil_append, ← text, String.ofList_toList]
    rfl

/-! ## Objects -/

/-- Texts and decimal numbers. -/
inductive Flat : Value → Prop where
  | string (text : String) : Flat (.string text)
  | number (n : Nat) : Flat (.number (toString n))

theorem value?_flat {value : Value} (flat : Flat value) (fuel : Nat) {behind : List Char}
    (closes : Closes behind) :
    value? (fuel + 1) (renderChars value ++ behind) = some (value, behind) := by
  cases flat with
  | string text =>
      rw [renderChars, quote_append]
      exact string?_escaped text behind
  | number n =>
      obtain ⟨c, more, text, isDigit, _⟩ := toString_cons n
      have number := number?_toString n closes
      have printed : isSpace c = false := isSpace_digit isDigit
      rw [renderChars]
      rw [text] at number ⊢
      unfold value?
      simp only [List.cons_append, skipSpace, List.dropWhile_cons, printed, Bool.false_eq_true,
        ↓reduceIte] at number ⊢
      split
      case h_7 => exact number
      all_goals
        rename_i same
        cases same
        exact absurd isDigit (by decide)

theorem skipSpace_cons {c : Char} (printed : isSpace c = false) (rest : List Char) :
    skipSpace (c :: rest) = c :: rest := by
  rw [skipSpace, List.dropWhile_cons, printed]
  rfl

/-- The last member is read back, with the brace behind it. -/
theorem members?_last (name : String) {value : Value} (flat : Flat value) (fuel : Nat)
    (behind : List Char) :
    members? (fuel + 2) (quote name ++ ':' :: (renderChars value ++ '\x7d' :: behind)) =
      some ([(some name, value)], behind) := by
  have read := value?_flat flat fuel ⟨_, behind, rfl, .inr rfl⟩
  rw [quote_append]
  unfold members?
  rw [skipSpace_cons rfl]
  simp only [string?_escaped, Value.toText?, Option.bind_eq_bind, Option.bind_some]
  rw [skipSpace_cons rfl]
  simp only [read, Option.bind_some]
  rw [skipSpace_cons rfl]
  rfl

/-- A member before others is read back, with the comma behind it. -/
theorem members?_cons (name : String) {value : Value} (flat : Flat value) (fuel : Nat)
    (rest : List Char) :
    members? (fuel + 2) (quote name ++ ':' :: (renderChars value ++ ',' :: rest)) =
      (members? (fuel + 1) rest).bind fun (more, behind) =>
        some ((some name, value) :: more, behind) := by
  have read := value?_flat flat fuel ⟨_, rest, rfl, .inl rfl⟩
  rw [quote_append, members?]
  rw [skipSpace_cons rfl]
  simp only [string?_escaped, Value.toText?, Option.bind_eq_bind, Option.bind_some]
  rw [skipSpace_cons rfl]
  simp only [read, Option.bind_some]
  rw [skipSpace_cons rfl]
  rfl

theorem members?_render {members : List (String × Value)}
    (flat : ∀ member ∈ members, Flat member.2) (nonempty : members ≠ []) {fuel : Nat}
    (enough : members.length < fuel) (behind : List Char) :
    members? fuel (renderMembers members ++ '\x7d' :: behind) =
      some (members.map fun member => (some member.1, member.2), behind) := by
  induction members generalizing fuel with
  | nil => exact absurd rfl nonempty
  | cons member more ih =>
      obtain ⟨name, value⟩ := member
      have first : Flat value := flat _ (List.mem_cons_self ..)
      rw [List.length_cons] at enough
      obtain ⟨left, rfl⟩ : ∃ left, fuel = left + 2 := ⟨fuel - 2, by omega⟩
      cases more with
      | nil =>
          have last := members?_last name first left behind
          rw [renderMembers, List.append_assoc]
          exact last
      | cons next more =>
          have rest : members? (left + 1) (renderMembers (next :: more) ++ '\x7d' :: behind) = _ :=
            ih (fun other member => flat other (List.mem_cons_of_mem _ member))
              (List.cons_ne_nil _ _) (by omega)
          have one := members?_cons name first left
            (renderMembers (next :: more) ++ '\x7d' :: behind)
          rw [rest] at one
          rw [renderMembers, List.append_assoc, List.cons_append, List.append_assoc,
            List.cons_append]
          · exact one
          · exact List.cons_ne_nil _ _

theorem objectOf_map (members : List (String × Value)) :
    objectOf (members.map fun member => (some member.1, member.2)) = .object members := by
  have named : (members.map fun member => (some member.1, member.2)).mapM
      (fun member => member.1.map (·, member.2)) = some members := by
    induction members with
    | nil => rfl
    | cons member more ih =>
        rw [List.map_cons, List.mapM_cons, ih]
        rfl
  unfold objectOf
  split
  · rename_i found
    cases named.symm.trans found
    rfl
  · rename_i none
    cases named.symm.trans none

theorem renderMembers_cons (name : String) (value : Value) (more : List (String × Value)) :
    ∃ rest, renderMembers ((name, value) :: more) = '"' :: rest ∧
      (renderMembers more).length < (renderMembers ((name, value) :: more)).length := by
  cases more with
  | nil => exact ⟨_, rfl, Nat.zero_lt_succ _⟩
  | cons next more =>
      rw [renderMembers]
      · refine ⟨_, rfl, ?_⟩
        simp only [List.length_append, List.length_cons]
        omega
      · exact List.cons_ne_nil _ _

theorem length_le_renderMembers (members : List (String × Value)) :
    members.length ≤ (renderMembers members).length := by
  induction members with
  | nil => exact Nat.zero_le _
  | cons member more ih =>
      obtain ⟨rest, _, longer⟩ := renderMembers_cons member.1 member.2 more
      exact Nat.succ_le_of_lt (Nat.lt_of_le_of_lt ih longer)

/-- An object of texts and decimal numbers is read back from its printed form. -/
theorem value?_object {members : List (String × Value)} (flat : ∀ member ∈ members, Flat member.2)
    {fuel : Nat} (enough : members.length < fuel) (behind : List Char) :
    value? (fuel + 1) (renderChars (.object members) ++ behind) =
      some (.object members, behind) := by
  rw [renderChars, List.cons_append, List.append_assoc, List.singleton_append]
  unfold value?
  rw [skipSpace_cons rfl]
  cases members with
  | nil => rfl
  | cons member more =>
      have read := members?_render flat (List.cons_ne_nil _ _) enough behind
      obtain ⟨rest, first, _⟩ := renderMembers_cons member.1 member.2 more
      simp only [first, List.cons_append] at read ⊢
      rw [skipSpace_cons rfl, read]
      simp only [Option.map_some, objectOf_map]
      rfl

/-- An object on a line of its own is read back. -/
theorem parse?_render {members : List (String × Value)} (flat : ∀ member ∈ members, Flat member.2)
    {blank : String} (isBlank : ∀ c ∈ blank.toList, isSpace c = true) :
    parse? (render (.object members) ++ blank) = some (.object members) := by
  have long := length_le_renderMembers members
  have chars : (render (.object members) ++ blank).toList =
      renderChars (.object members) ++ blank.toList := by
    rw [String.toList_append, render, String.toList_ofList]
  have enough : members.length <
      2 * (renderChars (.object members) ++ blank.toList).length + 1 := by
    rw [renderChars]
    simp only [List.length_append, List.length_cons]
    omega
  have none : skipSpace blank.toList = [] := by
    have spaces : List.dropWhile isSpace (blank.toList ++ []) = _ :=
      List.dropWhile_append_of_pos isBlank
    rwa [List.append_nil] at spaces
  unfold parse?
  rw [chars]
  simp only [value?_object flat enough, Option.bind_eq_bind, Option.bind_some, none]
  rfl

/-! ## Names and texts -/

/-- The members of an object that pairs names with the fields of a row. -/
def pairs (names row : List String) : List (String × Value) :=
  (names.zip row).map fun (name, value) => (name, .string value)

theorem flat_pairs (names row : List String) : ∀ member ∈ pairs names row, Flat member.2 := by
  intro member listed
  obtain ⟨pair, _, rfl⟩ := List.mem_map.mp listed
  exact .string pair.2

theorem map_fst_pairs {names row : List String} (fits : row.length = names.length) :
    (pairs names row).map Prod.fst = names := by
  rw [pairs, List.map_map]
  exact List.map_fst_zip (Nat.le_of_eq fits.symm)

theorem map_snd_pairs {names row : List String} (fits : row.length = names.length) :
    (pairs names row).map Prod.snd = row.map .string := by
  have texts := List.map_snd_zip (Nat.le_of_eq fits)
  conv => rhs; rw [← texts]
  rw [pairs, List.map_map, List.map_map]
  rfl

/-! ## Lines of objects -/

/-- The values on the lines of a byte string, if each line is one. -/
def parseLines? (bytes : Bytes) : Option (List Value) :=
  bytes.lines.mapM fun line => (Utf8.decode? line).bind parse?

theorem printed_of_mem_flat {value : Value} (flat : Flat value) {c : Char}
    (member : c ∈ renderChars value) : 32 ≤ c.toNat := by
  cases flat with
  | string text => exact printed_of_mem_quote member
  | number n =>
      have digit := Decimal.isDigit_toString n c member
      rw [Char.isDigit, Bool.and_eq_true, decide_eq_true_eq] at digit
      exact Nat.le_trans (by decide) (UInt32.le_iff_toNat_le.mp digit.1)

theorem lines_object {members : List (String × Value)} (flat : ∀ member ∈ members, Flat member.2)
    (later : Bytes) :
    Bytes.lines (Utf8.encode (render (.object members) ++ "\n") ++ later) =
      Utf8.encode (render (.object members) ++ "\n") :: Bytes.lines later := by
  have free : Bytes.lf ∉ Utf8.encode (render (.object members)) := by
    intro inside
    have printed := Utf8.printed_of_mem_encode (fun c => printed_of_mem_object
      fun member listed c => printed_of_mem_flat (flat member listed)) inside
    exact absurd printed (by decide)
  have ended : Utf8.encode "\n" = [Bytes.lf] := by decide
  rw [Utf8.encode_append, ended, List.append_assoc, List.singleton_append,
    Bytes.lines_body free]

/-- Objects of texts and decimal numbers are read back from their lines. -/
theorem parseLines?_objects (objects : List (List (String × Value)))
    (flat : ∀ members ∈ objects, ∀ member ∈ members, Flat member.2) :
    parseLines? (objects.flatMap fun members =>
      Utf8.encode (render (.object members) ++ "\n")) = some (objects.map .object) := by
  unfold parseLines?
  induction objects with
  | nil => rfl
  | cons members more ih =>
      have first := flat members (List.mem_cons_self ..)
      have read : parse? (render (.object members) ++ "\n") = some (.object members) :=
        parse?_render first (List.all_eq_true.mp (by decide))
      rw [List.flatMap_cons, lines_object first, List.mapM_cons, Utf8.decode?_encode,
        ih fun other member => flat other (List.mem_cons_of_mem _ member)]
      simp only [Option.bind_some, read, Option.bind_eq_bind]
      rfl

end Json

end CsvImport

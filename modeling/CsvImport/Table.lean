/-!
# Tables

A table holds at most one value under every key; what was put last stands first.
-/

namespace CsvImport

/-- Values under keys, each key once. -/
abbrev Table (κ ν : Type) := List (κ × ν)

namespace Table

def remove {κ ν : Type} [BEq κ] (table : Table κ ν) (key : κ) : Table κ ν :=
  table.filter fun entry => entry.1 != key

def put {κ ν : Type} [BEq κ] (table : Table κ ν) (key : κ) (value : ν) : Table κ ν :=
  (key, value) :: table.remove key

/-- Under a removed key there is nothing, and every other key keeps its value. -/
theorem lookup_remove {κ ν : Type} [BEq κ] [LawfulBEq κ] (table : Table κ ν) (key other : κ) :
    (table.remove key).lookup other = if other == key then none else table.lookup other := by
  unfold remove
  induction table with
  | nil => simp
  | cons entry rest ih =>
      obtain ⟨name, value⟩ := entry
      by_cases same : name = key
      · subst same
        rw [List.filter_cons_of_neg (by simp), ih, List.lookup_cons]
        cases other == name <;> rfl
      · rw [List.filter_cons_of_pos (by simpa using same), List.lookup_cons, List.lookup_cons, ih]
        cases here : other == name with
        | false => rfl
        | true =>
            obtain rfl := eq_of_beq here
            simp [same]

/-- A value is found where it was put, and every other key keeps its value. -/
theorem lookup_put {κ ν : Type} [BEq κ] [LawfulBEq κ] (table : Table κ ν) (key other : κ)
    (value : ν) :
    (table.put key value).lookup other =
      if other == key then some value else table.lookup other := by
  unfold put
  rw [List.lookup_cons, lookup_remove]
  cases other == key <;> rfl

/-- Removing what stands there makes a table shorter. -/
theorem length_remove_lt {κ ν : Type} [BEq κ] [LawfulBEq κ] {table : Table κ ν} {key : κ}
    {value : ν} (found : table.lookup key = some value) :
    (table.remove key).length < table.length := by
  induction table with
  | nil => simp at found
  | cons entry rest ih =>
      obtain ⟨name, held⟩ := entry
      unfold remove
      by_cases same : name = key
      · subst same
        have := List.length_filter_le (fun entry : κ × ν => entry.1 != name) rest
        simp only [List.filter_cons, bne_self_eq_false, Bool.false_eq_true, ↓reduceIte,
          List.length_cons]
        omega
      · have other : (key == name) = false := by simp [Ne.symm same]
        rw [List.lookup_cons, other] at found
        have shorter := ih found
        unfold remove at shorter
        simp only [List.filter_cons, bne_iff_ne, ne_eq, same, not_false_eq_true, ↓reduceIte,
          List.length_cons]
        omega

end Table

end CsvImport

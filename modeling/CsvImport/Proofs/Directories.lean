import CsvImport.Disk

/-!
# Directories

Making directories on a disk changes no file.  What a path leads to depends on the files of a
disk, not on the directories that others have made on it.
-/

namespace CsvImport

namespace Disk

/-- One disk has become the other by having directories made on it. -/
structure Grows (before after : Disk) : Prop where
  kept : ∀ {path entry}, before.get? path = some entry → after.get? path = some entry
  made : ∀ {path bytes}, after.get? path = some (.file bytes) →
    before.get? path = some (.file bytes)

/-- One disk has become the other by having directories made on it, except that anything may
have happened at the hidden paths. -/
structure GrowsBeside (hidden : DiskPath → Prop) (before after : Disk) : Prop where
  kept : ∀ {path entry}, ¬hidden path → before.get? path = some entry →
    after.get? path = some entry
  made : ∀ {path bytes}, ¬hidden path → after.get? path = some (.file bytes) →
    before.get? path = some (.file bytes)

def passes (here : DiskPath) : List String → List DiskPath
  | [] => []
  | step :: rest =>
      if step = ".." then passes here.dropLast rest
      else (here ++ [step]) :: passes (here ++ [step]) rest

def Stands (disk : Disk) (path : DiskPath) : Prop :=
  ∀ here step, here ++ [step] <+: path →
    step ≠ ".." ∧ accepts step = true ∧ disk.get? (here ++ [step]) = some .directory

theorem Grows.refl (disk : Disk) : disk.Grows disk where
  kept := id
  made := id

section

variable {hidden : DiskPath → Prop} {disk before between after : Disk} {path : DiskPath}

theorem Grows.trans (former : before.Grows between) (latter : between.Grows after) :
    before.Grows after where
  kept := latter.kept ∘ former.kept
  made := former.made ∘ latter.made

theorem Grows.beside (grows : before.Grows after) (hidden : DiskPath → Prop) :
    before.GrowsBeside hidden after where
  kept _ := grows.kept
  made _ := grows.made

theorem GrowsBeside.trans (former : before.GrowsBeside hidden between)
    (latter : between.GrowsBeside hidden after) : before.GrowsBeside hidden after where
  kept seen := latter.kept seen ∘ former.kept seen
  made seen := former.made seen ∘ latter.made seen

theorem get?_set_of_ne (disk : Disk) {path other : DiskPath} (apart : other ≠ path)
    (entry : DiskEntry) : (disk.set path entry).get? other = disk.get? other := by
  rw [get?_set, if_neg (show ¬(other == path) = true by rwa [beq_iff_eq])]
  split
  · rename_i root
    rw [root]
    rfl
  · rfl

theorem get?_set_below (disk : Disk) (here : DiskPath) (step : String) (entry : DiskEntry) :
    (disk.set (here ++ [step]) entry).get? (here ++ [step]) = some entry := by
  rw [get?_set, if_neg (by simp), if_pos (beq_self_eq_true _)]

/-- A directory is made where nothing was. -/
theorem grows_set {disk : Disk} {here : DiskPath} {step : String}
    (vacant : disk.get? (here ++ [step]) = none) :
    disk.Grows (disk.set (here ++ [step]) .directory) where
  kept := by
    intro path entry found
    have apart : path ≠ here ++ [step] := by
      rintro rfl
      rw [vacant] at found
      cases found
    rwa [get?_set_of_ne disk apart]
  made := by
    intro path bytes found
    have apart : path ≠ here ++ [step] := by
      rintro rfl
      rw [get?_set_below] at found
      cases found
    rwa [get?_set_of_ne disk apart] at found

/-- What happens at a hidden path does not count. -/
theorem growsBeside_set (isHidden : hidden path) (entry : DiskEntry) :
    disk.GrowsBeside hidden (disk.set path entry) := by
  have apart : ∀ {other}, ¬hidden other → other ≠ path := by
    rintro other seen rfl
    exact seen isHidden
  constructor
  · intro other held seen found
    rwa [get?_set_of_ne disk (apart seen)]
  · intro other bytes seen found
    rwa [get?_set_of_ne disk (apart seen)] at found

theorem GrowsBeside.set (grows : before.GrowsBeside hidden after) (path : DiskPath)
    (entry : DiskEntry) : (before.set path entry).GrowsBeside hidden (after.set path entry) := by
  constructor
  · intro other held seen found
    by_cases same : other = path
    · rw [get?_set, same] at found ⊢
      simpa using found
    · rw [get?_set_of_ne _ same] at found ⊢
      exact grows.kept seen found
  · intro other bytes seen found
    by_cases same : other = path
    · rw [get?_set, same] at found ⊢
      simpa using found
    · rw [get?_set_of_ne _ same] at found ⊢
      exact grows.made seen found

/-- A directory that is made on the one disk and stands on the other already. -/
theorem GrowsBeside.set_left (grows : before.GrowsBeside hidden after) {here : DiskPath}
    {step : String} (there : after.get? (here ++ [step]) = some .directory) :
    (before.set (here ++ [step]) .directory).GrowsBeside hidden after := by
  constructor
  · intro path entry seen found
    by_cases same : path = here ++ [step]
    · subst same
      rw [get?_set_below] at found
      exact there.trans found
    · rw [get?_set_of_ne _ same] at found
      exact grows.kept seen found
  · intro path bytes seen found
    by_cases same : path = here ++ [step]
    · subst same
      rw [there] at found
      cases found
    · rw [get?_set_of_ne _ same]
      exact grows.made seen found

/-! ## Making directories -/

theorem grows_makeDirectories (disk : Disk) (here : DiskPath) (steps : List String) :
    disk.Grows (disk.makeDirectories here steps).2 := by
  fun_induction makeDirectories disk here steps with
  | case1 => exact Grows.refl _
  | case2 disk here rest ih => exact ih
  | case3 => exact Grows.refl _
  | case4 disk here step rest up accepted there vacant ih => exact (grows_set vacant).trans ih
  | case5 disk here step rest up accepted there found ih => exact ih
  | case6 => exact Grows.refl _

/-- The same directories are made on a disk that has grown, unless something hidden is passed. -/
theorem GrowsBeside.makeDirectories (grows : before.GrowsBeside hidden after) {here : DiskPath}
    {steps : List String} (apart : ∀ passed ∈ passes here steps, ¬hidden passed) :
    (before.makeDirectories here steps).1 = (after.makeDirectories here steps).1 ∧
      (before.makeDirectories here steps).2.GrowsBeside hidden
        (after.makeDirectories here steps).2 := by
  induction steps generalizing before after here with
  | nil => exact ⟨rfl, grows⟩
  | cons step rest ih =>
      unfold Disk.makeDirectories
      unfold passes at apart
      split
      · rename_i up
        rw [if_pos up] at apart
        exact ih grows apart
      · rename_i up
        rw [if_neg up] at apart
        have seen : ¬hidden (here ++ [step]) := apart _ (List.mem_cons_self ..)
        have behind := fun passed member => apart passed (List.mem_cons_of_mem _ member)
        split
        · exact ⟨rfl, grows⟩
        · simp only
          cases former : before.get? (here ++ [step]) with
          | some entry =>
              rw [grows.kept seen former]
              cases entry with
              | directory => exact ih grows behind
              | file bytes => exact ⟨rfl, grows⟩
          | none =>
              cases latter : after.get? (here ++ [step]) with
              | none => exact ih (grows.set _ _) behind
              | some entry =>
                  cases entry with
                  | directory => exact ih (grows.set_left latter) behind
                  | file bytes =>
                      rw [grows.made seen latter] at former
                      cases former

theorem passes_subset (here : DiskPath) (steps more : List String) :
    passes here steps ⊆ passes here (steps ++ more) := by
  induction steps generalizing here with
  | nil => exact List.nil_subset _
  | cons step rest ih =>
      rw [List.cons_append, passes, passes]
      split
      · exact ih _
      · exact List.cons_subset_cons _ (ih _)

/-- Behind the directories that were made, one more step passes the path below them. -/
theorem mem_passes_of_made {here root : DiskPath} {steps : List String} {name : String}
    (made : disk.makeDirectories here steps = (.ok root, after)) (named : name ≠ "..") :
    root ++ [name] ∈ passes here (steps ++ [name]) := by
  fun_induction Disk.makeDirectories disk here steps with
  | case1 disk here =>
      cases made
      rw [List.nil_append, passes, if_neg named]
      exact List.mem_cons_self ..
  | case2 disk here rest ih =>
      rw [List.cons_append, passes, if_pos rfl]
      exact ih made
  | case3 => cases made
  | case4 disk here step rest up accepted there vacant ih =>
      rw [List.cons_append, passes, if_neg up]
      exact List.mem_cons_of_mem _ (ih made)
  | case5 disk here step rest up accepted there found ih =>
      rw [List.cons_append, passes, if_neg up]
      exact List.mem_cons_of_mem _ (ih made)
  | case6 => cases made

/-! ## Paths that stand -/

theorem stands_nil (disk : Disk) : disk.Stands [] := by
  intro here step front
  exact absurd (List.prefix_nil.mp front) (List.append_ne_nil_of_right_ne_nil _ (by simp))

theorem Stands.of_prefix (stands : disk.Stands path) {front : DiskPath} (isFront : front <+: path) :
    disk.Stands front :=
  fun here step inside => stands here step (inside.trans isFront)

theorem Stands.append (stands : disk.Stands path) {step : String} (named : step ≠ "..")
    (accepted : accepts step = true) (found : disk.get? (path ++ [step]) = some .directory) :
    disk.Stands (path ++ [step]) := by
  intro here other front
  rcases List.prefix_concat_iff.mp front with same | inside
  · obtain ⟨rfl, last⟩ := List.append_inj' same rfl
    obtain rfl : other = step := (List.cons.inj last).1
    exact ⟨named, accepted, found⟩
  · exact stands here other inside

/-- A path stands as long as the directories do. -/
theorem Stands.kept (stands : before.Stands path)
    (kept : ∀ path, before.get? path = some .directory → after.get? path = some .directory) :
    after.Stands path := by
  intro here step front
  obtain ⟨named, accepted, found⟩ := stands here step front
  exact ⟨named, accepted, kept _ found⟩

theorem Stands.follow {here rest : DiskPath} (stands : disk.Stands (here ++ rest))
    (more : List String) :
    disk.follow here (rest ++ more) = disk.follow (here ++ rest) more := by
  induction rest generalizing here with
  | nil => rw [List.append_nil, List.nil_append]
  | cons step rest ih =>
      have whole : here ++ step :: rest = (here ++ [step]) ++ rest := by simp
      rw [whole] at stands ⊢
      obtain ⟨named, accepted, found⟩ := stands here step (List.prefix_append ..)
      rw [List.cons_append, Disk.follow, if_neg named, if_neg (by simp [accepted])]
      simp only [found]
      exact ih stands

/-- No directory has to be made for a path that stands. -/
theorem Stands.makeDirectories {here rest : DiskPath} (stands : disk.Stands (here ++ rest)) :
    disk.makeDirectories here rest = (.ok (here ++ rest), disk) := by
  induction rest generalizing here with
  | nil => rw [List.append_nil, Disk.makeDirectories]
  | cons step rest ih =>
      have whole : here ++ step :: rest = (here ++ [step]) ++ rest := by simp
      rw [whole] at stands ⊢
      obtain ⟨named, accepted, found⟩ := stands here step (List.prefix_append ..)
      rw [Disk.makeDirectories, if_neg named, if_neg (by simp [accepted])]
      simp only [found]
      exact ih stands

theorem stands_makeDirectories {here root : DiskPath} {steps : List String}
    (stands : disk.Stands here) (made : disk.makeDirectories here steps = (.ok root, after)) :
    after.Stands root := by
  fun_induction Disk.makeDirectories disk here steps with
  | case1 disk here =>
      cases made
      exact stands
  | case2 disk here rest ih => exact ih (stands.of_prefix (List.dropLast_prefix here)) made
  | case3 => cases made
  | case4 disk here step rest named accepted there vacant ih =>
      refine ih (Stands.append (stands.kept ?_) named (by simpa using accepted) ?_) made
      · exact fun path found => (grows_set vacant).kept found
      · exact get?_set_below disk here step .directory
  | case5 disk here step rest named accepted there found ih =>
      exact ih (stands.append named (by simpa using accepted) found) made
  | case6 => cases made

/-- What is read in a directory that stands is an entry of the disk. -/
theorem Stands.read_eq (stands : disk.Stands path) (name : String) :
    disk.read (path ++ [name]) =
      if name = ".." then .error .missing
      else if !accepts name then .error .blocked
      else
        match disk.get? (path ++ [name]) with
        | some (.file bytes) => .ok bytes
        | _ => .error .missing := by
  have follow : disk.follow [] (path ++ [name]) = disk.follow path [name] :=
    Stands.follow stands [name]
  unfold Disk.read
  rw [follow, Disk.follow]
  by_cases up : name = ".."
  · rw [if_pos up, if_pos up]
    rfl
  · rw [if_neg up, if_neg up]
    by_cases accepted : (!accepts name) = true
    · rw [if_pos accepted, if_pos accepted]
    · rw [if_neg accepted, if_neg accepted]
      simp only
      rcases disk.get? (path ++ [name]) with _ | _ | held <;> rfl

/-- A file in a directory that stands is an entry of the disk. -/
theorem Stands.read (stands : disk.Stands path) {name : String} (named : name ≠ "..")
    (bytes : Bytes) :
    disk.read (path ++ [name]) = .ok bytes ↔
      accepts name = true ∧ disk.get? (path ++ [name]) = some (.file bytes) := by
  rw [stands.read_eq, if_neg named]
  cases accepts name with
  | false => simp
  | true => rcases disk.get? (path ++ [name]) with _ | _ | held <;> simp

/-- What is read in a directory that stands on two disks is the same, if it is not hidden. -/
theorem GrowsBeside.read (grows : before.GrowsBeside hidden after) (stood : before.Stands path)
    (stands : after.Stands path) {name : String}
    (seen : name ≠ ".." → ¬hidden (path ++ [name])) :
    before.read (path ++ [name]) = after.read (path ++ [name]) := by
  rw [stood.read_eq, stands.read_eq]
  split
  · rfl
  · rename_i named
    cases former : before.get? (path ++ [name]) with
    | some entry => rw [grows.kept (seen named) former]
    | none =>
        rcases latter : after.get? (path ++ [name]) with _ | _ | bytes
        · rfl
        · rfl
        · rw [grows.made (seen named) latter] at former
          cases former

/-- A file is written where no directory is. -/
theorem writeIn_ok {directory : DiskPath} {name : String} {bytes : Bytes}
    (written : disk.writeIn directory name bytes = .ok after) :
    accepts name = true ∧ disk.get? (directory ++ [name]) ≠ some .directory ∧
      after = disk.set (directory ++ [name]) (.file bytes) := by
  unfold writeIn at written
  simp only at written
  split at written
  · cases written
  · rename_i accepted
    split at written
    · cases written
    · rename_i vacant
      cases written
      exact ⟨by simpa using accepted, vacant, rfl⟩

end

end Disk

end CsvImport

import CsvImport.Output
import CsvImport.Proofs.NamedFiles

/-!
# Destinations

Where a path leads on a disk can be told from the path alone.  The directories that are made on the
way, the file that is read there and the file that is made for an output are where the path leads.
-/

namespace CsvImport

namespace Disk

/-- Where the steps of a path lead from a directory, whether or not anything is there. -/
def resolve (here : DiskPath) : List String → DiskPath
  | [] => here
  | step :: rest =>
      if step = ".." then resolve here.dropLast rest else resolve (here ++ [step]) rest

/-- A name at the end of a path is an entry of the directory to which the steps before it lead. -/
theorem resolve_concat {name : String} (named : name ≠ "..") (here : DiskPath)
    (steps : List String) : resolve here (steps ++ [name]) = resolve here steps ++ [name] := by
  fun_induction resolve here steps with
  | case1 here => rw [List.nil_append, resolve, if_neg named, resolve]
  | case2 here rest ih => rw [List.cons_append, resolve, if_pos rfl, ih]
  | case3 here step rest up ih => rw [List.cons_append, resolve, if_neg up, ih]

section

variable {disk before after : Disk} {here root : DiskPath} {steps : List String}

theorem resolve_of_made (made : disk.makeDirectories here steps = (.ok root, after)) :
    root = resolve here steps := by
  fun_induction makeDirectories disk here steps with
  | case1 disk here =>
      cases made
      rfl
  | case2 disk here rest ih => exact (ih made).trans (by rw [resolve, if_pos rfl])
  | case3 => cases made
  | case4 disk here step rest up accepted there vacant ih =>
      exact (ih made).trans (by rw [resolve, if_neg up])
  | case5 disk here step rest up accepted there found ih =>
      exact (ih made).trans (by rw [resolve, if_neg up])
  | case6 => cases made

/-- On the way to a name the path before it is passed, and then the name. -/
theorem passes_concat {name : String} (named : name ≠ "..") (here : DiskPath)
    (steps : List String) :
    passes here (steps ++ [name]) = passes here steps ++ [resolve here steps ++ [name]] := by
  fun_induction resolve here steps with
  | case1 here =>
      rw [List.nil_append, passes, passes, if_neg named]
      rfl
  | case2 here rest ih => rw [List.cons_append, passes, if_pos rfl, ih, passes, if_pos rfl]
  | case3 here step rest up ih =>
      rw [List.cons_append, passes, if_neg up, ih, passes, if_neg up, List.cons_append]

/-- Where directories were made, nothing else is passed. -/
theorem directory_of_passes (made : disk.makeDirectories here steps = (.ok root, after)) :
    ∀ passed ∈ passes here steps, after.get? passed = some .directory := by
  fun_induction makeDirectories disk here steps with
  | case1 => exact List.forall_mem_nil _
  | case2 disk here rest ih =>
      rw [passes, if_pos rfl]
      exact ih made
  | case3 => cases made
  | case4 disk here step rest up accepted there vacant ih =>
      rw [passes, if_neg up]
      refine List.forall_mem_cons.mpr ⟨?_, ih made⟩
      have grows := (disk.set there .directory).grows_makeDirectories there rest
      rw [made] at grows
      exact grows.kept (get?_set_below disk here step .directory)
  | case5 disk here step rest up accepted there found ih =>
      rw [passes, if_neg up]
      refine List.forall_mem_cons.mpr ⟨?_, ih made⟩
      have grows := disk.grows_makeDirectories there rest
      rw [made] at grows
      exact grows.kept found
  | case6 => cases made

/-- A file that is read stands where the path leads, behind directories. -/
theorem destination_of_read {bytes : Bytes} (found : disk.read steps = .ok bytes) :
    ∃ front name, steps = front ++ [name] ∧ name ≠ ".." ∧ accepts name = true ∧
      disk.makeDirectories [] front = (.ok (resolve [] front), disk) ∧
      (∀ passed ∈ passes [] front, disk.get? passed = some .directory) ∧
      disk.get? (resolve [] steps) = some (.file bytes) := by
  obtain ⟨front, name, directory, rfl, named, -, made, same⟩ := directory_of_read found
  obtain rfl := resolve_of_made made
  have stands : disk.Stands (resolve [] front) := stands_makeDirectories (stands_nil disk) made
  obtain ⟨accepted, isFile⟩ := (stands.read named bytes).mp ((same name).trans found)
  refine ⟨front, name, rfl, named, accepted, made, directory_of_passes made, ?_⟩
  rwa [resolve_concat named]

/-- A path is followed on any disk where directories are passed. -/
theorem follow_of_passes {between : Disk}
    (made : before.makeDirectories here steps = (.ok root, between))
    (directories : ∀ passed ∈ passes here steps, after.get? passed = some .directory)
    (more : List String) : after.follow here (steps ++ more) = after.follow root more := by
  fun_induction makeDirectories before here steps with
  | case1 =>
      cases made
      rfl
  | case2 before here rest ih =>
      rw [passes, if_pos rfl] at directories
      rw [List.cons_append, follow, if_pos rfl]
      exact ih made directories
  | case3 => cases made
  | case4 before here step rest up accepted there vacant ih =>
      rw [passes, if_neg up] at directories
      obtain ⟨found, behind⟩ := List.forall_mem_cons.mp directories
      rw [List.cons_append, follow, if_neg up, if_neg accepted]
      simp only [found]
      exact ih made behind
  | case5 before here step rest up accepted there stood ih =>
      rw [passes, if_neg up] at directories
      obtain ⟨found, behind⟩ := List.forall_mem_cons.mp directories
      rw [List.cons_append, follow, if_neg up, if_neg accepted]
      simp only [found]
      exact ih made behind
  | case6 => cases made

/-- What stands on another disk where a file was read is read there behind the same directories. -/
theorem read_of_passes {bytes held : Bytes} (found : before.read steps = .ok bytes)
    (directories : ∀ passed ∈ passes [] steps, before.get? passed = some .directory →
      after.get? passed = some .directory)
    (stands : after.get? (resolve [] steps) = some (.file held)) :
    after.read steps = .ok held := by
  obtain ⟨front, name, rfl, named, accepted, made, stood, -⟩ := destination_of_read found
  rw [resolve_concat named] at stands
  have behind := follow_of_passes made
    (fun passed member => directories passed (passes_subset [] front [name] member)
      (stood passed member)) [name]
  rw [follow, if_neg named, if_neg (by simp [accepted])] at behind
  simp only [stands, List.isEmpty_nil, ↓reduceIte] at behind
  unfold read
  rw [behind]

end

end Disk

namespace Store

def placeOf (store : Store) (path : String) : DiskPath :=
  Disk.resolve [] (store.stepsFrom path)

/-- Where the file is looked up that a path names: in its directory, under the key of its name. -/
def objectPlaceOf (store : Store) (path : String) : DiskPath :=
  Disk.resolve [] (store.stepsFrom path).dropLast ++
    ((store.stepsFrom path).getLast?.map Key.encodePart).toList

/-- What stands in another store in the place of a file is the file at its path, behind the same
directories. -/
theorem fileAt?_of_passes {before after : Store} {path : String} {bytes held : Bytes}
    (file : before.fileAt? path = some bytes)
    (same : after.workingDirectory = before.workingDirectory)
    (directories : ∀ passed ∈ Disk.passes [] (before.stepsFrom path),
      before.disk.get? passed = some .directory → after.disk.get? passed = some .directory)
    (stands : after.disk.get? (before.placeOf path) = some (.file held)) :
    after.fileAt? path = some held := by
  have steps : after.stepsFrom path = before.stepsFrom path := by
    unfold stepsFrom
    rw [same]
  have read := Disk.read_of_passes (read_of_fileAt? file) directories stands
  unfold fileAt? at file ⊢
  split at file
  · rename_i ends
    rw [if_pos ends, steps, read]
    rfl
  · cases file

theorem get?_placeOf {store : Store} {path : String} {bytes : Bytes}
    (file : store.fileAt? path = some bytes) :
    store.disk.get? (store.placeOf path) = some (.file bytes) := by
  obtain ⟨_, _, -, -, -, -, -, stands⟩ := Disk.destination_of_read (read_of_fileAt? file)
  exact stands

section

variable {before after : Store} {hidden : Hidden} (grows : before.GrowsBeside hidden after)
  (noDirectory : ∀ place, hidden.file place → before.disk.get? place ≠ some .directory)

include grows noDirectory

/-- A directory is still there in a store that has grown, if only files are hidden. -/
theorem GrowsBeside.directory {place : DiskPath}
    (found : before.disk.get? place = some .directory) :
    after.disk.get? place = some .directory :=
  grows.disk.kept (fun isHidden => noDirectory place isHidden found) found

/-- A file that is not hidden is still there in a store that has grown, if only files are hidden. -/
theorem GrowsBeside.fileAt? {path : String} {bytes : Bytes}
    (seen : ¬hidden.file (before.placeOf path)) (file : before.fileAt? path = some bytes) :
    after.fileAt? path = some bytes :=
  fileAt?_of_passes file grows.workingDirectory (fun _ _ => grows.directory noDirectory)
    (grows.disk.kept seen (get?_placeOf file))

end

end Store

namespace Output

/-- A path leads to the name at its end behind the steps of the directory in front of it. -/
theorem steps_target? {path name : String} {parent : List (List Char)}
    (target : target? path = (parent, some name)) :
    Store.steps path = Store.steps (String.ofList (joinPieces parent)) ++ [name] ∧ name ≠ ".." := by
  unfold target? at target
  simp only at target
  have named := Location.filter_trimPieces (piecesOf path.toList)
  cases left : (Location.trimPieces (piecesOf path.toList)).reverse with
  | nil =>
      rw [left] at target
      cases target
  | cons last rest =>
      rw [left] at target
      obtain ⟨rfl, isName⟩ := Prod.mk.inj target
      split at isName
      · rename_i goesOn
        obtain rfl := Option.some.inj isName
        have whole : Location.trimPieces (piecesOf path.toList) = rest.reverse ++ [last] := by
          rw [← List.reverse_cons, ← left, List.reverse_reverse]
        have ends := Location.not_isVoid_of_trimPieces whole
        have front : Location.trimPieces rest.reverse <+: piecesOf path.toList :=
          (Location.trimPieces_isPrefix _).trans
            ((whole ▸ List.prefix_append ..).trans (Location.trimPieces_isPrefix _))
        have directory :
            Store.steps (String.ofList (joinPieces (Location.trimPieces rest.reverse))) =
              (rest.reverse.filter (!Location.isVoid ·)).map String.ofList := by
          rw [← Location.filter_trimPieces rest.reverse]
          cases trimmed : Location.trimPieces rest.reverse with
          | nil => rfl
          | cons first more =>
              refine Store.steps_joinPieces (fun piece member => ?_) (List.cons_ne_nil _ _)
              exact (of_mem_piecesOf (front.subset (trimmed ▸ member))).1
        constructor
        · rw [directory, Store.steps, ← named, whole, List.filter_append, List.map_append]
          simp [ends]
        · intro up
          refine goesOn.2 ?_
          rw [← String.toList_inj, String.toList_ofList] at up
          exact up
      · cases isName

/-- Making the file of an output makes directories, and empties the file to which its path leads.
No directory was there. -/
theorem beside_create? (store : Store) (path : String) {hidden : Hidden}
    (isHidden : store.disk.get? (store.placeOf path) ≠ some .directory →
      hidden.file (store.placeOf path)) :
    store.GrowsBeside hidden (create? store path).2 ∧
      ∀ output, (create? store path).1 = some output →
        output = .file (store.placeOf path) [] ∧ hidden.file (store.placeOf path) ∧
          (create? store path).2.disk.get? (store.placeOf path) = some (.file []) := by
  rcases target : target? path with ⟨parent, name⟩
  unfold create?
  simp only [target]
  split
  · exact ⟨Store.GrowsBeside.refl hidden store, nofun⟩
  · generalize front : (if path.toList.head? = some '/' then
        Store.steps (String.ofList (joinPieces parent))
      else Store.steps store.workingDirectory ++ Store.steps (String.ofList (joinPieces parent))) =
        steps
    have grows := store.disk.grows_makeDirectories [] steps
    rcases made : store.disk.makeDirectories [] steps with ⟨_ | directory, disk⟩ <;>
      rw [made] at grows <;> simp only
    · exact ⟨⟨grows.beside _, fun _ _ => rfl, rfl⟩, nofun⟩
    · cases name with
      | none => exact ⟨⟨grows.beside _, fun _ _ => rfl, rfl⟩, nofun⟩
      | some name =>
          obtain ⟨whole, named⟩ := steps_target? target
          have place : store.placeOf path = directory ++ [name] := by
            have parts : store.stepsFrom path = steps ++ [name] := by
              unfold Store.stepsFrom
              rw [whole, ← front]
              split
              · rfl
              · exact (List.append_assoc ..).symm
            rw [Store.placeOf, parts, Disk.resolve_concat named, ← Disk.resolve_of_made made]
          rw [place] at isHidden ⊢
          simp only
          rcases written : disk.writeIn directory name [] with _ | after
          · exact ⟨⟨grows.beside _, fun _ _ => rfl, rfl⟩, nofun⟩
          · obtain ⟨-, noDirectory, rfl⟩ := Disk.writeIn_ok written
            have hides := isHidden fun there => noDirectory (grows.kept there)
            have beside := (grows.beside _).trans (Disk.growsBeside_set hides (.file []))
            refine ⟨⟨beside, fun _ _ => rfl, rfl⟩, fun output made => ?_⟩
            cases made
            exact ⟨rfl, hides, Disk.get?_set_below disk directory name _⟩

end Output

/-! ## Sources that are there -/

namespace Key

theorem encodePart_ne_up (name : String) : encodePart name ≠ ".." := by
  intro same
  have bytes := unescape_encodePart name
  rw [same] at bytes
  have texts : some ".." = some name := by
    rw [← Utf8.decode?_encode "..", ← Utf8.decode?_encode name, ← bytes]
    rfl
  obtain rfl := Option.some.inj texts
  exact absurd same (by decide)

end Key

namespace Location

/-- Whether a URL names a file: as a file URL or as a path. -/
def IsLocal (url : String) : Prop :=
  "file:".toList <+: url.toList ∨ "/".toList <+: url.toList ∨ ¬"://".toList <:+: url.toList

/-- A local URL of a file that is there addresses the key of its name, in its directory. -/
theorem parse_of_fileAt? {store : Store} {url : String} {bytes : Bytes}
    (isDirectory : IsWorkingDirectory store.workingDirectory) (free : '\n' ∉ url.toList)
    (isLocal : IsLocal url) (file : store.fileAt? (filePath url) = some bytes) :
    ∃ front name parent, store.stepsFrom (filePath url) = front ++ [name] ∧
      (name ≠ "." ∧ name ≠ "..") ∧ Store.steps parent = front ∧
      parse store.workingDirectory url true =
        .ok (.disk parent (some ⟨[Key.encodePart name]⟩)) := by
  have notMemory : ¬"memory://".toList <+: url.toList := by
    rintro ⟨rest, chars⟩
    unfold IsLocal at isLocal
    rw [← chars] at isLocal
    rcases isLocal with ⟨more, same⟩ | ⟨more, same⟩ | without
    · cases same
    · cases same
    · exact without ⟨"memory".toList, rest, rfl⟩
  have onDisk : "file:".toList <+: url.toList ∨ "/".toList <+: url.toList ∨
      url ≠ "" ∧ ¬"://".toList <:+: url.toList := by
    refine isLocal.imp_right (Or.imp_right fun without => ⟨?_, without⟩)
    rintro rfl
    cases file
  obtain ⟨path, isAbsolute, steps, parsed⟩ := parse_disk_from isDirectory free notMemory onDisk
  obtain ⟨front, name, ends, up, -⟩ := Disk.destination_of_read (Store.read_of_fileAt? file)
  obtain ⟨parent, key⟩ := split_eq isAbsolute
  rw [steps, ends, lastKey?, List.getLast?_concat] at key
  simp only [up, ↓reduceIte] at key
  refine ⟨front, name, (split path).1, ends, ⟨?_, up⟩, ?_, ?_⟩
  · rintro rfl
    have member : "." ∈ Store.steps path := by
      rw [steps, ends]
      exact List.mem_append_right _ (List.mem_singleton_self _)
    exact absurd (Store.steps_of_mem member) (by decide)
  · rw [parent.steps, steps, ends, List.dropLast_concat]
  · rw [parsed, if_pos rfl, key]

end Location

namespace Job

open Location

section

variable {session : Session} {path : String} {bytes : Bytes}

/-- Only the object itself is passed on the way to it, besides directories. -/
theorem loadsApart_of_fileAt? {hidden : Hidden}
    (isDirectory : IsWorkingDirectory session.store.workingDirectory) (free : '\n' ∉ path.toList)
    (isLocal : IsLocal path) (file : session.store.fileAt? (filePath path) = some bytes)
    (noDirectory : ∀ place, hidden.file place → session.store.disk.get? place ≠ some .directory)
    (apart : ¬hidden.file (session.store.objectPlaceOf (filePath path))) :
    LoadsApart hidden session.store.workingDirectory path := by
  obtain ⟨front, name, parent, ends, -, steps, parsed⟩ :=
    parse_of_fileAt? isDirectory free isLocal file
  obtain ⟨before, last, again, -, -, -, directories, -⟩ :=
    Disk.destination_of_read (Store.read_of_fileAt? file)
  obtain ⟨rfl, -⟩ := List.append_inj' (ends.symm.trans again) rfl
  rw [Store.objectPlaceOf, ends, List.dropLast_concat, List.getLast?_concat] at apart
  intro location same
  cases parsed.symm.trans same
  change ∀ passed ∈ Disk.passes [] (Store.steps parent ++ [Key.encodePart name]), _
  rw [steps, Disk.passes_concat (Key.encodePart_ne_up name)]
  refine List.forall_mem_append.mpr ⟨fun passed member isHidden => ?_, ?_⟩
  · exact noDirectory passed isHidden (directories passed member)
  · exact List.forall_mem_singleton.mpr apart

/-- A file whose name is its own key is the object that is loaded. -/
theorem load_of_fileAt? (isDirectory : IsWorkingDirectory session.store.workingDirectory)
    (free : '\n' ∉ path.toList) (isLocal : IsLocal path)
    (file : session.store.fileAt? (filePath path) = some bytes)
    (plain : ∀ name ∈ (session.store.stepsFrom (filePath path)).getLast?,
      ∀ c ∈ name.toList, Key.standsForItself c = true) :
    session.store.objectPlaceOf (filePath path) = session.store.placeOf (filePath path) ∧
      (load path session).1 = .ok bytes := by
  obtain ⟨front, name, parent, ends, named, steps, parsed⟩ :=
    parse_of_fileAt? isDirectory free isLocal file
  have read := Store.read_of_fileAt? file
  obtain ⟨before, last, directory, again, -, clean, made, same⟩ := Disk.directory_of_read read
  obtain ⟨rfl, isLast⟩ := List.append_inj' (ends.symm.trans again) rfl
  obtain rfl := List.singleton_inj.mp isLast
  rw [ends, List.getLast?_concat] at plain
  have key : Key.encodePart name = name := Key.encodePart_plain (plain name rfl) named
  constructor
  · rw [Store.objectPlaceOf, Store.placeOf, ends, List.dropLast_concat, List.getLast?_concat,
      Disk.resolve_concat named.2, Option.map_some, key]
    rfl
  · obtain ⟨opened, object⟩ := Provider.ofLocation_directory steps
      (fun step member => clean step (again ▸ List.mem_append_left _ member)) made
      (Key.encodePart name)
    have ofUrl : Provider.ofUrl session.store path true =
        Provider.ofLocation session.store (.disk parent (some ⟨[Key.encodePart name]⟩)) := by
      unfold Provider.ofUrl
      rw [parsed]
    rw [load_of_ofUrl (ofUrl.trans opened), object, same, key, ← ends, read]
    rfl

end

end Job

end CsvImport

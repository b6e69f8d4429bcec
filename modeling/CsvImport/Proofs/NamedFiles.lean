import CsvImport.Proofs.Addresses
import CsvImport.Proofs.KeyParts

/-!
# Named files

A file is looked up in the directory in front of its name, which is there if the file is.  What is
read there is the file that bears the key of the name, and so the named file if the key is the name
as it stands.
-/

namespace CsvImport

namespace Disk

variable {disk : Disk} {here : DiskPath}

/-- For what a path leads to behind some steps no directory has to be made on the way. -/
theorem makeDirectories_of_follow {steps more : List String} {place : DiskPath × DiskEntry}
    (found : disk.follow here (steps ++ more) = .ok place) (goesOn : more ≠ []) :
    ∃ directory, disk.makeDirectories here steps = (.ok directory, disk) ∧
      ∀ later, disk.follow here (steps ++ later) = disk.follow directory later := by
  induction steps generalizing here with
  | nil => exact ⟨here, rfl, fun later => rfl⟩
  | cons step rest ih =>
      have some : rest ++ more ≠ [] := List.append_ne_nil_of_right_ne_nil _ goesOn
      rw [List.cons_append, follow] at found
      unfold makeDirectories
      simp only [List.cons_append, follow]
      by_cases up : step = ".."
      · rw [if_pos up] at found ⊢
        obtain ⟨directory, made, same⟩ := ih found
        refine ⟨directory, made, fun later => ?_⟩
        rw [if_pos up, same]
      · rw [if_neg up] at found ⊢
        by_cases refused : (!accepts step) = true
        · rw [if_pos refused] at found
          cases found
        · rw [if_neg refused] at found ⊢
          rcases entry : disk.get? (here ++ [step]) with _ | _ | held
          · simp only [entry] at found
            cases found
          · simp only [entry] at found ⊢
            obtain ⟨directory, made, same⟩ := ih found
            refine ⟨directory, made, fun later => ?_⟩
            rw [if_neg up, if_neg refused, same]
          · simp only [entry, List.isEmpty_iff, some, ↓reduceIte] at found
            cases found

/-- A path is followed over names that can stand on a disk. -/
theorem accepts_of_follow {steps : List String} {place : DiskPath × DiskEntry}
    (found : disk.follow here steps = .ok place) :
    ∀ step ∈ steps, step = ".." ∨ accepts step = true := by
  fun_induction follow disk here steps with
  | case1 => exact nofun
  | case2 here rest ih =>
      intro step member
      rcases List.mem_cons.mp member with rfl | later
      · exact .inl rfl
      · exact ih found step later
  | case3 => cases found
  | case4 => cases found
  | case5 here step rest up accepted there isDirectory ih =>
      intro other member
      rcases List.mem_cons.mp member with rfl | later
      · exact .inr (by simpa using accepted)
      · exact ih found other later
  | case6 here step rest up accepted there held isFile last =>
      intro other member
      obtain rfl := List.isEmpty_iff.mp last
      obtain rfl := List.mem_singleton.mp member
      exact .inr (by simpa using accepted)
  | case7 => cases found

/-- A file that is read has a name, and stands in a directory which is there.  What bears another
name in the directory is read behind the same steps. -/
theorem directory_of_read {steps : List String} {bytes : Bytes}
    (found : disk.read steps = .ok bytes) :
    ∃ front name directory, steps = front ++ [name] ∧ name ≠ ".." ∧
      (∀ step ∈ steps, Char.ofNat 0 ∉ step.toList) ∧
      disk.makeDirectories [] front = (.ok directory, disk) ∧
      ∀ other, disk.read (directory ++ [other]) = disk.read (front ++ [other]) := by
  have followed : ∃ path, disk.follow [] steps = .ok (path, .file bytes) := by
    unfold read at found
    split at found
    · rename_i path held same
      cases found
      exact ⟨path, same⟩
    · cases found
    · cases found
  obtain ⟨path, followed⟩ := followed
  rcases List.eq_nil_or_concat' steps with rfl | ⟨front, name, rfl⟩
  · cases followed
  · obtain ⟨directory, made, same⟩ := makeDirectories_of_follow followed (List.cons_ne_nil name [])
    have stands : disk.Stands ([] ++ directory) := stands_makeDirectories (stands_nil disk) made
    refine ⟨front, name, directory, rfl, ?_, fun step member => ?_, made, fun other => ?_⟩
    · rintro rfl
      rw [same, follow, if_pos rfl] at followed
      cases followed
    · rcases accepts_of_follow followed step member with rfl | accepted
      · decide
      · simp only [accepts, Bool.and_eq_true, Bool.not_eq_true'] at accepted
        simpa using accepted.2
    · have again : disk.follow [] (directory ++ [other]) = disk.follow directory [other] :=
        stands.follow [other]
      unfold read
      rw [again, same]

end Disk

namespace Store

/-- The characters of a path are those of its steps, slashes and dots. -/
theorem mem_path {path : String} {c : Char} (member : c ∈ path.toList) :
    c = '/' ∨ c = '.' ∨ ∃ step ∈ steps path, c ∈ step.toList := by
  rw [← joinPieces_piecesOf path.toList] at member
  rcases mem_joinPieces member with slash | ⟨piece, listed, inside⟩
  · exact .inl slash
  · refine .inr ?_
    by_cases empty : Location.isVoid piece = true
    · rcases (by simpa [Location.isVoid] using empty : piece = [] ∨ piece = ['.']) with rfl | rfl
      · cases inside
      · exact .inl (List.mem_singleton.mp inside)
    · refine .inr ⟨String.ofList piece, List.mem_map_of_mem (List.mem_filter.mpr ⟨listed, ?_⟩), ?_⟩
      · simpa using empty
      · rwa [String.toList_ofList]

theorem read_of_fileAt? {store : Store} {path : String} {bytes : Bytes}
    (file : store.fileAt? path = some bytes) :
    store.disk.read (store.stepsFrom path) = .ok bytes := by
  unfold fileAt? at file
  split at file
  · cases found : store.disk.read (store.stepsFrom path) with
    | ok held =>
        rw [found] at file
        exact congrArg Except.ok (Option.some.inj file)
    | error problem =>
        rw [found] at file
        cases file
  · cases file

end Store

namespace Provider

def answer : Except PathProblem Bytes → Except StorageError Bytes
  | .ok bytes => .ok bytes
  | .error .missing => .error (.object true)
  | .error .blocked => .error (.object false)

/-- The directory of a file that is there is opened as it is, and the object at a key in it is the
file that bears the key as its name. -/
theorem ofLocation_directory {store : Store} {parent : String} {front : List String}
    {directory : DiskPath} (steps : Store.steps parent = front)
    (clean : ∀ step ∈ front, Char.ofNat 0 ∉ step.toList)
    (made : store.disk.makeDirectories [] front = (.ok directory, store.disk)) (name : String) :
    let location := Location.disk parent (some ⟨[name]⟩)
    ofLocation store location = (.ok { location, root := directory }, store) ∧
      (({ location, root := directory } : Provider).getObject store).1 =
        answer (store.disk.read (directory ++ [name])) := by
  have free : ¬parent.toList.contains (Char.ofNat 0) = true := by
    rw [List.contains_iff_mem]
    intro member
    rcases Store.mem_path member with slash | dot | ⟨step, listed, inside⟩
    · exact absurd slash (by decide)
    · exact absurd dot (by decide)
    · exact clean step (steps ▸ listed) inside
  intro location
  constructor
  · unfold ofLocation
    simp only [location]
    rw [if_neg free, steps, made]
  · unfold getObject get fetch
    have key : (location.qualify {}).parts = [name] := rfl
    simp only [location, key, List.isEmpty_cons, Bool.false_eq_true, ↓reduceIte]
    rcases store.disk.read (directory ++ [name]) with problem | bytes
    · cases problem <;> rfl
    · rfl

end Provider

namespace Job

/-- What is loaded is what the opened object is read as. -/
theorem load_of_ofUrl {session : Session} {path : String} {provider : Provider} {store : Store}
    (opened : Provider.ofUrl session.store path true = (.ok provider, store)) :
    (load path session).1 = (provider.getObject store).1 := by
  unfold load
  rw [opened]
  simp only
  rcases provider.getObject store with ⟨_ | _, after⟩ <;> rfl

open Location in
/-- A path to a file that is there comes to a result with at most one further call.  The directory
of the file is opened as it is, and what is read and loaded is the file in it that bears the key of
the name.  Just if all characters of the name stand for themselves the name is its key, and then
the named file is loaded, byte for byte. -/
theorem load_namedFile {session : Session} {path : String} {bytes : Bytes}
    (isDirectory : IsWorkingDirectory session.store.workingDirectory) (free : '\n' ∉ path.toList)
    (isPath : "file:".toList <+: path.toList ∨ "/".toList <+: path.toList ∨
      ¬"://".toList <:+: path.toList)
    (file : session.store.fileAt? (filePath path) = some bytes) :
    let store := session.store
    ∃ front name provider,
      store.stepsFrom (filePath path) = front ++ [name] ∧
      (∃ n ≤ 1, Parses store.workingDirectory true n path
        (parse store.workingDirectory path true)) ∧
      Provider.ofUrl store path true = (.ok provider, store) ∧
      (provider.getObject store).1 =
        Provider.answer (store.disk.read (front ++ [Key.encodePart name])) ∧
      (load path session).1 = (provider.getObject store).1 ∧
      (Key.encodePart name = name ↔ ∀ c ∈ name.toList, Key.standsForItself c = true) ∧
      ((∀ c ∈ name.toList, Key.standsForItself c = true) → (load path session).1 = .ok bytes) := by
  intro store
  have notMemory : ¬"memory://".toList <+: path.toList := by
    rintro ⟨rest, chars⟩
    rw [← chars] at isPath
    rcases isPath with ⟨more, same⟩ | ⟨more, same⟩ | without
    · cases same
    · cases same
    · exact without ⟨"memory".toList, rest, rfl⟩
  have read := Store.read_of_fileAt? file
  have onDisk : "file:".toList <+: path.toList ∨ "/".toList <+: path.toList ∨
      path ≠ "" ∧ ¬"://".toList <:+: path.toList := by
    refine isPath.imp_right (Or.imp_right fun without => ⟨?_, without⟩)
    rintro rfl
    cases file
  obtain ⟨whole, isAbsolute, steps, parsed⟩ := parse_disk_from isDirectory free notMemory onDisk
  obtain ⟨front, name, directory, ends, goesOn, clean, made, same⟩ := Disk.directory_of_read read
  obtain ⟨parent, key⟩ := split_eq isAbsolute
  rw [steps, ends] at key
  rw [lastKey?, List.getLast?_concat] at key
  simp only [goesOn, ↓reduceIte] at key
  have parentSteps : Store.steps (split whole).1 = front := by
    rw [parent.steps, steps, ends, List.dropLast_concat]
  have addressed := parsed true
  rw [if_pos rfl, key] at addressed
  obtain ⟨opened, object⟩ := Provider.ofLocation_directory parentSteps
    (fun step member => clean step (ends ▸ List.mem_append_left _ member)) made
    (Key.encodePart name)
  rw [same] at object
  have ofUrl : Provider.ofUrl store path true = Provider.ofLocation store
      (.disk (split whole).1 (some ⟨[Key.encodePart name]⟩)) := by
    unfold Provider.ofUrl
    rw [addressed]
  have named : name ≠ "." ∧ name ≠ ".." := by
    refine ⟨?_, goesOn⟩
    rintro rfl
    have member : "." ∈ Store.steps whole := by
      rw [steps, ends]
      exact List.mem_append_right _ (List.mem_singleton_self _)
    exact absurd (Store.steps_of_mem member) (by decide)
  have loaded := load_of_ofUrl (ofUrl.trans opened)
  have calls := parses_from isDirectory free true
  refine ⟨front, name, _, ends, calls, ofUrl.trans opened, object, loaded,
    Key.encodePart_eq_self_iff named, fun plain => ?_⟩
  rw [loaded, object, Key.encodePart_plain plain named, ← ends, read]
  rfl

/-- A file with blanks in its name, behind a relative path. -/
theorem load_namedFile_blanks :
    let disk : Disk := ⟨[(["in"], .directory), (["in", "my file.csv"], .file [120])]⟩
    let session : Session := { store := { disk, workingDirectory := "/in" } }
    let path := "./my file.csv"
    Location.IsWorkingDirectory session.store.workingDirectory ∧ '\n' ∉ path.toList ∧
      ¬"://".toList <:+: path.toList ∧
      session.store.fileAt? (Location.filePath path) = some [120] ∧
      (load path session).1 = .ok [120] := by
  intro disk session path
  have isDirectory : Location.IsWorkingDirectory session.store.workingDirectory := by
    constructor <;> decide
  have free : '\n' ∉ path.toList := by decide
  have isPath : ¬"://".toList <:+: path.toList := by decide
  have file : session.store.fileAt? (Location.filePath path) = some [120] := by decide
  obtain ⟨front, name, provider, ends, -, -, -, -, -, loaded⟩ :=
    load_namedFile isDirectory free (.inr (.inr isPath)) file
  have steps : session.store.stepsFrom (Location.filePath path) = ["in"] ++ ["my file.csv"] := by
    decide
  obtain rfl : name = "my file.csv" :=
    List.singleton_inj.mp (List.append_inj' (ends.symm.trans steps) rfl).2
  exact ⟨isDirectory, free, isPath, file, loaded (List.all_eq_true.mp (by decide))⟩

/-- A tilde does not stand for itself in a key.  The file is there, but no object is found at its
path, or the file whose name writes the tilde as an escape. -/
theorem load_tilde :
    let file : DiskPath × DiskEntry := (["a~b.csv"], .file [120])
    let other : DiskPath × DiskEntry := (["a%7Eb.csv"], .file [121])
    let store (entries : List (DiskPath × DiskEntry)) : Store := { disk := ⟨entries⟩ }
    (store [file]).fileAt? "a~b.csv" = some [120] ∧
      (load "a~b.csv" { store := store [file] }).1 = .error (.object true) ∧
      (store [file, other]).fileAt? "a~b.csv" = some [120] ∧
      (load "a~b.csv" { store := store [file, other] }).1 = .ok [121] := by
  decide

end Job

end CsvImport

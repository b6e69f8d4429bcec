import CsvImport.Job
import CsvImport.Proofs.Directories

/-!
# Loading

Loading a source may make directories, and does nothing else to a disk.  What loading leads to
depends on the object that is loaded and on what is passed on the way to it, and can therefore
be repeated.
-/

namespace CsvImport

/-- What does not count when stores are compared: files by their paths, and objects in memory
by their keys. -/
structure Hidden where
  file : DiskPath → Prop
  object : Key → Prop

def Hidden.nothing : Hidden where
  file _ := False
  object _ := False

namespace Location

/-- Neither the object of a location is hidden nor anything on the way to it. -/
def Apart (hidden : Hidden) (location : Location) : Prop :=
  match location with
  | .memory _ => ¬hidden.object (location.qualify {})
  | .disk path _ =>
      ∀ passed ∈ Disk.passes [] (Store.steps path ++ (location.qualify {}).parts),
        ¬hidden.file passed

theorem apart_nothing (location : Location) : location.Apart Hidden.nothing := by
  cases location with
  | memory => exact not_false
  | disk => exact fun _ _ => not_false

theorem ofPath_of_parse {workingDirectory url path : String} {withKey : Bool} {key : Option Key}
    (parsed : parse workingDirectory url withKey = .ok (.disk path key)) :
    ∃ text, ofPath text withKey = .disk path key := by
  unfold parse at parsed
  simp only [Bool.cond_eq_ite] at parsed
  split at parsed
  · cases parsed
  · split at parsed
    · cases parsed
    · split at parsed
      · exact ⟨_, Except.ok.inj parsed⟩
      · split at parsed
        · cases parsed
        · split at parsed
          · cases parsed
          · exact ⟨_, Except.ok.inj parsed⟩

/-- A URL that is taken for a directory addresses no object in it. -/
theorem key_of_parse {workingDirectory url path : String} {key : Option Key}
    (parsed : parse workingDirectory url false = .ok (.disk path key)) : key = none := by
  obtain ⟨text, same⟩ := ofPath_of_parse parsed
  unfold ofPath at same
  simp only [Bool.false_eq_true, ↓reduceIte] at same
  exact (Location.disk.inj same).2.symm

/-- An object on disk that a URL addresses stands right in the directory of the location. -/
theorem single_of_parse {workingDirectory url path : String} {withKey : Bool} {key : Option Key}
    (parsed : parse workingDirectory url withKey = .ok (.disk path key)) :
    key = none ∨ ∃ name, key = some ⟨[name]⟩ := by
  obtain ⟨text, same⟩ := ofPath_of_parse parsed
  unfold ofPath at same
  cases withKey with
  | false => exact .inl (key_of_parse parsed)
  | true =>
      unfold split at same
      simp only [↓reduceIte] at same
      split at same
      · exact .inl (Location.disk.inj same).2.symm
      · split at same
        · exact .inl (Location.disk.inj same).2.symm
        · exact .inr ⟨_, (Location.disk.inj same).2.symm⟩

end Location

namespace Store

/-- One store has become the other by having directories made on its disk. -/
structure Grows (before after : Store) : Prop where
  disk : before.disk.Grows after.disk
  memory : after.memory = before.memory
  workingDirectory : after.workingDirectory = before.workingDirectory

/-- One store has become the other by having directories made on its disk, except that
anything may have happened to hidden objects. -/
structure GrowsBeside (hidden : Hidden) (before after : Store) : Prop where
  disk : before.disk.GrowsBeside hidden.file after.disk
  memory : ∀ key, ¬hidden.object key → after.memory? key = before.memory? key
  workingDirectory : after.workingDirectory = before.workingDirectory

variable {before between after : Store} {hidden : Hidden}

theorem Grows.refl (store : Store) : store.Grows store :=
  ⟨Disk.Grows.refl _, rfl, rfl⟩

theorem Grows.trans (former : before.Grows between) (latter : between.Grows after) :
    before.Grows after where
  disk := former.disk.trans latter.disk
  memory := latter.memory.trans former.memory
  workingDirectory := latter.workingDirectory.trans former.workingDirectory

theorem Grows.beside (grows : before.Grows after) (hidden : Hidden) :
    before.GrowsBeside hidden after where
  disk := grows.disk.beside hidden.file
  memory key _ := congrArg (List.lookup key) grows.memory
  workingDirectory := grows.workingDirectory

theorem GrowsBeside.refl (hidden : Hidden) (store : Store) : store.GrowsBeside hidden store :=
  (Grows.refl store).beside hidden

theorem GrowsBeside.trans (former : before.GrowsBeside hidden between)
    (latter : between.GrowsBeside hidden after) : before.GrowsBeside hidden after where
  disk := former.disk.trans latter.disk
  memory key seen := (latter.memory key seen).trans (former.memory key seen)
  workingDirectory := latter.workingDirectory.trans former.workingDirectory

end Store

namespace Provider

section

variable {before after : Store} {hidden : Hidden}

/-- Opening a location makes directories at most. -/
theorem grows_ofUrl (store : Store) (url : String) (withKey : Bool) :
    store.Grows (ofUrl store url withKey).2 := by
  unfold ofUrl
  split
  · unfold ofLocation
    split
    · exact Store.Grows.refl store
    · rename_i path key _
      split
      · exact Store.Grows.refl store
      · have made := store.disk.grows_makeDirectories [] (Store.steps path)
        split
        · rename_i root disk same
          rw [same] at made
          exact ⟨made, rfl, rfl⟩
        · rename_i problem disk same
          rw [same] at made
          exact ⟨made, rfl, rfl⟩
  · exact Store.Grows.refl store

/-- A location is opened alike in a store that has grown. -/
theorem ofLocation_beside (grows : before.GrowsBeside hidden after) {location : Location}
    (apart : location.Apart hidden) :
    (ofLocation before location).1 = (ofLocation after location).1 ∧
      (ofLocation before location).2.GrowsBeside hidden (ofLocation after location).2 := by
  unfold ofLocation
  cases location with
  | memory key => exact ⟨rfl, grows⟩
  | disk path key =>
      simp only
      split
      · exact ⟨rfl, grows⟩
      · have passed : ∀ passed ∈ Disk.passes [] (Store.steps path), ¬hidden.file passed :=
          fun passed member => apart passed (Disk.passes_subset [] _ _ member)
        obtain ⟨result, disks⟩ := grows.disk.makeDirectories passed
        rcases former : before.disk.makeDirectories [] (Store.steps path) with ⟨left, disk⟩
        rcases latter : after.disk.makeDirectories [] (Store.steps path) with ⟨right, grown⟩
        rw [former, latter] at result disks
        cases result
        cases left with
        | ok => exact ⟨rfl, disks, grows.memory, grows.workingDirectory⟩
        | error => exact ⟨rfl, disks, grows.memory, grows.workingDirectory⟩

/-- The object of a location that was opened in two stores is the same in both. -/
theorem fetch_beside {location : Location} {provider : Provider} {opened other : Store}
    (here : ofLocation before location = (.ok provider, opened))
    (there : ofLocation after location = (.ok provider, other))
    (grows : opened.GrowsBeside hidden other) (apart : location.Apart hidden)
    (single : ∀ path key, location = .disk path key → key = none ∨ ∃ name, key = some ⟨[name]⟩) :
    provider.fetch opened {} = provider.fetch other {} := by
  cases location with
  | memory key =>
      unfold ofLocation at here there
      cases here
      unfold fetch
      simp only
      rw [grows.memory _ apart]
  | disk path key =>
      unfold ofLocation at here there
      simp only at here there
      split at here
      · cases here
      · rename_i fine
        rw [if_neg fine] at there
        split at here
        · rename_i root disk made
          cases here
          split at there
          · rename_i found grown again
            cases there
            rcases single path key rfl with rfl | ⟨name, rfl⟩
            · rfl
            · have stood := Disk.stands_makeDirectories (Disk.stands_nil _) made
              have stands := Disk.stands_makeDirectories (Disk.stands_nil _) again
              have seen : name ≠ ".." → ¬hidden.file (root ++ [name]) := fun named =>
                apart _ (Disk.mem_passes_of_made made named)
              have read : disk.read (root ++ [name]) = grown.read (root ++ [name]) :=
                grows.disk.read stood stands seen
              have parts : (({ parts := [name] } : Key) ++ ({} : Key)).parts = [name] := rfl
              unfold fetch
              simp only [Location.qualify, Location.key?, parts, read]
          · cases there
        · cases here

end

end Provider

namespace Job

def LoadsApart (hidden : Hidden) (workingDirectory path : String) : Prop :=
  ∀ location, Location.parse workingDirectory path true = .ok location → location.Apart hidden

/-- Loading a source makes directories at most. -/
theorem grows_load (path : String) (session : Session) :
    session.store.Grows (load path session).2.store := by
  have opened := Provider.grows_ofUrl session.store path true
  unfold load
  split
  · rename_i e store same
    rw [same] at opened
    exact opened
  · rename_i provider store same
    rw [same] at opened
    have read : store.Grows (provider.getObject store).2 := ⟨Disk.Grows.refl _, rfl, rfl⟩
    split
    · rename_i got
      rw [got] at read
      exact opened.trans read
    · rename_i got
      rw [got] at read
      exact opened.trans read

/-- A source is loaded alike in a store that has grown. -/
theorem load_beside {hidden : Hidden} {path : String} {session later : Session}
    (grows : session.store.GrowsBeside hidden later.store)
    (apart : LoadsApart hidden session.store.workingDirectory path) :
    (load path session).1 = (load path later).1 ∧
      (load path session).2.store.GrowsBeside hidden (load path later).2.store := by
  unfold load Provider.ofUrl
  rw [grows.workingDirectory]
  cases parsed : Location.parse session.store.workingDirectory path true with
  | error e => exact ⟨rfl, grows⟩
  | ok location =>
      have single : ∀ path key, location = .disk path key →
          key = none ∨ ∃ name, key = some ⟨[name]⟩ := by
        rintro path key rfl
        exact Location.single_of_parse parsed
      obtain ⟨result, stores⟩ := Provider.ofLocation_beside grows (apart location parsed)
      simp only
      rcases former : Provider.ofLocation session.store location with ⟨left, opened⟩
      rcases latter : Provider.ofLocation later.store location with ⟨right, other⟩
      rw [former, latter] at result stores
      cases result
      cases left with
      | error e => exact ⟨rfl, stores⟩
      | ok provider =>
          have fetched := Provider.fetch_beside former latter stores (apart location parsed) single
          simp only [Provider.getObject, Provider.get, fetched]
          cases provider.fetch other {} with
          | error e => exact ⟨rfl, stores.disk, stores.memory, stores.workingDirectory⟩
          | ok bytes => exact ⟨rfl, stores.disk, stores.memory, stores.workingDirectory⟩

/-- Making directories does not matter to what is loaded. -/
theorem load_of_grows {session later : Session} (grows : session.store.Grows later.store)
    (path : String) : (load path later).1 = (load path session).1 :=
  (load_beside (grows.beside Hidden.nothing) fun location _ => location.apart_nothing).1.symm

/-- Preparing a source changes the stores no more than reading it does. -/
theorem store_prepare (job : Job) (path : String) (session : Session) :
    (job.prepare path session).2.store = (load path session).2.store := by
  unfold prepare
  rcases load path session with ⟨_ | bytes, after⟩
  · rfl
  · simp only
    split <;> rfl

/-- Preparing a source keeps whatever does not look at the stores, at the bytes that are read
and at the notices about it. -/
theorem prepare_kept {α : Type} (view : Session → α)
    (stores : ∀ session store, view { session with store } = view session)
    (reads : ∀ (session : Session) bytes,
      view (session.count (·.sourceRead bytes)) = view session)
    (tells : ∀ (session : Session) text, view (session.tell .source .debug text) = view session)
    (job : Job) (path : String) (session : Session) :
    view (job.prepare path session).2 = view session := by
  have loaded : view (load path session).2 = view session := by
    unfold load
    rcases Provider.ofUrl session.store path true with ⟨_ | provider, store⟩
    · exact stores session store
    · simp only
      rcases provider.getObject store with ⟨_ | bytes, after⟩
      · exact stores session after
      · exact (tells _ _).trans ((reads _ _).trans (stores session after))
  unfold prepare
  rcases read : load path session with ⟨_ | bytes, after⟩ <;> rw [read] at loaded
  · exact loaded
  · simp only
    split
    · exact loaded
    · exact loaded
    · exact (tells _ _).trans loaded

/-- What a source is prepared as depends on nothing but what is loaded. -/
theorem prepare_congr (job : Job) {path : String} {session later : Session}
    (same : (load path later).1 = (load path session).1) :
    (job.prepare path later).1 = (job.prepare path session).1 := by
  unfold prepare
  rcases here : load path later with ⟨result, after⟩
  rcases there : load path session with ⟨other, before⟩
  rw [here, there] at same
  cases same
  cases result with
  | error e => rfl
  | ok bytes =>
      simp only
      rcases Source.prepare job.dialect job.header job.config.source.chunkSize path bytes with
        e | _ | source <;> rfl

/-- What a source that can be loaded is prepared as. -/
theorem prepare_of_load (job : Job) {path : String} {session : Session} {bytes : Bytes}
    (loaded : (load path session).1 = .ok bytes) :
    (job.prepare path session).1 =
        (Source.prepare job.dialect job.header job.config.source.chunkSize path bytes).mapError
          (.header path) ∧
      (job.prepare path session).2.store = (load path session).2.store := by
  refine ⟨?_, job.store_prepare path session⟩
  unfold prepare
  rcases read : load path session with ⟨result, after⟩
  rw [read] at loaded
  cases loaded
  simp only
  rcases Source.prepare job.dialect job.header job.config.source.chunkSize path bytes with
    e | _ | source <;> rfl

/-- Making directories does not matter to what a source is prepared as. -/
theorem prepare_of_grows (job : Job) {session later : Session}
    (grows : session.store.Grows later.store) (path : String) :
    (job.prepare path later).1 = (job.prepare path session).1 ∧
      session.store.Grows (job.prepare path later).2.store := by
  refine ⟨job.prepare_congr (load_of_grows grows path), ?_⟩
  rw [store_prepare]
  exact grows.trans (grows_load path later)

/-- Nor does what is hidden, apart from the source. -/
theorem prepare_beside (job : Job) {hidden : Hidden} {path : String} {session later : Session}
    (grows : session.store.GrowsBeside hidden later.store)
    (apart : LoadsApart hidden session.store.workingDirectory path) :
    (job.prepare path later).1 = (job.prepare path session).1 ∧
      (job.prepare path session).2.store.GrowsBeside hidden
        (job.prepare path later).2.store := by
  obtain ⟨same, stores⟩ := load_beside grows apart
  refine ⟨job.prepare_congr same.symm, ?_⟩
  rwa [store_prepare, store_prepare]

end Job

end CsvImport

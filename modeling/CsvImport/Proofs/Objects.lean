import CsvImport.Proofs.Loading
import CsvImport.Proofs.Writing

/-!
# Objects

What reading an object finds after the stores have changed.  An opened directory stays
where it is, so that an object in it is one entry of the disk; it changes only when it is
written itself.
-/

namespace CsvImport

namespace Provider

/-- The place of the provider is there: in memory, or as a directory. -/
def Stands (provider : Provider) (store : Store) : Prop :=
  match provider.location with
  | .memory _ => True
  | .disk _ key => key = none ∧ store.disk.Stands provider.root

def object? (provider : Provider) (store : Store) (name : String) : Option Bytes :=
  (provider.fetch store (Key.ofText name)).toOption

/-- Where an object is on disk, if it is there at all. -/
def file? (provider : Provider) (name : String) : Option DiskPath :=
  match provider.location with
  | .memory _ => none
  | .disk .. => some (provider.root ++ [name])

end Provider

/-- A name that is a key as it stands. -/
structure Key.Plain (name : String) : Prop where
  key : Key.ofText name = ⟨[name]⟩
  named : name ≠ ".."

namespace Provider

section

variable {provider : Provider} {before after store : Store}

theorem stands_ofUrl {url : String} (opened : ofUrl before url false = (.ok provider, after)) :
    provider.Stands after := by
  unfold ofUrl at opened
  split at opened
  · rename_i location parsed
    unfold ofLocation at opened
    split at opened
    · cases opened
      trivial
    · rename_i path key
      split at opened
      · cases opened
      · split at opened
        · rename_i root disk made
          cases opened
          exact ⟨Location.key_of_parse parsed, Disk.stands_makeDirectories (Disk.stands_nil _) made⟩
        · cases opened
  · cases opened

/-- A provider's place is there as long as the directories are. -/
theorem Stands.kept (stands : provider.Stands before)
    (kept : ∀ path, before.disk.get? path = some .directory →
      after.disk.get? path = some .directory) : provider.Stands after := by
  unfold Provider.Stands at stands ⊢
  split
  · trivial
  · rename_i path key found
    rw [found] at stands
    exact ⟨stands.1, stands.2.kept kept⟩

/-- An object in a directory that is there is a file in it. -/
theorem object?_disk {path : String} {key : Option Key} {name : String}
    (isDisk : provider.location = .disk path key) (stands : provider.Stands store)
    (plain : Key.Plain name) (bytes : Bytes) :
    provider.object? store name = some bytes ↔
      Disk.accepts name = true ∧
        store.disk.get? (provider.root ++ [name]) = some (.file bytes) := by
  unfold Provider.Stands at stands
  rw [isDisk] at stands
  obtain ⟨rfl, stands⟩ := stands
  rw [← stands.read plain.named bytes]
  unfold object? fetch
  rw [plain.key, isDisk]
  simp only [Location.qualify, Location.key?, List.isEmpty_cons, Bool.false_eq_true, ↓reduceIte]
  rcases store.disk.read (provider.root ++ [name]) with (_ | _) | held <;>
    simp [Except.toOption]

/-- What an object depends on: the memory, and one entry of the disk. -/
theorem object?_congr {name : String} (plain : Key.Plain name) (stood : provider.Stands before)
    (stands : provider.Stands after) (memory : after.memory = before.memory)
    (disk : ∀ path, provider.file? name = some path → ∀ bytes,
      after.disk.get? path = some (.file bytes) ↔ before.disk.get? path = some (.file bytes)) :
    provider.object? after name = provider.object? before name := by
  cases located : provider.location with
  | memory key =>
      unfold object? fetch Store.memory?
      rw [located, memory]
  | disk path key =>
      have same := disk (provider.root ++ [name]) (by rw [file?, located])
      refine Option.ext fun bytes => ?_
      rw [object?_disk located stands plain, object?_disk located stood plain, same bytes]

/-- A place stays there while a store grows, and every object with it. -/
theorem Stands.grows (stands : provider.Stands before) (grows : before.Grows after)
    {name : String} (plain : Key.Plain name) :
    provider.Stands after ∧ provider.object? after name = provider.object? before name := by
  have still := stands.kept fun path found => grows.disk.kept found
  refine ⟨still, object?_congr plain stands still grows.memory fun path _ bytes => ?_⟩
  exact ⟨grows.disk.made, grows.disk.kept⟩

theorem qualify_inj {location : Location} {name other : String} :
    location.qualify ⟨[other]⟩ = location.qualify ⟨[name]⟩ ↔ other = name := by
  unfold Location.qualify
  cases location.key? with
  | none => simp
  | some base =>
      change Key.mk (base.parts ++ [other]) = Key.mk (base.parts ++ [name]) ↔ _
      simp

/-- A file that is written below a directory that is there. -/
theorem writeBelow_ok {disk after : Disk} {root : DiskPath} {name : String} {bytes : Bytes}
    (stands : disk.Stands root) (written : writeBelow disk root [name] bytes = (.ok (), after)) :
    Disk.accepts name = true ∧ disk.get? (root ++ [name]) ≠ some .directory ∧
      after = disk.set (root ++ [name]) (.file bytes) := by
  have made : disk.makeDirectories [] root = (.ok root, disk) := stands.makeDirectories
  unfold writeBelow at written
  simp only [List.getLast?_singleton, List.dropLast_singleton, List.append_nil, made] at written
  split at written
  · cases written
  · split at written
    · rename_i wrote
      cases written
      exact Disk.writeIn_ok wrote
    · cases written

/-- What is written to an object can be read there, and no other object changes. -/
theorem place_ok {name other : String} {bytes : Bytes} (stands : provider.Stands before)
    (plain : Key.Plain name) (plainOther : Key.Plain other)
    (placed : provider.place before (Key.ofText name) bytes = (.ok (), after)) :
    provider.Stands after ∧ provider.object? after other =
      if other = name then some bytes else provider.object? before other := by
  cases located : provider.location with
  | memory key =>
      unfold place at placed
      rw [located] at placed
      cases placed
      constructor
      · unfold Provider.Stands
        rw [located]
        trivial
      · unfold object? fetch
        rw [plain.key, plainOther.key, located]
        simp only [Store.memory?_setMemory, beq_iff_eq, qualify_inj]
        by_cases same : other = name
        · rw [if_pos same, if_pos same]
          rfl
        · rw [if_neg same, if_neg same]
  | disk path key =>
      have there := stands
      unfold Provider.Stands at there
      rw [located] at there
      obtain ⟨rfl, there⟩ := there
      unfold place at placed
      rw [located, plain.key] at placed
      simp only [Location.qualify, Location.key?] at placed
      rcases written : writeBelow before.disk provider.root [name] bytes with ⟨result, disk⟩
      rw [written] at placed
      cases placed
      obtain ⟨accepted, vacant, rfl⟩ := writeBelow_ok there written
      have still : provider.Stands
          { before with disk := before.disk.set (provider.root ++ [name]) (.file bytes) } := by
        refine stands.kept fun here found => ?_
        have apart : here ≠ provider.root ++ [name] := by
          rintro rfl
          exact vacant found
        exact (Disk.get?_set_of_ne before.disk apart _).trans found
      refine ⟨still, Option.ext fun held => ?_⟩
      rw [object?_disk located still plainOther]
      by_cases same : other = name
      · subst same
        rw [if_pos rfl, Disk.get?_set_below]
        simp [accepted]
      · have apart : provider.root ++ [other] ≠ provider.root ++ [name] := by simpa using same
        rw [if_neg same, Disk.get?_set_of_ne before.disk apart,
          object?_disk located stands plainOther]

theorem requests_place (provider : Provider) (store : Store) (key : Key) (bytes : Bytes) :
    (provider.place store key bytes).2.requests = store.requests := by
  unfold place
  split <;> rfl

/-- A file that is not written below a directory that is there leaves the disk as it was. -/
theorem writeBelow_error {disk after : Disk} {root : DiskPath} {name : String} {bytes : Bytes}
    {e : StorageError} (stands : disk.Stands root)
    (failed : writeBelow disk root [name] bytes = (.error e, after)) : after = disk := by
  have made : disk.makeDirectories [] root = (.ok root, disk) := stands.makeDirectories
  unfold writeBelow at failed
  simp only [List.getLast?_singleton, List.dropLast_singleton, List.append_nil, made] at failed
  split at failed
  · cases failed
    rfl
  · split at failed
    · cases failed
    · cases failed
      rfl

theorem place_error {name : String} {bytes : Bytes} {e : StorageError}
    (stands : provider.Stands before) (plain : Key.Plain name)
    (failed : provider.place before (Key.ofText name) bytes = (.error e, after)) :
    after = before := by
  unfold place at failed
  unfold Provider.Stands at stands
  cases located : provider.location with
  | memory key =>
      rw [located] at failed
      cases failed
  | disk path key =>
      rw [located] at stands failed
      obtain ⟨rfl, stands⟩ := stands
      rw [plain.key] at failed
      simp only [Location.qualify, Location.key?] at failed
      rcases written : writeBelow before.disk provider.root [name] bytes with ⟨result, disk⟩
      rw [written] at failed
      cases failed
      rw [writeBelow_error stands written]

/-- How writing an object ends: it is there, or every object is as it was. -/
theorem put_cases {name : String} (plain : Key.Plain name) (stands : provider.Stands store)
    (bytes : Bytes) :
    (∃ after, provider.put store (Key.ofText name) bytes = (.ok (), after) ∧
        after.requests = store.requests.put true ∧ provider.Stands after ∧
        ∀ other, Key.Plain other → provider.object? after other =
          if other = name then some bytes else provider.object? store other) ∨
      ∃ e after, provider.put store (Key.ofText name) bytes = (.error e, after) ∧
        after.requests = store.requests.put false ∧ provider.Stands after ∧
        ∀ other, provider.object? after other = provider.object? store other := by
  let asked := { store with refusals := store.refusals.tail }
  have stood : provider.Stands asked := stands
  have requests := provider.requests_place asked (Key.ofText name) bytes
  unfold put
  simp only
  by_cases refused : store.refusals.headD false = true
  · rw [if_pos refused]
    exact .inr ⟨_, _, rfl, rfl, stood, fun _ => rfl⟩
  · rw [if_neg refused]
    change (∃ after, ((provider.place asked (Key.ofText name) bytes).1, _) = _ ∧ _) ∨
      ∃ e after, ((provider.place asked (Key.ofText name) bytes).1, _) = _ ∧ _
    rcases placed : provider.place asked (Key.ofText name) bytes with ⟨e | _, after⟩
    · obtain rfl := place_error stood plain placed
      exact .inr ⟨_, _, rfl, rfl, stood, fun _ => rfl⟩
    · rw [placed] at requests
      refine .inl ⟨_, rfl, congrArg (RequestCounts.put · true) requests, ?_, ?_⟩
      · exact (place_ok stood plain plain placed).1
      · exact fun other plainOther => (place_ok stood plain plainOther placed).2

/-- Nothing that concerns the object has happened between two stores. -/
structure Spares (provider : Provider) (name : String) (before after : Store) : Prop where
  stands : provider.Stands before → provider.Stands after
  object : provider.Stands before → provider.object? after name = provider.object? before name
  putErrors : after.requests.putErrors = before.requests.putErrors

theorem Spares.trans {between : Store} {name : String}
    (former : provider.Spares name before between) (latter : provider.Spares name between after) :
    provider.Spares name before after where
  stands there := latter.stands (former.stands there)
  object there := (latter.object (former.stands there)).trans (former.object there)
  putErrors := latter.putErrors.trans former.putErrors

theorem spares_append {name : String} (plain : Key.Plain name) (store : Store) {path : DiskPath}
    (apart : provider.file? name ≠ some path) (bytes : Bytes) :
    provider.Spares name store { store with disk := Output.append store.disk path bytes } := by
  unfold Output.append
  cases found : store.disk.get? path with
  | none => exact ⟨id, fun _ => rfl, rfl⟩
  | some entry =>
      cases entry with
      | directory => exact ⟨id, fun _ => rfl, rfl⟩
      | file held =>
          have stands : provider.Stands store → provider.Stands
              { store with disk := store.disk.set path (.file (held ++ bytes)) } := by
            refine fun there => there.kept fun here isDirectory => ?_
            have other : here ≠ path := by
              rintro rfl
              cases found.symm.trans isDirectory
            exact (Disk.get?_set_of_ne store.disk other _).trans isDirectory
          refine ⟨stands, fun there => ?_, rfl⟩
          refine object?_congr plain there (stands there) rfl fun here isFile held => ?_
          have other : here ≠ path := by
            rintro rfl
            exact apart isFile
          rw [Disk.get?_set_of_ne store.disk other]

theorem spares_spill {name : String} (plain : Key.Plain name) (session : Session)
    {path : DiskPath} (apart : provider.file? name ≠ some path) (pieces : List Bytes) :
    provider.Spares name session.store (Output.spill session path pieces).store := by
  induction pieces generalizing session with
  | nil => exact ⟨id, fun _ => rfl, rfl⟩
  | cons piece more ih =>
      exact (spares_append plain session.store apart piece).trans
        (ih (Output.appendIn session path piece))

theorem requests_ofUrl (store : Store) (url : String) (withKey : Bool) :
    (ofUrl store url withKey).2.requests = store.requests := by
  unfold ofUrl
  split
  · unfold ofLocation
    split
    · rfl
    · split
      · rfl
      · split <;> rfl
  · rfl

theorem putErrors_got (counts : RequestCounts) (succeeded : Bool) :
    (counts.got succeeded).putErrors = counts.putErrors := by
  cases succeeded <;> rfl

theorem spares_load {name : String} (plain : Key.Plain name) (path : String) (session : Session) :
    provider.Spares name session.store (Job.load path session).2.store where
  stands there := (there.grows (Job.grows_load path session) plain).1
  object there := (there.grows (Job.grows_load path session) plain).2
  putErrors := by
    have opened := requests_ofUrl session.store path true
    unfold Job.load
    generalize Provider.ofUrl session.store path true = place at opened ⊢
    rcases place with ⟨_ | provider, store⟩
    · exact congrArg RequestCounts.putErrors opened
    · have got : (provider.getObject store).2.requests.putErrors =
          session.store.requests.putErrors :=
        (putErrors_got ..).trans (congrArg RequestCounts.putErrors opened)
      simp only
      generalize provider.getObject store = read at got ⊢
      rcases read with ⟨_ | _, after⟩ <;> exact got

end

end Provider

namespace Output

/-- The output writes to no file where the provider keeps the object. -/
def Apart (output : Output) (provider : Provider) (name : String) : Prop :=
  match output with
  | .sink _ => True
  | .file path _ => provider.file? name ≠ some path

/-- What is written to an output spares the objects apart from it. -/
theorem Apart.writeAll {output : Output} {provider : Provider} {name : String}
    (apart : output.Apart provider name) (plain : Key.Plain name) (session : Session)
    (bytes : Bytes) :
    provider.Spares name session.store (output.writeAll session bytes).2.2.store ∧
      (output.writeAll session bytes).2.1.Apart provider name := by
  cases output with
  | sink s => exact ⟨⟨id, fun _ => rfl, rfl⟩, trivial⟩
  | file path buffered =>
      obtain ⟨pieces, kept, _, written⟩ := writeAll_file path buffered bytes
      rw [written]
      exact ⟨Provider.spares_spill plain session apart pieces, apart⟩

theorem Apart.flush {output : Output} {provider : Provider} {name : String}
    (apart : output.Apart provider name) (plain : Key.Plain name) (session : Session) :
    provider.Spares name session.store (output.flush session).2.2.store ∧
      (output.flush session).2.1.Apart provider name := by
  cases output with
  | sink s => exact ⟨⟨id, fun _ => rfl, rfl⟩, trivial⟩
  | file path buffered => exact ⟨Provider.spares_append plain session.store apart buffered, apart⟩

end Output

end CsvImport

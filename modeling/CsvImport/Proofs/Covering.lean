import CsvImport.FailureTracker
import CsvImport.Proofs.BatchNames

/-!
# What a failure log touches

A failure log writes its batches and nothing else.  When the batches are hidden, then stores
are the same to an observer whether or not there is a log.
-/

namespace CsvImport

/-! ## Objects that are hidden -/

namespace Disk

/-- Directories that are made on the way to a path without `..` lead to the path. -/
theorem eq_of_makeDirectories {disk after : Disk} {here root : DiskPath} {steps : List String}
    (named : ".." ∉ steps) (made : disk.makeDirectories here steps = (.ok root, after)) :
    root = here ++ steps := by
  fun_induction Disk.makeDirectories disk here steps with
  | case1 disk here =>
      cases made
      exact (List.append_nil _).symm
  | case2 disk here rest ih => exact absurd (List.mem_cons_self ..) named
  | case3 => cases made
  | case4 disk here step rest up accepted there vacant ih =>
      exact (ih (fun member => named (List.mem_cons_of_mem _ member)) made).trans
        (List.append_assoc ..)
  | case5 disk here step rest up accepted there found ih =>
      exact (ih (fun member => named (List.mem_cons_of_mem _ member)) made).trans
        (List.append_assoc ..)
  | case6 => cases made

/-- A path that stands holds no `..`. -/
theorem Stands.named {disk : Disk} {path : DiskPath} (stands : disk.Stands path) :
    ".." ∉ path := by
  intro member
  obtain ⟨before, behind, rfl⟩ := List.append_of_mem member
  have front : before ++ [".."] <+: before ++ ".." :: behind :=
    ⟨behind, by rw [List.append_assoc]; rfl⟩
  exact (stands before ".." front).1 rfl

end Disk

namespace Provider

variable {hidden : Hidden} {provider : Provider}

/-- Where an object is in memory, if it is there at all. -/
def memoryKey? (provider : Provider) (name : String) : Option Key :=
  match provider.location with
  | .memory _ => some (provider.location.qualify (Key.ofText name))
  | .disk .. => none

def Direct (provider : Provider) : Prop :=
  match provider.location with
  | .memory _ => True
  | .disk _ key => key = none ∧ ".." ∉ provider.root

theorem Stands.direct {store : Store} (stands : provider.Stands store) : provider.Direct := by
  unfold Provider.Stands at stands
  unfold Direct
  cases located : provider.location with
  | memory base => trivial
  | disk path key =>
      rw [located] at stands
      exact ⟨stands.1, stands.2.named⟩

/-- Whether or not a file can be written, nothing else changes but for directories. -/
theorem beside_writeBelow {hidden : DiskPath → Prop} (disk : Disk) {root : DiskPath}
    (named : ".." ∉ root) {name : String} (isHidden : hidden (root ++ [name])) (bytes : Bytes) :
    disk.GrowsBeside hidden (writeBelow disk root [name] bytes).2 := by
  have grows := (disk.grows_makeDirectories [] root).beside hidden
  unfold writeBelow
  simp only [List.getLast?_singleton, List.dropLast_singleton, List.append_nil]
  rcases made : disk.makeDirectories [] root with ⟨_ | directory, after⟩ <;> rw [made] at grows
  · exact grows
  · obtain rfl : directory = root := Disk.eq_of_makeDirectories named made
    simp only
    split
    · exact grows
    · split
      · rename_i written
        obtain ⟨-, -, rfl⟩ := Disk.writeIn_ok written
        exact grows.trans (Disk.growsBeside_set isHidden _)
      · exact grows

/-- Whether or not an object can be written, no other object changes. -/
theorem beside_put (direct : provider.Direct) {name : String} (plain : Key.Plain name)
    (file : ∀ path, provider.file? name = some path → hidden.file path)
    (object : ∀ key, provider.memoryKey? name = some key → hidden.object key)
    (store : Store) (bytes : Bytes) :
    store.GrowsBeside hidden (provider.put store (Key.ofText name) bytes).2 := by
  have placed : store.GrowsBeside hidden (provider.place
      { store with refusals := store.refusals.tail } (Key.ofText name) bytes).2 := by
    unfold place
    unfold Direct at direct
    unfold file? at file
    unfold memoryKey? at object
    cases located : provider.location with
    | memory base =>
        rw [located] at object
        refine ⟨(Disk.Grows.refl _).beside _, fun key seen => ?_, rfl⟩
        have apart : key ≠ (Location.memory base).qualify (Key.ofText name) := by
          rintro rfl
          exact seen (object _ rfl)
        rw [Store.memory?_setMemory, if_neg (by simpa using apart)]
        rfl
    | disk path key =>
        rw [located] at direct file
        obtain ⟨rfl, named⟩ := direct
        rw [plain.key]
        refine ⟨?_, fun _ _ => rfl, rfl⟩
        exact beside_writeBelow store.disk named (file _ rfl) bytes
  unfold put
  simp only
  split
  · exact ⟨(Disk.Grows.refl _).beside _, fun _ _ => rfl, rfl⟩
  · exact ⟨placed.disk, placed.memory, placed.workingDirectory⟩

end Provider

namespace FailureLog

/-- All batches that the log can write are hidden. -/
structure Covered (hidden : Hidden) (log : FailureLog) : Prop where
  plain : ∀ batch, Key.Plain (log.batchName batch)
  direct : log.provider.Direct
  file : ∀ batch path, log.provider.file? (log.batchName batch) = some path → hidden.file path
  object : ∀ batch key, log.provider.memoryKey? (log.batchName batch) = some key →
    hidden.object key

def hidden (log : FailureLog) : Hidden where
  file path := ∃ batch, log.provider.file? (log.batchName batch) = some path
  object key := ∃ batch, log.provider.memoryKey? (log.batchName batch) = some key

variable {hidden : Hidden} {log : FailureLog}

theorem covered_hidden (plain : ∀ batch, Key.Plain (log.batchName batch))
    (direct : log.provider.Direct) : log.Covered log.hidden where
  plain := plain
  direct := direct
  file batch _ found := ⟨batch, found⟩
  object batch _ found := ⟨batch, found⟩

/-- The batches of a log depend on its place and its stem alone. -/
theorem Covered.same {other : FailureLog} (covered : log.Covered hidden)
    (provider : other.provider = log.provider) (stem : other.stem = log.stem) :
    other.Covered hidden := by
  have names := batchName_congr stem
  constructor
  · exact fun batch => names batch ▸ covered.plain batch
  · exact provider ▸ covered.direct
  · intro batch
    rw [provider, names]
    exact covered.file batch
  · intro batch
    rw [provider, names]
    exact covered.object batch

theorem Covered.flush (covered : log.Covered hidden) (session : Session) :
    session.store.GrowsBeside hidden (log.flush session).2.2.store ∧
      (log.flush session).2.1.Covered hidden := by
  have put := Provider.beside_put covered.direct (covered.plain log.batches)
    (covered.file log.batches) (covered.object log.batches) session.store log.batchBytes
  unfold FailureLog.flush
  split
  · exact ⟨Store.GrowsBeside.refl .., covered⟩
  · simp only
    rcases written : log.provider.put session.store (Key.ofText (log.batchName log.batches))
      log.batchBytes with ⟨_ | _, store⟩ <;> rw [written] at put
    · exact ⟨put, covered⟩
    · exact ⟨put, covered.same rfl rfl⟩

theorem Covered.record (covered : log.Covered hidden) (failure : Failure) (now : Timestamp)
    (session : Session) :
    session.store.GrowsBeside hidden (log.record failure now session).2.store ∧
      (log.record failure now session).1.Covered hidden := by
  have appended : (log.append failure now).Covered hidden := covered.same rfl rfl
  unfold FailureLog.record
  simp only
  split
  · exact ⟨Store.GrowsBeside.refl .., appended⟩
  · generalize hasTold : session.tell .failureLog .debug _ = told
    have same : told.store = session.store := by rw [← hasTold]; rfl
    have flushed := appended.flush told
    rw [same] at flushed
    rcases ended : (log.append failure now).flush told with ⟨_ | _, after, later⟩ <;>
      rw [ended] at flushed
    · exact flushed
    · exact flushed

theorem Covered.finalize (covered : log.Covered hidden) (session : Session) :
    session.store.GrowsBeside hidden (log.finalize session).2.2.store ∧
      (log.finalize session).2.1.Covered hidden := by
  have flushed := covered.flush session
  unfold FailureLog.finalize
  rcases ended : log.flush session with ⟨_ | _, after, later⟩ <;> rw [ended] at flushed
  · exact flushed
  · simp only
    split <;> exact flushed

end FailureLog

namespace FailureTracker

def Covered (hidden : Hidden) (tracker : FailureTracker) : Prop :=
  ∀ log, tracker.log = some log → log.Covered hidden

variable {hidden : Hidden} {tracker : FailureTracker}

theorem Covered.finalizeLog (covered : tracker.Covered hidden) (session : Session) :
    session.store.GrowsBeside hidden (tracker.finalizeLog session).2.store ∧
      (tracker.finalizeLog session).1.Covered hidden := by
  unfold FailureTracker.finalizeLog
  split
  · exact ⟨Store.GrowsBeside.refl .., covered⟩
  · rename_i log isLog
    obtain ⟨beside, still⟩ := (covered log isLog).finalize session
    have kept : ∀ after, (log.finalize session).2.1 = after →
        Covered hidden { tracker with log := some after } := by
      rintro _ rfl other same
      exact Option.some.inj same ▸ still
    rcases ended : log.finalize session with ⟨_ | _, after, later⟩ <;>
      rw [ended] at beside kept
    · exact ⟨beside, kept after rfl⟩
    · exact ⟨beside, kept after rfl⟩

theorem Covered.writeLog (covered : tracker.Covered hidden) (failure : Failure) (now : Timestamp)
    (session : Session) :
    session.store.GrowsBeside hidden (tracker.writeLog failure now session).2.store ∧
      (tracker.writeLog failure now session).1.Covered hidden := by
  unfold FailureTracker.writeLog
  split
  · exact ⟨Store.GrowsBeside.refl .., covered⟩
  · rename_i log isLog
    obtain ⟨beside, still⟩ := (covered log isLog).record failure now session
    refine ⟨beside, fun other same => ?_⟩
    exact Option.some.inj same ▸ still

theorem Covered.record (covered : tracker.Covered hidden) (failure : Failure) (now : Timestamp)
    (session : Session) :
    session.store.GrowsBeside hidden (tracker.record failure now session).2.2.store ∧
      (tracker.record failure now session).2.1.Covered hidden := by
  let counted := (session.tell .failures .warn (notice failure)).count (·.chunksEnded .failed 1)
  obtain ⟨beside, still⟩ := covered.writeLog failure now counted
  unfold FailureTracker.record
  simp only
  split
  · exact ⟨beside, still⟩
  · rename_i excess _
    let written := (tracker.writeLog failure now counted).1
    have kept : Covered hidden { written with failures := written.failures ++ [failure] } := still
    have finished := kept.finalizeLog
      ((tracker.writeLog failure now counted).2.tell .failures .error
        ("Max failures (" ++ toString excess.count ++ ") reached, stopping import"))
    exact ⟨beside.trans finished.1, finished.2⟩

end FailureTracker

end CsvImport

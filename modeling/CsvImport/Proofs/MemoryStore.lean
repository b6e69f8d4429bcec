import CsvImport.Proofs.Addresses
import CsvImport.Proofs.KeyParts

/-!
# The memory store

All providers of the memory store share one table of objects.  Whatever base a provider was opened
at, an object is addressed by the segments of the base and those of its path behind them, and a
read finds what was put there last.
-/

namespace CsvImport

namespace MemoryStore

open Key

/-- What is asked of the memory store.  Providers are numbered in the order of their openings. -/
inductive Request where
  /-- Open the URL that has the base behind its start, as that of an object or of a group. -/
  | opening (base : String) (withKey : Bool)
  | put (provider : Nat) (path : String) (bytes : Bytes)
  | get (provider : Nat) (path : String)
  | getObject (provider : Nat)
deriving DecidableEq, Repr

def Request.text : Request → String
  | opening base _ => base
  | put _ path _ => path
  | get _ path => path
  | getObject _ => ""

/-- What came of a request.  A provider is told by the base that it was opened at. -/
inductive Event where
  | opened (base : String) (withKey : Bool) (result : Except StorageError Provider)
  | put (base path : String) (bytes : Bytes) (result : Except StorageError Unit)
  | got (base path : String) (result : Except StorageError Bytes)
deriving DecidableEq, Repr

def Event.putAt? (segments : List String) : Event → Option Bytes
  | put base path bytes _ =>
      if segmentsOf base ++ segmentsOf path = segments then some bytes else none
  | _ => none

/-- What the latest of the events that put something at segments puts there. -/
def latest? (segments : List String) (events : List Event) : Option Bytes :=
  (events.filterMap (Event.putAt? segments)).getLast?

def found : Option Bytes → Except StorageError Bytes
  | some bytes => .ok bytes
  | none => .error (.object true)

/-- What has been asked of a store and has come of it. -/
structure History where
  store : Store
  /-- The providers that were opened, with their bases. -/
  providers : List (String × Provider) := []
  events : List Event := []
deriving DecidableEq, Repr

/-- Ask a provider; of one that was not opened nothing can be asked. -/
def History.ask {α : Type} (history : History) (number : Nat)
    (answer : Provider → Store → α × Store) (event : String → α → Event) : History :=
  match history.providers[number]? with
  | none => history
  | some (base, provider) =>
      let (result, store) := answer provider history.store
      { history with store, events := history.events ++ [event base result] }

def step (history : History) : Request → History
  | .opening base withKey =>
      let (result, store) := Provider.ofUrl history.store ("memory://" ++ base) withKey
      { store
        providers := history.providers ++ (result.toOption.map (base, ·)).toList
        events := history.events ++ [.opened base withKey result] }
  | .put number path bytes =>
      history.ask number (·.put · (ofText path) bytes) (.put · path bytes)
  | .get number path => history.ask number (·.get · (ofText path)) (.got · path)
  | .getObject number => history.ask number (·.getObject ·) (.got · "")

def run (store : Store) (requests : List Request) : History :=
  requests.foldl step { store }

/-! ## Locations in memory -/

def locationAt (base : String) : Location :=
  .memory (if base.isEmpty then none else some (ofText base))

theorem behind?_base (base : String) :
    Location.behind? "memory://" ("memory://" ++ base) = some base :=
  Location.behind?_eq_some_iff.mpr rfl

theorem free_base {base : String} (free : '\n' ∉ base.toList) :
    '\n' ∉ ("memory://" ++ base).toList := by
  rw [String.toList_append, List.mem_append]
  exact fun inside => inside.elim (by decide) free

theorem ofUrl_base {base : String} (free : '\n' ∉ base.toList) (store : Store) (withKey : Bool) :
    Provider.ofUrl store ("memory://" ++ base) withKey =
      (.ok { location := locationAt base }, store) := by
  have parsed : Location.parse store.workingDirectory ("memory://" ++ base) withKey =
      .ok (locationAt base) := by
    unfold Location.parse
    rw [Location.contains_lineFeed (free_base free), behind?_base]
    rfl
  unfold Provider.ofUrl
  rw [parsed]
  rfl

/-- The URL of a base without line feeds matches the first pattern. -/
theorem call_base {base : String} (free : '\n' ∉ base.toList) (workingDirectory : String)
    (withKey : Bool) :
    Location.call workingDirectory ("memory://" ++ base) withKey =
      .done (.ok (locationAt base)) := by
  unfold Location.call
  rw [Location.captured?_eq (free_base free), behind?_base]
  rfl

/-- A key behind a base has the segments of the base in front. -/
theorem qualify_base (base : String) (segments : List String) :
    (locationAt base).qualify (ofSegments segments) = ofSegments (segmentsOf base ++ segments) := by
  unfold locationAt Location.qualify
  by_cases empty : base.isEmpty = true
  · rw [if_pos empty, String.isEmpty_iff.mp empty]
    rfl
  · rw [if_neg empty]
    change ofText base ++ ofSegments segments = _
    rw [ofText_eq, ofSegments_append]

theorem get_base (base : String) (store : Store) (segments : List String) :
    ({ location := locationAt base } : Provider).get store (ofSegments segments) =
      let result := found (store.memory? (ofSegments (segmentsOf base ++ segments)))
      (result, { store with requests := store.requests.got result.toBool }) := by
  have fetched : ({ location := locationAt base } : Provider).fetch store (ofSegments segments) =
      found (store.memory? (ofSegments (segmentsOf base ++ segments))) := by
    rw [← qualify_base]
    unfold Provider.fetch
    simp only [locationAt]
    cases store.memory? _ <;> rfl
  unfold Provider.get
  rw [fetched]

theorem put_base {store : Store} (willing : store.refusals = []) (base : String)
    (segments : List String) (bytes : Bytes) :
    ({ location := locationAt base } : Provider).put store (ofSegments segments) bytes =
      (.ok (), { store.setMemory (ofSegments (segmentsOf base ++ segments)) bytes with
        requests := store.requests.put true }) := by
  rw [← qualify_base]
  unfold Provider.put
  simp only [willing, List.headD_nil, List.tail_nil, Bool.false_eq_true, ↓reduceIte]
  cases store
  cases willing
  rfl

/-! ## Events -/

theorem latest?_concat (segments : List String) (events : List Event) (event : Event) :
    latest? segments (events ++ [event]) =
      (event.putAt? segments).or (latest? segments events) := by
  unfold latest?
  rw [List.filterMap_append, List.getLast?_append, List.filterMap_cons, List.filterMap_nil]
  cases event.putAt? segments <;> rfl

/-- An event is the last one or stands in front of it. -/
theorem split_concat {events before later : List Event} {event last : Event}
    (same : events ++ [last] = before ++ event :: later) :
    before = events ∧ event = last ∨ ∃ more, events = before ++ event :: more := by
  rcases List.eq_nil_or_concat' later with rfl | ⟨more, other, rfl⟩
  · obtain ⟨front, ends⟩ := List.append_inj' same rfl
    exact .inl ⟨front.symm, (List.singleton_inj.mp ends).symm⟩
  · rw [← List.cons_append, ← List.append_assoc] at same
    exact .inr ⟨more, (List.append_inj' same rfl).1⟩

/-- What the first call for the URL of a base finds is opened. -/
def Opens (base : String) (withKey : Bool) (result : Except StorageError Provider) : Prop :=
  ∃ location, result = .ok { location } ∧ ∀ workingDirectory,
    Location.call workingDirectory ("memory://" ++ base) withKey = .done (.ok location)

/-- What the openings and the puts among events come to, and what the gets find. -/
structure Answers (events : List Event) : Prop where
  opened {base : String} {withKey : Bool} {result : Except StorageError Provider}
    (member : .opened base withKey result ∈ events) : Opens base withKey result
  put {base path : String} {bytes : Bytes} {result : Except StorageError Unit}
    (member : .put base path bytes result ∈ events) : result = .ok ()
  /-- A get finds what was put at its segments last. -/
  got {before later : List Event} {base path : String} {result : Except StorageError Bytes}
    (order : events = before ++ .got base path result :: later) :
    result = found (latest? (segmentsOf base ++ segmentsOf path) before)

theorem Answers.concat {events : List Event} (answers : Answers events) {event : Event}
    (opened : ∀ {base withKey result}, event = .opened base withKey result →
      Opens base withKey result)
    (put : ∀ {base path bytes result}, event = .put base path bytes result → result = .ok ())
    (got : ∀ {base path result}, event = .got base path result →
      result = found (latest? (segmentsOf base ++ segmentsOf path) events)) :
    Answers (events ++ [event]) where
  opened member := by
    rcases List.mem_append.mp member with before | last
    · exact answers.opened before
    · exact opened (List.mem_singleton.mp last).symm
  put member := by
    rcases List.mem_append.mp member with before | last
    · exact answers.put before
    · exact put (List.mem_singleton.mp last).symm
  got order := by
    rcases split_concat order with ⟨rfl, last⟩ | ⟨more, before⟩
    · exact got last.symm
    · exact answers.got before

/-! ## Histories -/

/-- The table of a history holds what was put last, and every provider stands at its base. -/
structure Sound (history : History) : Prop where
  willing : history.store.refusals = []
  located : ∀ entry ∈ history.providers, entry.2 = { location := locationAt entry.1 }
  stored : ∀ segments,
    history.store.memory? (ofSegments segments) = latest? segments history.events
  answers : Answers history.events

theorem sound_start (disk : Disk) (workingDirectory : String) :
    Sound { store := { disk, workingDirectory } } where
  willing := rfl
  located := by simp
  stored _ := rfl
  answers := {
    opened := by simp
    put := by simp
    got := by simp }

section

variable {history : History}

theorem Sound.provider (sound : Sound history) {number : Nat} {base : String}
    {provider : Provider} (here : history.providers[number]? = some (base, provider)) :
    provider = { location := locationAt base } :=
  sound.located _ (List.mem_of_getElem? here)

theorem Sound.opening (sound : Sound history) {base : String} (free : '\n' ∉ base.toList)
    (withKey : Bool) : Sound (step history (.opening base withKey)) := by
  unfold step
  simp only [ofUrl_base free]
  constructor
  · exact sound.willing
  · intro entry member
    rcases List.mem_append.mp member with before | last
    · exact sound.located entry before
    · obtain rfl : entry = (base, { location := locationAt base }) := List.mem_singleton.mp last
      rfl
  · intro segments
    rw [latest?_concat]
    exact sound.stored segments
  · refine sound.answers.concat ?_ nofun nofun
    intro base withKey result same
    cases same
    exact ⟨_, rfl, fun workingDirectory => call_base free workingDirectory _⟩

/-- A put changes what is found at its segments, and nowhere else. -/
theorem Sound.put (sound : Sound history) (number : Nat) (path : String) (bytes : Bytes) :
    Sound (step history (.put number path bytes)) := by
  simp only [step, History.ask]
  split
  · exact sound
  · rename_i base provider here
    simp only [sound.provider here, ofText_eq, put_base sound.willing]
    constructor
    · exact sound.willing
    · exact sound.located
    · intro segments
      have putAt : Event.putAt? segments (.put base path bytes (.ok ())) =
          if segmentsOf base ++ segmentsOf path = segments then some bytes else none := rfl
      rw [latest?_concat, putAt, ← sound.stored segments]
      refine (Store.memory?_setMemory ..).trans ?_
      by_cases same : segmentsOf base ++ segmentsOf path = segments
      · rw [if_pos same, if_pos (by rw [beq_iff_eq, same])]
        rfl
      · have apart : ofSegments segments ≠ ofSegments (segmentsOf base ++ segmentsOf path) :=
          fun keys => same (ofSegments_inj.mp keys).symm
        rw [if_neg same, if_neg (by rwa [beq_iff_eq])]
        rfl
    · refine sound.answers.concat nofun ?_ nofun
      intro _ _ _ _ same
      cases same
      rfl

/-- A get finds what is there and changes nothing. -/
theorem Sound.get (sound : Sound history) (number : Nat) (path : String) :
    Sound (step history (.get number path)) := by
  simp only [step, History.ask]
  split
  · exact sound
  · rename_i base provider here
    simp only [sound.provider here, ofText_eq, get_base]
    constructor
    · exact sound.willing
    · exact sound.located
    · intro segments
      rw [latest?_concat]
      exact sound.stored segments
    · refine sound.answers.concat nofun nofun ?_
      intro _ _ _ same
      cases same
      rw [sound.stored]

/-- The object of a provider is the one at its base. -/
theorem step_getObject (history : History) (number : Nat) :
    step history (.getObject number) = step history (.get number "") :=
  rfl

theorem Sound.step (sound : Sound history) {request : Request}
    (free : '\n' ∉ request.text.toList) : Sound (step history request) := by
  cases request with
  | opening base withKey => exact sound.opening free withKey
  | put number path bytes => exact sound.put number path bytes
  | get number path => exact sound.get number path
  | getObject number =>
      rw [step_getObject]
      exact sound.get number ""

theorem Sound.run (sound : Sound history) {requests : List Request}
    (free : ∀ request ∈ requests, '\n' ∉ request.text.toList) :
    Sound (requests.foldl MemoryStore.step history) := by
  induction requests generalizing history with
  | nil => exact sound
  | cons request more ih =>
      rw [List.foldl_cons]
      exact ih (sound.step (free request (List.mem_cons_self ..)))
        fun later member => free later (List.mem_cons_of_mem _ member)

end

/-- Whatever is asked of the memory store, every URL is opened with its first call and every put
succeeds, and a get finds the bytes of the latest put before it whose base and path have the same
segments together, or no object if there is none.  A base and a path with a slash between them have
the segments of both, so that the object of a provider there is what was put at the path under the
base. -/
theorem run_findsLatest {requests : List Request}
    (free : ∀ request ∈ requests, '\n' ∉ request.text.toList) (disk : Disk)
    (workingDirectory : String) :
    let events := (run { disk, workingDirectory } requests).events
    (∀ base withKey result, .opened base withKey result ∈ events → Opens base withKey result) ∧
    (∀ base path bytes result, .put base path bytes result ∈ events → result = .ok ()) ∧
    (∀ before base path result later, events = before ++ .got base path result :: later →
      result = found (latest? (segmentsOf base ++ segmentsOf path) before)) ∧
    ∀ base path, segmentsOf (base ++ "/" ++ path) ++ segmentsOf "" =
      segmentsOf base ++ segmentsOf path := by
  intro events
  have answers : Answers events := ((sound_start disk workingDirectory).run free).answers
  refine ⟨fun _ _ _ => answers.opened, fun _ _ _ _ => answers.put,
    fun _ _ _ _ _ => answers.got, fun base path => ?_⟩
  rw [segmentsOf_append]
  exact List.append_nil _

/-- An escape as text, dots, and segments that are spread in another way. -/
theorem run_findsLatest_escapes :
    let requests := [
      .opening "" false, .opening "%2E//a b" true, .put 0 "%2E/a b/.." [1],
      .put 0 "./a b/.." [2], .put 0 "%2E/a b/..%" [3], .get 1 "/..", .getObject 1]
    (∀ request ∈ requests, '\n' ∉ request.text.toList) ∧
      ∃ before, (run {} requests).events = before ++
        [.got "%2E//a b" "/.." (.ok [1]), .got "%2E//a b" "" (.error (.object true))] := by
  intro requests
  have free : ∀ request ∈ requests, '\n' ∉ request.text.toList := by decide
  obtain ⟨-, -, finds, -⟩ := run_findsLatest free {} "/"
  obtain ⟨first, second, one, two, three, got, none, events⟩ :
      ∃ first second one two three got none, (run {} requests).events =
        [.opened "" false first, .opened "%2E//a b" true second,
          .put "" "%2E/a b/.." [1] one, .put "" "./a b/.." [2] two, .put "" "%2E/a b/..%" [3] three,
          .got "%2E//a b" "/.." got, .got "%2E//a b" "" none] := by
    have root := @ofUrl_base "" (by decide)
    have inner := @ofUrl_base "%2E//a b" (by decide)
    simp only [requests, run, List.foldl_cons, List.foldl_nil, step, root, inner, History.ask]
    exact ⟨_, _, _, _, _, _, _, rfl⟩
  rw [events] at finds ⊢
  obtain rfl := finds [_, _, _, _, _] _ _ _ _ rfl
  obtain rfl := finds [_, _, _, _, _, _] _ _ _ _ rfl
  exact ⟨free, [_, _, _, _, _], rfl⟩

end MemoryStore

end CsvImport

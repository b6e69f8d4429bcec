import CsvImport.Config.Load
import CsvImport.Proofs.Interpolating

/-!
# Origins

Every character of an interpolated text comes from the text itself or from the value of a variable.
Those from the text keep their order, and each is taken at most once.  A value brings neither a line
feed nor a carriage return; the other line breaks of YAML it may bring, and then it may write lines
of its own into a configuration.
-/

namespace CsvImport

/-- Where a character of an interpolated text comes from. -/
inductive Origin where
  /-- It stands in the text itself. -/
  | text
  /-- It stands in the value of the variable. -/
  | value (name : List Char)
deriving DecidableEq

abbrev Trace := List (Char × Origin)

namespace Trace

def chars (trace : Trace) : List Char :=
  trace.map Prod.fst

def inText (trace : Trace) : List Char :=
  chars (trace.filter fun entry => entry.2 = .text)

def mark (origin : Origin) (chars : List Char) : Trace :=
  chars.map fun c => (c, origin)

theorem chars_append (first second : Trace) :
    chars (first ++ second) = chars first ++ chars second :=
  List.map_append

theorem inText_append (first second : Trace) :
    inText (first ++ second) = inText first ++ inText second := by
  rw [inText, List.filter_append, chars_append]
  rfl

theorem mem_mark {origin other : Origin} {text : List Char} {c : Char} :
    (c, other) ∈ mark origin text ↔ c ∈ text ∧ other = origin := by
  unfold mark
  rw [List.mem_map]
  constructor
  · rintro ⟨_, member, ⟨⟩⟩
    exact ⟨member, rfl⟩
  · rintro ⟨member, rfl⟩
    exact ⟨c, member, rfl⟩

theorem chars_mark (origin : Origin) (text : List Char) : chars (mark origin text) = text := by
  unfold chars mark
  rw [List.map_map]
  exact List.map_id text

theorem inText_mark_text (text : List Char) : inText (mark .text text) = text := by
  have all : (mark .text text).filter (fun entry => entry.2 = .text) = mark .text text := by
    refine List.filter_eq_self.mpr fun entry member => ?_
    rw [(mem_mark.mp member).2]
    rfl
  rw [inText, all, chars_mark]

theorem inText_mark_value (name value : List Char) : inText (mark (.value name) value) = [] := by
  have none : (mark (.value name) value).filter (fun entry => entry.2 = .text) = [] := by
    refine List.filter_eq_nil_iff.mpr fun entry member => ?_
    rw [(mem_mark.mp member).2]
    exact Bool.false_ne_true
  rw [inText, none]
  rfl

end Trace

namespace Segment

variable {values : String → Option Bytes} {segment : Segment} {trace : Trace}

/-! ## What a segment is replaced by -/

/-- What a segment is replaced by, and where that comes from. -/
inductive Traces (values : String → Option Bytes) : Segment → Trace → Prop where
  | literal (c : Char) : Traces values (.literal c) (.mark .text [c])
  | dollar : Traces values .dollar (.mark .text ['$'])
  | value {name value : List Char} {fallback : Option Fallback} (set : HasValue values name value)
      (used : value = [] → ∀ text, fallback ≠ some ⟨text, true⟩) :
      Traces values (.reference name fallback) (.mark (.value name) value)
  | ifEmpty {name text : List Char} (set : HasValue values name []) :
      Traces values (.reference name (some ⟨text, true⟩)) (.mark .text text)
  | ifUnset {name : List Char} {fallback : Fallback}
      (unset : ∀ value, ¬HasValue values name value) :
      Traces values (.reference name (some fallback)) (.mark .text fallback.text)

def ownText : Segment → List Char
  | literal c => [c]
  | dollar => ['$']
  | reference _ fallback => fallback.elim [] Fallback.text

/-- The characters of a trace that come from a value stand in a value of one line. -/
def OfLines (values : String → Option Bytes) (trace : Trace) : Prop :=
  ∀ c name, (c, Origin.value name) ∈ trace →
    ∃ value, HasValue values name value ∧ c ∈ value ∧ ¬BreaksLine value

theorem ofLines_text (text : List Char) : OfLines values (.mark .text text) := by
  intro c name member
  cases (Trace.mem_mark.mp member).2

theorem ofLines_value {name value : List Char} (set : HasValue values name value)
    (whole : ¬BreaksLine value) : OfLines values (.mark (.value name) value) := by
  intro c other member
  obtain ⟨inside, ⟨⟩⟩ := Trace.mem_mark.mp member
  exact ⟨value, set, inside, whole⟩

theorem StandsFor.traces {chars : List Char} (stands : StandsFor values segment chars) :
    ∃ trace, Traces values segment trace ∧ trace.chars = chars ∧ OfLines values trace := by
  cases stands with
  | literal c => exact ⟨_, .literal c, Trace.chars_mark .., ofLines_text _⟩
  | dollar => exact ⟨_, .dollar, Trace.chars_mark .., ofLines_text _⟩
  | value set whole used =>
      exact ⟨_, .value set used, Trace.chars_mark .., ofLines_value set whole⟩
  | ifEmpty set => exact ⟨_, .ifEmpty set, Trace.chars_mark .., ofLines_text _⟩
  | ifUnset unset => exact ⟨_, .ifUnset unset, Trace.chars_mark .., ofLines_text _⟩

theorem exists_traces {segments : List Segment} {pieces : List (List Char)}
    (stand : List.Forall₂ (StandsFor values) segments pieces) :
    ∃ traces : List Trace, List.Forall₂ (Traces values) segments traces ∧
      Trace.chars traces.flatten = pieces.flatten ∧ OfLines values traces.flatten := by
  induction stand with
  | nil => exact ⟨[], .nil, rfl, fun c name member => by cases member⟩
  | cons stands more ih =>
      obtain ⟨trace, first, firstChars, firstLines⟩ := stands.traces
      obtain ⟨traces, later, laterChars, laterLines⟩ := ih
      refine ⟨trace :: traces, .cons first later, ?_, fun c name member => ?_⟩
      · rw [List.flatten_cons, List.flatten_cons, Trace.chars_append, firstChars, laterChars]
      · rw [List.flatten_cons, List.mem_append] at member
        exact member.elim (firstLines c name) (laterLines c name)

/-! ## What comes from the text -/

theorem Traces.inText_sublist (traces : Traces values segment trace) :
    trace.inText.Sublist segment.ownText := by
  cases traces with
  | literal c => rw [Trace.inText_mark_text]; exact .refl _
  | dollar => rw [Trace.inText_mark_text]; exact .refl _
  | value set used => rw [Trace.inText_mark_value]; exact List.nil_sublist _
  | ifEmpty set => rw [Trace.inText_mark_text]; exact .refl _
  | ifUnset unset => rw [Trace.inText_mark_text]; exact .refl _

/-- A form holds the characters of its segment that may stand in the result. -/
theorem Form.ownText_sublist {chars behind : List Char} (form : Form chars segment behind) :
    ∃ front, chars = front ++ behind ∧ segment.ownText.Sublist front := by
  -- The fallback stands behind what opens the reference and before the closing brace.
  have between : ∀ opening text : List Char, text.Sublist (opening ++ (text ++ ['\x7d'])) :=
    fun opening text => (List.sublist_append_left ..).trans (List.sublist_append_right ..)
  cases form with
  | dollar => exact ⟨['$', '$'], rfl, by decide⟩
  | @braced name _ isName =>
      exact ⟨'$' :: '\x7b' :: (name ++ ['\x7d']), by simp, List.nil_sublist _⟩
  | @ifUnset name text _ isName inside =>
      exact ⟨'$' :: '\x7b' :: name ++ ['-'] ++ (text ++ ['\x7d']), by simp, between _ text⟩
  | @ifEmpty name text _ isName inside =>
      exact ⟨'$' :: '\x7b' :: name ++ [':', '-'] ++ (text ++ ['\x7d']), by simp, between _ text⟩
  | @bare name _ isName longest => exact ⟨'$' :: name, rfl, List.nil_sublist _⟩

/-- What comes from the text stands there in the same order. -/
theorem Decomposes.inText_sublist {chars : List Char} {segments : List Segment}
    {traces : List Trace} (decomposes : Decomposes chars segments)
    (traced : List.Forall₂ (Traces values) segments traces) :
    (Trace.inText traces.flatten).Sublist chars := by
  induction decomposes generalizing traces with
  | nil =>
      cases traced
      exact List.nil_sublist _
  | form begins later ih =>
      cases traced with
      | cons first more =>
          obtain ⟨front, rfl, own⟩ := begins.ownText_sublist
          rw [List.flatten_cons, Trace.inText_append]
          exact (first.inText_sublist.trans own).append (ih more)
  | literal none later ih =>
      cases traced with
      | cons first more =>
          rw [List.flatten_cons, Trace.inText_append]
          exact first.inText_sublist.append (ih more)

end Segment

/-! ## Line breaks -/

def valueBreaks : List Char :=
  [Yaml.nextLine, Yaml.lineSeparator, Yaml.paragraphSeparator]

/-- A line break in a value of one line is neither a line feed nor a carriage return. -/
theorem mem_valueBreaks {value : List Char} {c : Char} (whole : ¬Segment.BreaksLine value)
    (member : c ∈ value) (isBreak : Yaml.isBreak c = true) : c ∈ valueBreaks := by
  have notFeed : c ≠ '\n' := fun same => whole (.inl (same ▸ member))
  have notReturn : c ≠ '\r' := fun same => whole (.inr (same ▸ member))
  simp only [Yaml.isBreak, Bool.or_eq_true, beq_iff_eq, notFeed, notReturn, false_or] at isBreak
  simpa [valueBreaks, or_assoc] using isBreak

/-- The characters of an interpolated text can be traced: those from the text are some of its
characters, in order, and a line break comes from the text unless it is one of the three that values
may hold, and stands in the value. -/
theorem interpolate_origins {values : String → Option Bytes} {text result : String}
    (ends : interpolate (.ofBytes values) text = .ok result) :
    ∃ segments traces, Segment.Decomposes text.toList segments ∧
      List.Forall₂ (Segment.Traces values) segments traces ∧
      Trace.chars traces.flatten = result.toList ∧
      (Trace.inText traces.flatten).Sublist text.toList ∧
      ∀ c origin, (c, origin) ∈ traces.flatten → Yaml.isBreak c = true →
        origin = .text ∨
          c ∈ valueBreaks ∧ ∃ name value, origin = .value name ∧
            Segment.HasValue values name value ∧ c ∈ value := by
  have decomposes := Segment.decomposes_iff.mpr (Eq.refl (Segment.ofChars text.toList))
  rcases interpolate_cases values text with ⟨fine, same⟩ | ⟨-, same⟩
  · rw [ends] at same
    cases same
    obtain ⟨traces, traced, whole, lines⟩ :=
      Segment.exists_traces (Segment.forall₂_texts fine)
    refine ⟨_, traces, decomposes, traced, ?_, decomposes.inText_sublist traced, ?_⟩
    · rw [whole, String.toList_ofList, List.flatMap_def]
    · intro c origin member isBreak
      cases origin with
      | text => exact .inl rfl
      | value name =>
          obtain ⟨value, set, inside, oneLine⟩ := lines c name member
          exact .inr ⟨mem_valueBreaks oneLine inside isBreak, name, value, rfl, set, inside⟩
  · rw [ends] at same
    cases same

/-- The line feed of a fallback is from the text, also beside a value with a line separator. -/
theorem interpolate_origins_usedFallback :
    let values : String → Option Bytes := fun name =>
      if name = "V" then some (Utf8.encode "v\u2028") else none
    interpolate (.ofBytes values) "$\x7bU-a\nb\x7d$V" = .ok "a\nbv\u2028" ∧
      ∃ traces : List Trace, Trace.chars traces.flatten = "a\nbv\u2028".toList ∧
        ('\n', Origin.text) ∈ traces.flatten := by
  intro values
  have ends : interpolate (.ofBytes values) "$\x7bU-a\nb\x7d$V" = .ok "a\nbv\u2028" := by
    decide +kernel
  obtain ⟨_, traces, -, -, chars, -, breaks⟩ := interpolate_origins ends
  have feed : '\n' ∈ Trace.chars traces.flatten := by
    rw [chars]
    decide
  obtain ⟨⟨_, origin⟩, member, rfl⟩ := List.mem_map.mp feed
  rcases breaks _ origin member rfl with rfl | ⟨inValue, -⟩
  · exact ⟨ends, traces, chars, member⟩
  · exact absurd inValue (by decide)

/-- A value with next line characters writes two lines of its own: the job stops writing to the
path that its text gives, and takes a limit on failures that its text does not give. -/
theorem load_nextLineInValue :
    let value := "o\u0085error_handling:\u0085  max_failures: 1"
    let values : String → Option Bytes := fun name =>
      if name = "V" then some (Utf8.encode value) else none
    let text := "source:\n  paths: [a]\noutput:\n  path: $V\n"
    Yaml.isBreak Yaml.nextLine ∧ Yaml.nextLine ∉ text.toList ∧ Yaml.nextLine ∈ value.toList ∧
      interpolate (.ofBytes values) text =
        .ok ("source:\n  paths: [a]\noutput:\n  path: " ++ value ++ "\n") ∧
      (Config.load none text).toOption =
        some { source := { paths := ["a"] }, output := { path := "$V" } } ∧
      (Config.load (some (.ofBytes values)) text).toOption =
        some {
          source := { paths := ["a"] }
          output := { path := "o" }
          errors := { maxFailures := 1 } } := by
  decide +kernel

end CsvImport

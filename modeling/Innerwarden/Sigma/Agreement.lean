import Innerwarden.Sigma.Scanning

/-!
# Whether a rule means what its condition says

The parser merges the sections whose names begin with `selection` and those whose names begin
with `filter`, and does not look at the condition.  So the test of a rule is that all tests of
all selections pass and not all tests of all filters (`test_iff_reading`).

This is the condition of the rule on events that it neither misses nor takes for an alarm
(`test_iff_holds_iff`).
-/

namespace Innerwarden.Sigma

open Text List
open Pipeline (Event)

/-! ## Merging -/

section Merging

variable {order : Sections → Sections} (horder : ∀ secs, (order secs).Perm secs)
  {m : FieldMatcher} (secs : Sections)

include horder

theorem mem_mergeSections :
    (m ∈ (mergeSections order secs).1 ↔
      ∃ s ∈ secs, startsWith s.1 "selection" = true ∧ m ∈ s.2) ∧
    (m ∈ (mergeSections order secs).2 ↔
      ∃ s ∈ secs, startsWith s.1 "selection" = false ∧ startsWith s.1 "filter" = true ∧
        m ∈ s.2) := by
  simp only [mergeSections]
  split
  next matchers =>
    have hname : startsWith "selection" "selection" = true := by decide
    simp [hname]
  next =>
    simp only [mem_flatMap, (horder secs).mem_iff, mem_ite_nil_left, mem_ite_nil_right,
      Bool.not_eq_true, and_self]

end Merging

/-! ## The test of a rule -/

section Reading

variable (texts : Texts) (yaml : String → String) (event : Event) (d : Detection)

/-- Every test of every selection passes. -/
def Detection.AllSelected : Prop :=
  ∀ sec ∈ d.sections, sec.isSelection = true →
    ∀ m ∈ fieldTests sec.fields, matchesField texts event m = true

/-- The filters have a test, and every test of every filter passes. -/
def Detection.AllFiltered : Prop :=
  (∃ sec ∈ d.sections, sec.isSelection = false ∧ fieldTests sec.fields ≠ []) ∧
    ∀ sec ∈ d.sections, sec.isSelection = false →
      ∀ m ∈ fieldTests sec.fields, matchesField texts event m = true

/-- The condition is true, but some test of a selection fails or all those of the filters
pass. -/
def Detection.Misses : Prop :=
  d.Holds texts yaml event ∧ (¬ d.AllSelected texts event ∨ d.AllFiltered texts event)

/-- The condition is false, but all tests of the selections pass and not all of the filters. -/
def Detection.RaisesFalseAlarm : Prop :=
  ¬ d.Holds texts yaml event ∧ d.AllSelected texts event ∧ ¬ d.AllFiltered texts event

end Reading

section Test

variable {order : Sections → Sections} {text : String} {rule : SigmaRule} {d : Detection}

theorem parseSigmaYaml_sections (h : parseSigmaYaml order text = some rule) :
    mergeSections order ((lines text).foldl scanLine {}).sections =
      (rule.selection, rule.filter) := by
  simp only [parseSigmaYaml] at h
  split at h
  · cases h
  · cases h
    rfl

section Fields

variable (horder : ∀ secs, (order secs).Perm secs) (hwrites : WritesRule text d)
  (hparse : parseSigmaYaml order text = some rule) {m : FieldMatcher}

include horder hwrites hparse

theorem mem_selection_iff :
    m ∈ rule.selection ↔
      ∃ sec ∈ d.sections, sec.isSelection = true ∧ m ∈ fieldTests sec.fields := by
  have hmerge := (mem_mergeSections horder ((lines text).foldl scanLine {}).sections (m := m)).1
  rw [parseSigmaYaml_sections hparse, hwrites.sections] at hmerge
  simpa [Section.entry, Section.isSelection] using hmerge

theorem mem_filter_iff :
    m ∈ rule.filter ↔ ∃ sec ∈ d.sections, sec.isSelection = false ∧ m ∈ fieldTests sec.fields := by
  have hmerge := (mem_mergeSections horder ((lines text).foldl scanLine {}).sections (m := m)).2
  rw [parseSigmaYaml_sections hparse, hwrites.sections] at hmerge
  rw [hmerge]
  constructor
  · rintro ⟨s, hs, hnot, -, hm⟩
    obtain ⟨sec, hsec, rfl⟩ := mem_map.1 hs
    exact ⟨sec, hsec, hnot, hm⟩
  · rintro ⟨sec, hsec, hnot, hm⟩
    have hfilter : startsWith sec.name "filter" = true :=
      sec.isSectionName.kind.resolve_left (by rw [← Section.isSelection, hnot]; decide)
    exact ⟨sec.entry, mem_map_of_mem hsec, hnot, hfilter, hm⟩

/-- The test of a rule reads all selections and all filters, whatever the condition is. -/
theorem test_iff_reading (texts : Texts) (event : Event) :
    rule.test texts event = true ↔ d.AllSelected texts event ∧ ¬ d.AllFiltered texts event := by
  have hselected : (∀ m ∈ rule.selection, matchesField texts event m = true) ↔
      d.AllSelected texts event := by
    simp only [mem_selection_iff horder hwrites hparse, Detection.AllSelected]
    grind
  have hnone : rule.filter = [] ↔
      ∀ sec ∈ d.sections, sec.isSelection = false → fieldTests sec.fields = [] := by
    simp only [eq_nil_iff_forall_not_mem, mem_filter_iff horder hwrites hparse]
    grind
  have hfiltered : (rule.filter ≠ [] ∧ ∀ m ∈ rule.filter, matchesField texts event m = true) ↔
      d.AllFiltered texts event := by
    rw [ne_eq, hnone]
    simp only [mem_filter_iff horder hwrites hparse, Detection.AllFiltered]
    grind
  rw [← hselected, ← hfiltered]
  simp [SigmaRule.test, Classical.or_iff_not_imp_left]

end Fields

/-- The test of a rule is its condition on the events that it neither misses nor takes for an
alarm. -/
theorem test_iff_holds_iff (horder : ∀ secs, (order secs).Perm secs) (hwrites : WritesRule text d)
    (hparse : parseSigmaYaml order text = some rule) (texts : Texts) (yaml : String → String)
    (event : Event) :
    (rule.test texts event = true ↔ d.Holds texts yaml event) ↔
      ¬ d.Misses texts yaml event ∧ ¬ d.RaisesFalseAlarm texts yaml event := by
  rw [test_iff_reading horder hwrites hparse texts event, Detection.Misses,
    Detection.RaisesFalseAlarm]
  tauto

end Test

/-! ## One of two selections -/

def inlineField (key raw : String) (hkey : IsFieldKey key) (hraw : IsScalar raw) : Field where
  key := key
  modifier := .none
  inline := some raw
  listed := []
  isFieldKey := hkey
  isScalar := by simpa using hraw
  hasValue := by simp

theorem isFieldKey_kind : IsFieldKey "kind" :=
  ⟨by decide, by decide, by decide, by decide, by decide, by decide, by decide, by decide,
    by decide⟩

/-- A block that asks for one of two selections. -/
def oneOfTwo : Detection where
  before :=
    [⟨"selection1", [inlineField "kind" "exec" isFieldKey_kind ⟨by decide, by decide⟩],
      by decide, by decide, by decide, by decide⟩,
     ⟨"selection2", [inlineField "kind" "open" isFieldKey_kind ⟨by decide, by decide⟩],
      by decide, by decide, by decide, by decide⟩]
  condition := .oneOfSelections
  after := []
  nodup := by decide
  named := by decide

def oneOfTwoLines : List String :=
  ["title: T", "id: r", "detection:", "  selection1:",
   "    kind: exec", "  selection2:", "    kind: open",
   "  condition: 1 of selection*"]

theorem writesRule_oneOfTwo : WritesRule (joinLines oneOfTwoLines) oneOfTwo where
  exists_parts := by
    refine ⟨oneOfTwoLines.take 2, "detection:", oneOfTwoLines.drop 3, [],
      lines_joinLines (by decide +kernel), by decide +kernel, by decide +kernel, by decide +kernel,
      ?_, by decide⟩
    have hsig : (oneOfTwoLines.drop 3).filter isSignificant = oneOfTwoLines.drop 3 := by
      decide +kernel
    rw [hsig]
    refine .cons ?_ (.cons ?_ (.cons ?_ (.cons ?_ (.cons ?_ .nil))))
    · exact ⟨by decide +kernel, by decide +kernel, by decide +kernel⟩
    · exact ⟨⟨" ", by decide, by decide +kernel⟩, by decide +kernel⟩
    · exact ⟨by decide +kernel, by decide +kernel, by decide +kernel⟩
    · exact ⟨⟨" ", by decide, by decide +kernel⟩, by decide +kernel⟩
    · exact ⟨⟨" ", by decide, by decide +kernel⟩, by decide +kernel⟩

def oneOfTwoRule : SigmaRule where
  id := "r"
  title := "T"
  level := .medium
  selection :=
    [⟨"kind", .equals, ["exec"]⟩, ⟨"kind", .equals, ["open"]⟩]
  filter := []
  tags := []

theorem parseSigmaYaml_oneOfTwo :
    parseSigmaYaml id (joinLines oneOfTwoLines) = some oneOfTwoRule := by
  simp only [parseSigmaYaml, lines_joinLines (show ∀ l ∈ oneOfTwoLines, IsLine l by decide +kernel)]
  decide +kernel

def commandEvent : Event where
  ts := 0
  host := "host"
  source := "ebpf"
  kind := "exec"
  severity := .info
  summary := ""
  details := .null
  tags := []
  entities := []

def asciiTexts : Texts where
  toLowercase s := String.ofList (s.toList.map toAsciiLower)
  jsonText _ := ""

theorem test_oneOfTwo_iff :
    (oneOfTwoRule.test asciiTexts commandEvent = true ↔
        oneOfTwo.Holds asciiTexts id commandEvent) ↔
      ¬ oneOfTwo.Misses asciiTexts id commandEvent ∧
        ¬ oneOfTwo.RaisesFalseAlarm asciiTexts id commandEvent :=
  test_iff_holds_iff (fun _ => .refl _) writesRule_oneOfTwo parseSigmaYaml_oneOfTwo asciiTexts id
    commandEvent

/-- The rule asks for one of two selections, and the event has the first of them. -/
theorem one_of_selections_missed :
    WritesRule (joinLines oneOfTwoLines) oneOfTwo ∧
      parseSigmaYaml id (joinLines oneOfTwoLines) = some oneOfTwoRule ∧
      isSkipped commandEvent = false ∧
      oneOfTwo.Holds asciiTexts id commandEvent ∧
      oneOfTwoRule.test asciiTexts commandEvent = false := by
  refine ⟨writesRule_oneOfTwo, parseSigmaYaml_oneOfTwo, by decide, ?_, by decide⟩
  refine ⟨_, mem_cons_self, by decide, ?_⟩
  rintro f hf
  rw [mem_singleton.1 hf]
  exact ⟨_, mem_cons_self, by decide⟩

end Innerwarden.Sigma

import Innerwarden.Correlation.Engine
import Innerwarden.Pipeline.Loader

/-!
# Loading the rules of the correlation engine

`load_rules_dir` of `crates/agent/src/correlation_engine_yaml/mod.rs`.  The built-in file is
parsed first and then the files of the directory in the order of their names.  The rules go
into a hash map by id, and are returned sorted by id.

A file on disk is skipped if it cannot be read, does not parse, or has an enabled rule with an
unknown severity or layer.  If the built-in file is such a file, or the directory cannot be
read, the loader returns the error.

The parser of `serde_yaml` and the text of a string in an error are parameters.  `definitions`
lists the rules of the accepted files.
-/

namespace Innerwarden.Correlation

open Override List
open Pipeline (Lists DirEntry ruleFiles)

/-! ## Files -/

/-- A stage as it is written. -/
structure RawStage where
  layer : Option String := none
  kindPatterns : List String
  entityMustMatch : Bool
deriving DecidableEq

/-- A rule as it is written. -/
structure RawRule where
  id : String
  name : String
  severity : String
  windowSecs : UInt64
  minConfidence : UInt32
  stages : List RawStage
  disabled : Bool := false
deriving DecidableEq

/-- A rule file, parsed. -/
structure RuleFile where
  version : UInt32
  lists : Lists := []
  rules : List RawRule := []

/-- What the loader takes from elsewhere. -/
structure LoaderCrates where
  /-- `serde_yaml::from_str::<RuleFile>`. -/
  parseRuleFile : String → Except String RuleFile
  /-- `{:?}` of a string. -/
  debugStr : String → String

def toAsciiLowercase (s : String) : String := String.ofList (s.toList.map Char.toLower)

def parseSeverity (s : String) : Option Severity :=
  match toAsciiLowercase s with
  | "critical" => some .critical
  | "high" => some .high
  | "medium" => some .medium
  | "low" => some .low
  | "info" => some .info
  | "debug" => some .debug
  | _ => none

def parseLayer (s : String) : Option Layer :=
  match toAsciiLowercase s with
  | "firmware" => some .firmware
  | "hypervisor" => some .hypervisor
  | "kernel" => some .kernel
  | "userspace" => some .userspace
  | "network" => some .network
  | "honeypot" => some .honeypot
  | _ => none

/-- `expand_list_refs`, which does what that of the pipeline does. -/
def expandListRefs (lists : Lists) (patterns : List String) : List String :=
  Pipeline.expandListRefs lists patterns

section Loader

variable (crates : LoaderCrates)

/-- The stages of a rule, up to the first with an unknown layer. -/
def compileStages (source ruleId : String) (lists : Lists) :
    List RawStage → Except String (List RuleStage)
  | [] => .ok []
  | s :: stages => do
      let layer ← match s.layer with
        | none => .ok none
        | some l =>
          match parseLayer l with
          | some layer => .ok (some layer)
          | none => .error (source ++ ": rule " ++ ruleId ++ " unknown layer " ++
              crates.debugStr l)
      let stages ← compileStages source ruleId lists stages
      return ⟨layer, expandListRefs lists s.kindPatterns, s.entityMustMatch⟩ :: stages

/-- A rule that is not disabled. -/
def compileRule (source : String) (lists : Lists) (raw : RawRule) :
    Except String CorrelationRule :=
  match parseSeverity raw.severity with
  | none => .error (source ++ ": rule " ++ raw.id ++ " unknown severity " ++
      crates.debugStr raw.severity)
  | some severity => do
      let stages ← compileStages crates source raw.id lists raw.stages
      return ⟨raw.id, raw.name, stages, raw.windowSecs, raw.minConfidence, severity⟩

/-- The loop over the rules of a file. -/
def compileRules (source : String) (lists : Lists) :
    List RawRule → Except String (List CorrelationRule)
  | [] => .ok []
  | raw :: rules =>
    if raw.disabled then compileRules source lists rules
    else
      match compileRule crates source lists raw with
      | .error e => .error e
      | .ok rule => (compileRules source lists rules).map (rule :: ·)

/-- What is taken from a file. -/
structure ParsedFile where
  rules : List CorrelationRule
  lists : Lists

/-- `parse_file`.  A list that is already known keeps its values. -/
def parseFile (yaml source : String) (externalLists : Lists) : Except String ParsedFile :=
  match crates.parseRuleFile yaml with
  | .error e => .error (source ++ ": YAML parse error: " ++ e)
  | .ok rf =>
    (compileRules crates source (externalLists ++ rf.lists) rf.rules).map (⟨·, rf.lists⟩)

/-! ## The directory -/

/-- What the loader has loaded so far. -/
structure RuleTable where
  byId : List CorrelationRule := []
  globalLists : Lists := []

def RuleTable.add (table : RuleTable) (parsed : ParsedFile) : RuleTable where
  byId := parsed.rules.foldl (insertBy CorrelationRule.id) table.byId
  globalLists := table.globalLists ++ parsed.lists

def loadFile (table : RuleTable) (entry : DirEntry) : RuleTable :=
  match entry.content with
  | .error _ => table
  | .ok yaml =>
    match parseFile crates yaml entry.name table.globalLists with
    | .ok parsed => table.add parsed
    | .error _ => table

/-- What the rules are loaded from: the built-in file, the path of the rules directory, and
what reading it gives if it is a directory. -/
structure RuleSources where
  builtinYaml : String
  path : String
  dir : Option (Except String (List DirEntry))

/-- The table when everything has been loaded. -/
def loadTable (sources : RuleSources) : Except String RuleTable :=
  match parseFile crates sources.builtinYaml "00-builtin.yml" [] with
  | .error e => .error e
  | .ok builtin =>
    let table := RuleTable.add {} builtin
    match sources.dir with
    | none => .ok table
    | some (.error e) => .error ("read_dir " ++ sources.path ++ ": " ++ e)
    | some (.ok entries) => .ok ((ruleFiles entries).foldl (loadFile crates) table)

/-- `load_rules_dir`.  `order` is the order in which the hash map yields its values. -/
def loadRulesDir (sources : RuleSources) (order : List CorrelationRule → List CorrelationRule) :
    Except String (List CorrelationRule) :=
  (loadTable crates sources).map fun table =>
    (order table.byId).insertionSort fun a b => a.id ≤ b.id

/-! ## Definitions -/

/-- A rule of a file, with the name of the file and the lists known there. -/
structure Definition where
  source : String
  lists : Lists
  raw : RawRule
deriving DecidableEq

/-- The rule a definition describes, if it is well formed. -/
def Definition.compiled (d : Definition) : Option CorrelationRule :=
  (compileRule crates d.source d.lists d.raw).toOption

def Definition.rule (d : Definition) : Option CorrelationRule :=
  if d.raw.disabled then none else d.compiled crates

def acceptFile (source yaml : String) (lists : Lists) : Option RuleFile :=
  (crates.parseRuleFile yaml).toOption.filter fun rf =>
    (compileRules crates source (lists ++ rf.lists) rf.rules).isOk

/-- The definitions of some files, each with its name and its text. -/
def definitions : Lists → List (String × String) → List Definition
  | _, [] => []
  | lists, file :: files =>
    match acceptFile crates file.1 file.2 lists with
    | none => definitions lists files
    | some rf =>
      rf.rules.map (⟨file.1, lists ++ rf.lists, ·⟩) ++ definitions (lists ++ rf.lists) files

def listsAfter : Lists → List (String × String) → Lists
  | lists, [] => lists
  | lists, file :: files =>
    match acceptFile crates file.1 file.2 lists with
    | none => listsAfter lists files
    | some rf => listsAfter (lists ++ rf.lists) files

def namedTexts (entries : List DirEntry) : List (String × String) :=
  (ruleFiles entries).filterMap fun e => e.content.toOption.map fun text => (e.name, text)

def RuleSources.builtinFiles (sources : RuleSources) : List (String × String) :=
  [("00-builtin.yml", sources.builtinYaml)]

def RuleSources.diskFiles (sources : RuleSources) : List (String × String) :=
  match sources.dir with
  | some (.ok entries) => namedTexts entries
  | _ => []

def RuleSources.builtinDefinitions (sources : RuleSources) : List Definition :=
  definitions crates [] sources.builtinFiles

def RuleSources.diskDefinitions (sources : RuleSources) : List Definition :=
  definitions crates (listsAfter crates [] sources.builtinFiles) sources.diskFiles

/-- All definitions, in order. -/
def RuleSources.allDefinitions (sources : RuleSources) : List Definition :=
  sources.builtinDefinitions crates ++ sources.diskDefinitions crates

/-! ## What is loaded -/

variable {crates}

variable {source : String} {lists : Lists}

theorem compileRule_id {raw : RawRule} {rule : CorrelationRule}
    (h : compileRule crates source lists raw = .ok rule) : rule.id = raw.id := by
  unfold compileRule at h
  split at h
  · nomatch h
  · cases hstages : compileStages crates source raw.id lists raw.stages with
    | error e => rw [hstages] at h; nomatch h
    | ok stages => rw [hstages] at h; cases h; rfl

/-- The loop gives the rules its definitions stand for, unless one of them stops it. -/
theorem compileRules_ok {raws : List RawRule} {rules : List CorrelationRule}
    (h : compileRules crates source lists raws = .ok rules) :
    rules = (raws.map (⟨source, lists, ·⟩)).filterMap (Definition.rule crates) := by
  induction raws generalizing rules with
  | nil => cases h; rfl
  | cons raw raws ih =>
    rw [compileRules] at h
    rw [map_cons, filterMap_cons, Definition.rule, Definition.compiled]
    cases hdisabled : raw.disabled with
    | true =>
      rw [if_pos hdisabled] at h
      simpa [hdisabled] using ih h
    | false =>
      rw [if_neg (by simp [hdisabled])] at h
      cases hrule : compileRule crates source lists raw with
      | error e => rw [hrule] at h; nomatch h
      | ok rule =>
        rw [hrule] at h
        cases hrules : compileRules crates source lists raws with
        | error e => rw [hrules] at h; nomatch h
        | ok rest =>
          rw [hrules] at h
          cases h
          simp [Except.toOption, ← ih hrules]

theorem parseFile_of_accept {yaml : String} {rf : RuleFile}
    (h : acceptFile crates source yaml lists = some rf) :
    parseFile crates yaml source lists =
      .ok ⟨(rf.rules.map (⟨source, lists ++ rf.lists, ·⟩)).filterMap (Definition.rule crates),
        rf.lists⟩ := by
  unfold acceptFile at h
  unfold parseFile
  cases hparse : crates.parseRuleFile yaml with
  | error e => rw [hparse] at h; nomatch h
  | ok file =>
    rw [hparse] at h
    obtain ⟨hfile, hok⟩ := Option.filter_eq_some_iff.mp h
    cases hfile
    cases hrules : compileRules crates source (lists ++ rf.lists) rf.rules with
    | error e => rw [hrules] at hok; nomatch hok
    | ok rules =>
      rw [← compileRules_ok hrules]
      simp [hrules, Except.map]

theorem parseFile_of_not_accept {yaml : String} (h : acceptFile crates source yaml lists = none) :
    ∃ e, parseFile crates yaml source lists = .error e := by
  unfold acceptFile at h
  unfold parseFile
  cases hparse : crates.parseRuleFile yaml with
  | error e => exact ⟨_, rfl⟩
  | ok file =>
    rw [hparse] at h
    cases hrules : compileRules crates source (lists ++ file.lists) file.rules with
    | error e => exact ⟨e, by simp [hrules, Except.map]⟩
    | ok rules => simp [Except.toOption, hrules, Except.isOk, Except.toBool] at h

theorem foldl_loadFile (entries : List DirEntry) (table : RuleTable) :
    (entries.foldl (loadFile crates) table).byId =
      ((definitions crates table.globalLists
        (entries.filterMap fun e => e.content.toOption.map fun text => (e.name, text))).filterMap
          (Definition.rule crates)).foldl (insertBy CorrelationRule.id) table.byId := by
  induction entries generalizing table with
  | nil => rfl
  | cons entry entries ih =>
    rw [foldl_cons, ih, loadFile]
    cases hcontent : entry.content with
    | error e => simp [hcontent, Except.toOption]
    | ok yaml =>
      rw [filterMap_cons_some (by rw [hcontent]; rfl), definitions]
      cases haccept : acceptFile crates entry.name yaml table.globalLists with
      | none =>
        obtain ⟨e, he⟩ := parseFile_of_not_accept haccept
        simp [he]
      | some rf =>
        have hparsed := parseFile_of_accept haccept
        simp [hparsed, RuleTable.add, filterMap_append, foldl_append]

/-- The table holds the last rule of each id. -/
theorem loadTable_byId {sources : RuleSources} {table : RuleTable}
    (h : loadTable crates sources = .ok table) :
    table.byId = mergeBy CorrelationRule.id
      ((sources.allDefinitions crates).filterMap (Definition.rule crates)) := by
  unfold loadTable at h
  cases haccept : acceptFile crates "00-builtin.yml" sources.builtinYaml [] with
  | none =>
    obtain ⟨e, he⟩ := parseFile_of_not_accept haccept
    rw [he] at h
    cases h
  | some rf =>
    rw [parseFile_of_accept haccept] at h
    unfold RuleSources.allDefinitions RuleSources.builtinDefinitions
      RuleSources.diskDefinitions RuleSources.builtinFiles RuleSources.diskFiles mergeBy
    simp only [definitions, listsAfter, haccept, append_nil, filterMap_append,
      foldl_append]
    cases hdir : sources.dir with
    | none =>
      rw [hdir] at h
      cases h
      rfl
    | some read =>
      rw [hdir] at h
      cases read with
      | error e => cases h
      | ok entries =>
        cases h
        exact foldl_loadFile _ _

theorem loadRulesDir_perm {sources : RuleSources}
    {order : List CorrelationRule → List CorrelationRule} {rules : List CorrelationRule}
    (horder : ∀ rules, (order rules).Perm rules)
    (h : loadRulesDir crates sources order = .ok rules) :
    rules.Perm (mergeBy CorrelationRule.id
      ((sources.allDefinitions crates).filterMap (Definition.rule crates))) := by
  unfold loadRulesDir at h
  cases htable : loadTable crates sources with
  | error e => rw [htable] at h; cases h
  | ok table =>
    rw [htable] at h
    cases h
    rw [← loadTable_byId htable]
    exact (perm_insertionSort _ _).trans (horder _)

end Loader

end Innerwarden.Correlation

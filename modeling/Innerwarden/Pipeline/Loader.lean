import Innerwarden.Lib.Override
import Innerwarden.Pipeline.Rules

/-!
# Loading the rules of the pipeline

`EventPipeline::reload`.  The built-in packs are loaded first and then the files of the
directory in the order of their names.  Event rules go into a hash map by id, whose order is an
argument, and are sorted by priority.  A file that cannot be read, does not parse or has another
version is skipped, and so is a rule that does not compile.  The values of rules that suppress
incidents are added to a set for each detector, which is here the list of what was added.

`definitions` lists the rules of the accepted files, with the lists they refer to put in.
`reload_rules_perm` and `reload_suppressions` say what `reload` makes of them.
-/

namespace Innerwarden.Pipeline

open Text Override List

/-! ## The rules directory -/

/-- An entry of a directory, and what reading it gives. -/
structure DirEntry where
  name : String
  isFile : Bool
  content : Except String String

def ruleFiles (entries : List DirEntry) : List DirEntry :=
  (entries.filter fun e =>
    (endsWith e.name ".yml" || endsWith e.name ".yaml") && e.isFile).insertionSort
      fun a b => a.name ≤ b.name

def ruleTexts (entries : List DirEntry) : List String :=
  (ruleFiles entries).filterMap fun e => e.content.toOption

section Loader

variable (crates : PipelineCrates) (today : String)

/-! ## Files -/

/-- What the files have given so far. -/
structure LoadedRules where
  eventRules : List CompiledRule := []
  suppressions : List (String × List String) := []
  lists : Lists := []

/-- One turn of the loop over the rules of a file. -/
def loadRule (lists : Lists) (loaded : LoadedRules) (raw : RawRule) : LoadedRules :=
  if raw.disabled then loaded
  else if raw.expiresAt.any (· ≤ today) then loaded
  else
    let raw := expandAllListRefs lists raw
    match raw.action with
    | .suppressIncident =>
      match validateSuppressRule raw with
      | .ok s => { loaded with suppressions := loaded.suppressions ++ [s] }
      | .error _ => loaded
    | .suppressResponse => loaded
    | _ =>
      match compileRule crates raw with
      | .ok rule => { loaded with eventRules := loaded.eventRules ++ [rule] }
      | .error _ => loaded

/-- `load_rules_from_yaml`.  A list that is already known keeps its values. -/
def loadRulesFromYaml (yaml sourceName : String) (globalLists : Lists) :
    Except String LoadedRules :=
  match crates.parseRuleFile yaml with
  | .error e => .error (sourceName ++ ": YAML parse error: " ++ e)
  | .ok rf =>
    if rf.version ≠ 1 then
      .error (sourceName ++ ": unsupported schema version " ++ toString rf.version ++
        " (expected 1)")
    else
      let loaded := rf.rules.foldl (loadRule crates today (globalLists ++ rf.lists)) {}
      .ok { loaded with lists := rf.lists }

/-- One turn of the loop of `load_rules_from_dir`, with the lists known so far. -/
def loadFile (acc : LoadedRules × Lists) (entry : DirEntry) : LoadedRules × Lists :=
  match entry.content with
  | .error _ => acc
  | .ok yaml =>
    match loadRulesFromYaml crates today yaml entry.name acc.2 with
    | .error _ => acc
    | .ok loaded =>
      ({ acc.1 with
          eventRules := acc.1.eventRules ++ loaded.eventRules
          suppressions := acc.1.suppressions ++ loaded.suppressions },
        acc.2 ++ loaded.lists)

/-- `load_rules_from_dir`, when the directory can be read. -/
def loadRulesFromDir (entries : List DirEntry) (globalLists : Lists) : LoadedRules :=
  ((ruleFiles entries).foldl (loadFile crates today) ({}, globalLists)).1

/-! ## Reloading -/

/-- What `reload` has loaded so far. -/
structure RuleTable where
  rulesById : List CompiledRule := []
  suppressions : List (String × List String) := []
  globalLists : Lists := []

def RuleTable.add (table : RuleTable) (loaded : LoadedRules) : RuleTable :=
  { table with
    rulesById := loaded.eventRules.foldl (insertBy CompiledRule.id) table.rulesById
    suppressions := table.suppressions ++ loaded.suppressions }

/-- One turn of the loop over the built-in packs. -/
def loadPack (table : RuleTable) (pack : String × String) : RuleTable :=
  match loadRulesFromYaml crates today pack.2 pack.1 table.globalLists with
  | .ok loaded => { table.add loaded with globalLists := table.globalLists ++ loaded.lists }
  | .error _ => table

/-- The files a pipeline is loaded from: the built-in packs, and the entries of the rules
directory if it can be read. -/
structure RuleSources where
  builtinPacks : List (String × String)
  dir : Option (List DirEntry)

def loadTable (sources : RuleSources) : RuleTable :=
  let table := sources.builtinPacks.foldl (loadPack crates today) {}
  match sources.dir with
  | none => table
  | some entries => table.add (loadRulesFromDir crates today entries table.globalLists)

/-- `reload`: the rules and the suppressions.  `order` is the order in which the hash map of
the rules yields its values. -/
def reload (sources : RuleSources) (order : List CompiledRule → List CompiledRule) :
    List CompiledRule × List (String × List String) :=
  let table := loadTable crates today sources
  ((order table.rulesById).insertionSort fun a b => b.priority ≤ a.priority, table.suppressions)

/-! ## Definitions -/

def RawRule.isOn (raw : RawRule) : Bool := !raw.disabled && !raw.expiresAt.any (· ≤ today)

def RawRule.eventRule (raw : RawRule) : Option CompiledRule :=
  if raw.isOn today then (compileRule crates raw).toOption else none

def RawRule.suppression (raw : RawRule) : Option (String × List String) :=
  if raw.isOn today && raw.action = .suppressIncident then (validateSuppressRule raw).toOption
  else none

def acceptFile (yaml : String) : Option RuleFile :=
  (crates.parseRuleFile yaml).toOption.filter (·.version = 1)

/-- The definitions of some files, with their lists put in. -/
def definitions : Lists → List String → List RawRule
  | _, [] => []
  | lists, yaml :: texts =>
    match acceptFile crates yaml with
    | none => definitions lists texts
    | some rf =>
      rf.rules.map (expandAllListRefs (lists ++ rf.lists)) ++
        definitions (lists ++ rf.lists) texts

def listsAfter : Lists → List String → Lists
  | lists, [] => lists
  | lists, yaml :: texts =>
    match acceptFile crates yaml with
    | none => listsAfter lists texts
    | some rf => listsAfter (lists ++ rf.lists) texts

def RuleSources.builtinTexts (sources : RuleSources) : List String :=
  sources.builtinPacks.map Prod.snd

def RuleSources.diskTexts (sources : RuleSources) : List String :=
  (sources.dir.map ruleTexts).getD []

def RuleSources.builtinDefinitions (sources : RuleSources) : List RawRule :=
  definitions crates [] sources.builtinTexts

def RuleSources.diskDefinitions (sources : RuleSources) : List RawRule :=
  definitions crates (listsAfter crates [] sources.builtinTexts) sources.diskTexts

/-- All definitions, in order. -/
def RuleSources.allDefinitions (sources : RuleSources) : List RawRule :=
  sources.builtinDefinitions crates ++ sources.diskDefinitions crates

/-! ## What is loaded -/

variable {crates today}

theorem compileRule_suppress {raw : RawRule}
    (h : raw.action = .suppressIncident ∨ raw.action = .suppressResponse) :
    (compileRule crates raw).toOption = none := by
  cases hrule : compileRule crates raw with
  | error e => rfl
  | ok rule =>
    obtain ⟨_, action, _, _, _, _, haction, _⟩ := compileRule_eq_ok hrule
    unfold compileAction at haction
    split at haction
    · nomatch haction
    · rcases h with h | h <;> rw [h] at haction <;> nomatch haction

theorem eventRule_eq_some {raw : RawRule} {rule : CompiledRule}
    (h : raw.eventRule crates today = some rule) : compileRule crates raw = .ok rule := by
  unfold RawRule.eventRule at h
  split at h
  · cases hrule : compileRule crates raw with
    | error e => rw [hrule] at h; cases h
    | ok rule' => rw [hrule] at h; cases h; rfl
  · cases h

/-- A turn of the loop adds what the definition stands for. -/
theorem loadRule_eq (lists : Lists) (loaded : LoadedRules) (raw : RawRule) :
    loadRule crates today lists loaded raw =
      { loaded with
        eventRules := loaded.eventRules ++
          ((expandAllListRefs lists raw).eventRule crates today).toList
        suppressions := loaded.suppressions ++
          ((expandAllListRefs lists raw).suppression today).toList } := by
  have hon : (expandAllListRefs lists raw).isOn today = raw.isOn today := rfl
  unfold loadRule RawRule.eventRule RawRule.suppression
  rw [hon, RawRule.isOn]
  cases hdisabled : raw.disabled with
  | true => simp
  | false =>
    cases hexpired : raw.expiresAt.any (· ≤ today) with
    | true => simp
    | false =>
      cases haction : (expandAllListRefs lists raw).action with
      | suppressIncident =>
        rw [compileRule_suppress (.inl haction)]
        cases hs : validateSuppressRule (expandAllListRefs lists raw) <;>
          simp [haction, hs, Except.toOption]
      | suppressResponse =>
        rw [compileRule_suppress (.inr haction)]
        simp [haction]
      | _ =>
        cases hr : compileRule crates (expandAllListRefs lists raw) <;>
          simp [haction, hr, Except.toOption]

theorem foldl_loadRule (lists : Lists) (rules : List RawRule) (loaded : LoadedRules) :
    rules.foldl (loadRule crates today lists) loaded =
      { loaded with
        eventRules := loaded.eventRules ++
          (rules.map (expandAllListRefs lists)).filterMap (RawRule.eventRule crates today)
        suppressions := loaded.suppressions ++
          (rules.map (expandAllListRefs lists)).filterMap (RawRule.suppression today) } := by
  induction rules generalizing loaded with
  | nil => simp
  | cons raw rules ih =>
    rw [foldl_cons, ih, loadRule_eq]
    simp only [map_cons, filterMap_cons, append_assoc]
    cases (expandAllListRefs lists raw).eventRule crates today <;>
      cases (expandAllListRefs lists raw).suppression today <;> rfl

theorem loadRulesFromYaml_of_accept {yaml sourceName : String} {lists : Lists} {rf : RuleFile}
    (h : acceptFile crates yaml = some rf) :
    loadRulesFromYaml crates today yaml sourceName lists =
      .ok ⟨(rf.rules.map (expandAllListRefs (lists ++ rf.lists))).filterMap
          (RawRule.eventRule crates today),
        (rf.rules.map (expandAllListRefs (lists ++ rf.lists))).filterMap
          (RawRule.suppression today), rf.lists⟩ := by
  unfold acceptFile at h
  unfold loadRulesFromYaml
  cases hparse : crates.parseRuleFile yaml with
  | error e => rw [hparse] at h; nomatch h
  | ok file =>
    rw [hparse] at h
    obtain ⟨hfile, hversion⟩ := Option.filter_eq_some_iff.mp h
    cases hfile
    simp only [decide_eq_true_eq] at hversion
    simp [hversion, foldl_loadRule]

theorem loadRulesFromYaml_of_not_accept {yaml sourceName : String} {lists : Lists}
    (h : acceptFile crates yaml = none) :
    ∃ e, loadRulesFromYaml crates today yaml sourceName lists = .error e := by
  unfold acceptFile at h
  unfold loadRulesFromYaml
  cases hparse : crates.parseRuleFile yaml with
  | error e => exact ⟨_, rfl⟩
  | ok file =>
    rw [hparse] at h
    have hversion : file.version ≠ 1 := by simpa [Except.toOption] using h
    exact ⟨_, if_pos hversion⟩

/-- The loop over the built-in packs. -/
theorem foldl_loadPack (packs : List (String × String)) (table : RuleTable) :
    packs.foldl (loadPack crates today) table =
      { rulesById := ((definitions crates table.globalLists (packs.map Prod.snd)).filterMap
          (RawRule.eventRule crates today)).foldl (insertBy CompiledRule.id) table.rulesById
        suppressions := table.suppressions ++
          (definitions crates table.globalLists (packs.map Prod.snd)).filterMap
            (RawRule.suppression today)
        globalLists := listsAfter crates table.globalLists (packs.map Prod.snd) } := by
  induction packs generalizing table with
  | nil => simp [definitions, listsAfter]
  | cons pack packs ih =>
    rw [foldl_cons, ih, map_cons, definitions, listsAfter, loadPack]
    cases haccept : acceptFile crates pack.2 with
    | none =>
      obtain ⟨e, he⟩ : ∃ e, loadRulesFromYaml crates today pack.2 pack.1 table.globalLists =
        .error e := loadRulesFromYaml_of_not_accept haccept
      rw [he]
    | some rf =>
      rw [loadRulesFromYaml_of_accept haccept]
      simp [RuleTable.add, filterMap_append, foldl_append]

/-- The loop over the files of the directory. -/
theorem foldl_loadFile (entries : List DirEntry) (acc : LoadedRules × Lists) :
    (entries.foldl (loadFile crates today) acc).1 =
      { acc.1 with
        eventRules := acc.1.eventRules ++
          (definitions crates acc.2 (entries.filterMap fun e => e.content.toOption)).filterMap
            (RawRule.eventRule crates today)
        suppressions := acc.1.suppressions ++
          (definitions crates acc.2 (entries.filterMap fun e => e.content.toOption)).filterMap
            (RawRule.suppression today) } := by
  induction entries generalizing acc with
  | nil => simp [definitions]
  | cons entry entries ih =>
    rw [foldl_cons, ih, loadFile]
    cases hcontent : entry.content with
    | error e => simp [hcontent, Except.toOption]
    | ok yaml =>
      rw [filterMap_cons_some (by rw [hcontent]; rfl), definitions]
      cases haccept : acceptFile crates yaml with
      | none =>
        obtain ⟨e, he⟩ : ∃ e, loadRulesFromYaml crates today yaml entry.name acc.2 =
          .error e := loadRulesFromYaml_of_not_accept haccept
        simp [he]
      | some rf =>
        have hloaded : loadRulesFromYaml crates today yaml entry.name acc.2 = _ :=
          loadRulesFromYaml_of_accept haccept
        simp [hloaded, filterMap_append]

variable (sources : RuleSources)

theorem loadTable_eq :
    (loadTable crates today sources).rulesById =
        mergeBy CompiledRule.id
          ((sources.allDefinitions crates).filterMap (RawRule.eventRule crates today)) ∧
      (loadTable crates today sources).suppressions =
        (sources.allDefinitions crates).filterMap (RawRule.suppression today) := by
  rw [loadTable, foldl_loadPack, RuleSources.allDefinitions, RuleSources.builtinDefinitions,
    RuleSources.diskDefinitions, RuleSources.builtinTexts, RuleSources.diskTexts, mergeBy]
  cases sources.dir with
  | none => simp [definitions]
  | some entries =>
    simp [RuleTable.add, loadRulesFromDir, foldl_loadFile, ruleTexts, filterMap_append,
      foldl_append]

theorem reload_rules_perm {order : List CompiledRule → List CompiledRule}
    (horder : ∀ rules, (order rules).Perm rules) :
    (reload crates today sources order).1.Perm
      (mergeBy CompiledRule.id
        ((sources.allDefinitions crates).filterMap (RawRule.eventRule crates today))) := by
  rw [← (loadTable_eq sources).1]
  exact (perm_insertionSort _ _).trans (horder _)

theorem reload_suppressions (order : List CompiledRule → List CompiledRule) :
    (reload crates today sources order).2 =
      (sources.allDefinitions crates).filterMap (RawRule.suppression today) :=
  (loadTable_eq sources).2

end Loader

end Innerwarden.Pipeline

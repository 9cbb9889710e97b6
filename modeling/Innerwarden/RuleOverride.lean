import Innerwarden.Correlation.Loader

/-!
# Rules on disk override built-in rules

Both loaders document that a rule on disk overrides the built-in rule with its id, so the
last well-formed definition of an id decides.  But they leave disabled and expired
definitions out while they parse a file, and the earlier definition stays active.
`overrides_iff` says when the loaders do what they document.
-/

namespace Innerwarden

open Override List

/-! ## The pipeline -/

namespace Pipeline

variable (crates : PipelineCrates) (today : String)

/-- A definition is well formed if its own checks accept it, whether it is on or not. -/
def RawRule.wellFormed (raw : RawRule) : Bool :=
  match raw.action with
  | .suppressIncident => (validateSuppressRule raw).toOption.isSome
  | .suppressResponse => true
  | _ => (compileRule crates raw).toOption.isSome

def RuleSources.deciding (sources : RuleSources) (id : String) : Option RawRule :=
  last? (fun d => d.id = id && d.wellFormed crates) (sources.allDefinitions crates)

def RuleSources.effectiveRule (sources : RuleSources) (id : String) : Option CompiledRule :=
  effective RawRule.id (RawRule.wellFormed crates) (RawRule.eventRule crates today)
    (sources.allDefinitions crates) id

def RuleSources.effectiveSuppression (sources : RuleSources) (id : String) :
    Option (String × List String) :=
  effective RawRule.id (RawRule.wellFormed crates) (RawRule.suppression today)
    (sources.allDefinitions crates) id

/-- The last well-formed definition of each id decides what `reload` loads. -/
structure Overrides (sources : RuleSources) (order : List CompiledRule → List CompiledRule) :
    Prop where
  active : ∀ rule, rule ∈ (reload crates today sources order).1 ↔
    sources.effectiveRule crates today rule.id = some rule
  suppressed : ∀ detector value,
    (∃ values, (detector, values) ∈ (reload crates today sources order).2 ∧ value ∈ values) ↔
      ∃ id values, sources.effectiveSuppression crates today id = some (detector, values) ∧
        value ∈ values
  unmentioned : ∀ rule, (∀ d ∈ sources.diskDefinitions crates, d.id ≠ rule.id) →
    (rule ∈ (reload crates today sources order).1 ↔
      rule ∈ (reload crates today { sources with dir := none } order).1)

/-- No id has an event rule although its last well-formed definition stands for none, and no
value is suppressed only by definitions that are overridden. -/
def NothingRevived (sources : RuleSources) : Prop :=
  (∀ id d, sources.deciding crates id = some d → d.eventRule crates today = none →
    ∀ e ∈ sources.allDefinitions crates, e.id = id → e.eventRule crates today = none) ∧
  ∀ d ∈ sources.allDefinitions crates, ∀ detector values value,
    d.suppression today = some (detector, values) → value ∈ values →
      ∃ id values', sources.effectiveSuppression crates today id = some (detector, values') ∧
        value ∈ values'

variable {crates today}

theorem eventRule_id (raw : RawRule) (rule : CompiledRule)
    (h : raw.eventRule crates today = some rule) : rule.id = raw.id := by
  obtain ⟨_, _, _, _, _, _, _, _, _, _, rfl⟩ := compileRule_eq_ok (eventRule_eq_some h)
  rfl

theorem wellFormed_of_eventRule (raw : RawRule) (rule : CompiledRule)
    (h : raw.eventRule crates today = some rule) : raw.wellFormed crates = true := by
  have hsome : (compileRule crates raw).toOption.isSome = true := by
    rw [eventRule_eq_some h]
    rfl
  unfold RawRule.wellFormed
  cases haction : raw.action with
  | suppressIncident => rw [compileRule_suppress (.inl haction)] at hsome; cases hsome
  | suppressResponse => rfl
  | _ => exact hsome

variable (sources : RuleSources)

theorem allDefinitions_no_dir :
    RuleSources.allDefinitions crates { sources with dir := none } =
      sources.builtinDefinitions crates :=
  append_nil _

theorem unmentioned_keeps_builtin {order : List CompiledRule → List CompiledRule}
    (horder : ∀ rules, (order rules).Perm rules) (rule : CompiledRule)
    (h : ∀ d ∈ sources.diskDefinitions crates, d.id ≠ rule.id) :
    rule ∈ (reload crates today sources order).1 ↔
      rule ∈ (reload crates today { sources with dir := none } order).1 := by
  rw [(reload_rules_perm sources horder).mem_iff, (reload_rules_perm _ horder).mem_iff,
    allDefinitions_no_dir]
  exact mem_mergeBy_append_iff eventRule_id h

theorem effectiveSuppression_mem {sources : RuleSources} {id : String} {s : String × List String}
    (h : sources.effectiveSuppression crates today id = some s) :
    ∃ d ∈ sources.allDefinitions crates, d.suppression today = some s := by
  obtain ⟨d, hd, hs⟩ := Option.bind_eq_some_iff.mp h
  exact ⟨d, last?_mem hd, hs⟩

theorem pipeline_overrides_iff {order : List CompiledRule → List CompiledRule}
    (horder : ∀ rules, (order rules).Perm rules) :
    Overrides crates today sources order ↔ NothingRevived crates today sources := by
  have hactive : (∀ rule, rule ∈ mergeBy CompiledRule.id
        ((sources.allDefinitions crates).filterMap (RawRule.eventRule crates today)) ↔
          sources.effectiveRule crates today rule.id = some rule) ↔ _ :=
    mem_mergeBy_iff_effective eventRule_id wellFormed_of_eventRule
  constructor
  · intro h
    refine ⟨hactive.mp fun rule => ?_, ?_⟩
    · rw [← (reload_rules_perm sources horder).mem_iff]
      exact h.active rule
    · intro d hd detector values value hs hvalue
      refine (h.suppressed detector value).mp ⟨values, ?_, hvalue⟩
      rw [reload_suppressions]
      exact mem_filterMap.mpr ⟨d, hd, hs⟩
  · rintro ⟨hrules, hsuppressed⟩
    refine ⟨fun rule => ?_, fun detector value => ?_,
      unmentioned_keeps_builtin sources horder⟩
    · rw [(reload_rules_perm sources horder).mem_iff]
      exact hactive.mpr hrules rule
    · rw [reload_suppressions]
      constructor
      · rintro ⟨values, hmem, hvalue⟩
        obtain ⟨d, hd, hs⟩ := mem_filterMap.mp hmem
        exact hsuppressed d hd detector values value hs hvalue
      · rintro ⟨id, values, heff, hvalue⟩
        obtain ⟨d, hd, hs⟩ := effectiveSuppression_mem heff
        exact ⟨values, mem_filterMap.mpr ⟨d, hd, hs⟩, hvalue⟩

end Pipeline

/-! ## The correlation engine -/

namespace Correlation

variable (crates : LoaderCrates)

def RuleSources.deciding (sources : RuleSources) (id : String) : Option Definition :=
  last? (fun d => d.raw.id = id && (d.compiled crates).isSome) (sources.allDefinitions crates)

def RuleSources.effectiveRule (sources : RuleSources) (id : String) : Option CorrelationRule :=
  effective (·.raw.id) (fun d => (d.compiled crates).isSome) (Definition.rule crates)
    (sources.allDefinitions crates) id

/-- The last well-formed definition of each id decides which rules are loaded. -/
structure Overrides (sources : RuleSources)
    (order : List CorrelationRule → List CorrelationRule) (rules : List CorrelationRule) :
    Prop where
  active : ∀ rule, rule ∈ rules ↔ sources.effectiveRule crates rule.id = some rule
  unmentioned : ∃ builtin, loadRulesDir crates { sources with dir := none } order = .ok builtin ∧
    ∀ rule, (∀ d ∈ sources.diskDefinitions crates, d.raw.id ≠ rule.id) →
      (rule ∈ rules ↔ rule ∈ builtin)

/-- No id has a rule although its last well-formed definition is disabled. -/
def NothingRevived (sources : RuleSources) : Prop :=
  ∀ id d, sources.deciding crates id = some d → d.rule crates = none →
    ∀ e ∈ sources.allDefinitions crates, e.raw.id = id → e.rule crates = none

variable {crates}

theorem rule_eq_some {d : Definition} {rule : CorrelationRule} (h : d.rule crates = some rule) :
    compileRule crates d.source d.lists d.raw = .ok rule := by
  unfold Definition.rule Definition.compiled at h
  split at h
  · cases h
  · cases hrule : compileRule crates d.source d.lists d.raw with
    | error e => rw [hrule] at h; cases h
    | ok rule' => rw [hrule] at h; cases h; rfl

theorem rule_id (d : Definition) (rule : CorrelationRule) (h : d.rule crates = some rule) :
    rule.id = d.raw.id :=
  compileRule_id (rule_eq_some h)

theorem compiled_of_rule (d : Definition) (rule : CorrelationRule)
    (h : d.rule crates = some rule) : (d.compiled crates).isSome = true := by
  rw [Definition.compiled, rule_eq_some h]
  rfl

theorem exists_builtin {sources : RuleSources}
    {order : List CorrelationRule → List CorrelationRule} {rules : List CorrelationRule}
    (h : loadRulesDir crates sources order = .ok rules) :
    ∃ builtin, loadRulesDir crates { sources with dir := none } order = .ok builtin := by
  unfold loadRulesDir loadTable at h ⊢
  cases hbuiltin : parseFile crates sources.builtinYaml "00-builtin.yml" [] with
  | error e => rw [hbuiltin] at h; nomatch h
  | ok parsed => exact ⟨_, rfl⟩

theorem correlation_overrides_iff {sources : RuleSources}
    {order : List CorrelationRule → List CorrelationRule} {rules : List CorrelationRule}
    (horder : ∀ rules, (order rules).Perm rules)
    (hload : loadRulesDir crates sources order = .ok rules) :
    Overrides crates sources order rules ↔ NothingRevived crates sources := by
  have hactive : (∀ rule, rule ∈ mergeBy CorrelationRule.id
        ((sources.allDefinitions crates).filterMap (Definition.rule crates)) ↔
          sources.effectiveRule crates rule.id = some rule) ↔ _ :=
    mem_mergeBy_iff_effective rule_id compiled_of_rule
  constructor
  · intro h
    refine hactive.mp fun rule => ?_
    rw [← (loadRulesDir_perm horder hload).mem_iff]
    exact h.active rule
  · intro h
    constructor
    · intro rule
      rw [(loadRulesDir_perm horder hload).mem_iff]
      exact hactive.mpr h rule
    · obtain ⟨builtin, hbuiltin⟩ := exists_builtin hload
      refine ⟨builtin, hbuiltin, fun rule hrule => ?_⟩
      have hdefs : RuleSources.allDefinitions crates { sources with dir := none } =
          sources.builtinDefinitions crates := append_nil _
      rw [(loadRulesDir_perm horder hload).mem_iff, (loadRulesDir_perm horder hbuiltin).mem_iff,
        hdefs]
      exact mem_mergeBy_append_iff rule_id hrule

end Correlation

/-! ## Both loaders -/

/-- For both loaders the last well-formed definition of each id decides, if and only if no
rule stays active behind a later definition that stands for none. -/
theorem overrides_iff (pipelineCrates : Pipeline.PipelineCrates)
    (loaderCrates : Correlation.LoaderCrates) (today : String) (sources : Pipeline.RuleSources)
    (agentSources : Correlation.RuleSources)
    {order : List Pipeline.CompiledRule → List Pipeline.CompiledRule}
    {agentOrder : List Correlation.CorrelationRule → List Correlation.CorrelationRule}
    {rules : List Correlation.CorrelationRule} (horder : ∀ rules, (order rules).Perm rules)
    (hagentOrder : ∀ rules, (agentOrder rules).Perm rules)
    (hload : Correlation.loadRulesDir loaderCrates agentSources agentOrder = .ok rules) :
    (Pipeline.Overrides pipelineCrates today sources order ↔
      Pipeline.NothingRevived pipelineCrates today sources) ∧
    (Correlation.Overrides loaderCrates agentSources agentOrder rules ↔
      Correlation.NothingRevived loaderCrates agentSources) :=
  ⟨Pipeline.pipeline_overrides_iff sources horder,
    Correlation.correlation_overrides_iff hagentOrder hload⟩

/-! ## A built-in rule and its override on disk -/

namespace Pipeline

def packYaml : String :=
  "version: 1\nrules:\n  - id: drop-self\n    match:\n      source: ebpf\n    action: drop\n"

def otherYaml : String :=
  "version: 1\nrules:\n  - id: drop-self\n    match:\n      source: ebpf\n    action: force_emit\n"

def offYaml : String := packYaml ++ "    disabled: true\n"

def selfRule (action : ActionKind) (disabled : Bool) : RawRule where
  id := "drop-self"
  matchPreds := some { source := some "ebpf" }
  action := action
  disabled := disabled

/-- The crates as they are on these files. -/
def selfCrates : PipelineCrates where
  parseRuleFile yaml :=
    if yaml = packYaml then .ok ⟨1, [], [selfRule .drop false]⟩
    else if yaml = otherYaml then .ok ⟨1, [], [selfRule .forceEmit false]⟩
    else if yaml = offYaml then .ok ⟨1, [], [selfRule .drop true]⟩
    else .error "missing field version"
  displayF64 _ := "0"
  globNew _ := .ok ()
  globSet patterns := .ok (patterns.contains ·)

/-- The pack, and a directory with one file. -/
def selfSources (text : String) : RuleSources where
  builtinPacks := [("01-self.yml", packYaml)]
  dir := some [⟨"10-override.yml", true, .ok text⟩]

theorem nothingRevived_other : NothingRevived selfCrates "2026-01-01" (selfSources otherYaml) := by
  have hlive : ∀ d ∈ (selfSources otherYaml).allDefinitions selfCrates,
      (d.eventRule selfCrates "2026-01-01").isSome = true ∧ d.suppression "2026-01-01" = none := by
    change ∀ d ∈ [selfRule .drop false, selfRule .forceEmit false], _
    simp only [forall_mem_cons]
    exact ⟨⟨rfl, rfl⟩, ⟨rfl, rfl⟩, fun _ h => nomatch h⟩
  constructor
  · intro id d hd hnone
    have hsome := (hlive d (last?_mem hd)).1
    rw [hnone] at hsome
    nomatch hsome
  · intro d hd detector values value hs
    rw [(hlive d hd).2] at hs
    nomatch hs

theorem not_nothingRevived_off :
    ¬NothingRevived selfCrates "2026-01-01" (selfSources offYaml) := by
  intro h
  have hnone := h.1 "drop-self" (selfRule .drop true) rfl rfl (selfRule .drop false)
    (mem_cons_self (l := [selfRule .drop true])) rfl
  exact nomatch (show some _ = none from hnone)

end Pipeline

namespace Correlation

def builtinYaml : String :=
  "version: 1\nrules:\n  - id: CL-001\n    name: scan\n    window_secs: 300\n" ++
  "    min_confidence: 0.5\n    stages:\n      - kind_patterns: [port_scan]\n" ++
  "        entity_must_match: false\n    severity: high\n"

def otherYaml : String :=
  "version: 1\nrules:\n  - id: CL-001\n    name: scan\n    window_secs: 300\n" ++
  "    min_confidence: 0.5\n    stages:\n      - kind_patterns: [port_scan]\n" ++
  "        entity_must_match: false\n    severity: low\n"

def offYaml : String := builtinYaml ++ "    disabled: true\n"

def scanRaw (severity : String) (disabled : Bool) : RawRule where
  id := "CL-001"
  name := "scan"
  severity := severity
  windowSecs := 300
  minConfidence := 0x3f000000
  stages := [⟨none, ["port_scan"], false⟩]
  disabled := disabled

/-- The crates as they are on these files. -/
def scanCrates : LoaderCrates where
  parseRuleFile yaml :=
    if yaml = builtinYaml then .ok ⟨1, [], [scanRaw "high" false]⟩
    else if yaml = otherYaml then .ok ⟨1, [], [scanRaw "low" false]⟩
    else if yaml = offYaml then .ok ⟨1, [], [scanRaw "high" true]⟩
    else .error "missing field version"
  debugStr s := "\"" ++ s ++ "\""

/-- The built-in file, and a directory with one file. -/
def scanSources (text : String) : RuleSources where
  builtinYaml := builtinYaml
  path := "rules/correlation"
  dir := some (.ok [⟨"10-override.yml", true, .ok text⟩])

def scanCompiled (severity : Severity) : CorrelationRule :=
  ⟨"CL-001", "scan", [⟨none, ["port_scan"], false⟩], 300, 0x3f000000, severity⟩

theorem scanSources_runs :
    ((scanSources otherYaml).allDefinitions scanCrates =
        [⟨"00-builtin.yml", [], scanRaw "high" false⟩,
          ⟨"10-override.yml", [], scanRaw "low" false⟩] ∧
      loadRulesDir scanCrates (scanSources otherYaml) id = .ok [scanCompiled .low]) ∧
    (scanSources offYaml).allDefinitions scanCrates =
        [⟨"00-builtin.yml", [], scanRaw "high" false⟩,
          ⟨"10-override.yml", [], scanRaw "high" true⟩] ∧
      loadRulesDir scanCrates (scanSources offYaml) id = .ok [scanCompiled .high] := by
  decide +kernel

theorem nothingRevived_other : NothingRevived scanCrates (scanSources otherYaml) := by
  have hlive : ∀ d ∈ (scanSources otherYaml).allDefinitions scanCrates,
      (d.rule scanCrates).isSome = true := by
    rw [scanSources_runs.1.1]
    decide
  intro id d hd hnone
  have hsome := hlive d (last?_mem hd)
  rw [hnone] at hsome
  nomatch hsome

theorem not_nothingRevived_off : ¬NothingRevived scanCrates (scanSources offYaml) := by
  intro h
  have hdeciding : (scanSources offYaml).deciding scanCrates "CL-001" =
      some ⟨"10-override.yml", [], scanRaw "high" true⟩ := by
    rw [RuleSources.deciding, scanSources_runs.2.1]
    decide
  have hnone := h "CL-001" _ hdeciding rfl ⟨"00-builtin.yml", [], scanRaw "high" false⟩
    (by rw [scanSources_runs.2.1]; exact mem_cons_self) rfl
  exact absurd hnone (by decide)

end Correlation

/-- An override that is on takes the place of the built-in rule. -/
theorem overrides_other :
    Pipeline.Overrides Pipeline.selfCrates "2026-01-01" (Pipeline.selfSources Pipeline.otherYaml)
      id ∧
    Correlation.Overrides Correlation.scanCrates (Correlation.scanSources Correlation.otherYaml)
      id [Correlation.scanCompiled .low] := by
  obtain ⟨hpipeline, hcorrelation⟩ := overrides_iff Pipeline.selfCrates Correlation.scanCrates
    "2026-01-01" (Pipeline.selfSources Pipeline.otherYaml)
    (Correlation.scanSources Correlation.otherYaml) (fun _ => List.Perm.refl _)
    (fun _ => List.Perm.refl _) Correlation.scanSources_runs.1.2
  exact ⟨hpipeline.mpr Pipeline.nothingRevived_other,
    hcorrelation.mpr Correlation.nothingRevived_other⟩

/-- An override that turns a built-in rule off leaves it active, in both loaders. -/
theorem disabled_override_ignored :
    ¬Pipeline.Overrides Pipeline.selfCrates "2026-01-01" (Pipeline.selfSources Pipeline.offYaml)
      id ∧
    Correlation.loadRulesDir Correlation.scanCrates
      (Correlation.scanSources Correlation.offYaml) id = .ok [Correlation.scanCompiled .high] ∧
    ¬Correlation.Overrides Correlation.scanCrates (Correlation.scanSources Correlation.offYaml)
      id [Correlation.scanCompiled .high] := by
  refine ⟨fun h => ?_, Correlation.scanSources_runs.2.2, fun h => ?_⟩
  · exact Pipeline.not_nothingRevived_off
      ((Pipeline.pipeline_overrides_iff _ fun _ => List.Perm.refl _).mp h)
  · exact Correlation.not_nothingRevived_off
      ((Correlation.correlation_overrides_iff (fun _ => List.Perm.refl _)
        Correlation.scanSources_runs.2.2).mp h)

end Innerwarden

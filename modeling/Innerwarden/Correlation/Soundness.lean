import Innerwarden.Correlation.Emission

/-!
# Emitted chains are genuine

A chain that is emitted consists of observed events that pass the stages of its rule in order.
`Progress` is what the engine knows of a pending chain, given the events observed so far, and
`progress_exec` says that it holds of every pending chain of every run.
-/

namespace Innerwarden.Correlation

open StateMachine List

/-! ## Entities -/

theorem entityKey_injective {a b : EntityRef} (h : entityKey a = entityKey b) : a = b := by
  obtain ⟨ta, va⟩ := a
  obtain ⟨tb, vb⟩ := b
  have hlist := congrArg String.toList h
  cases ta <;> cases tb <;>
    simp [entityKey, EntityType.tag, String.toList_append, String.toList_inj] at hlist ⊢ <;>
    exact hlist

variable {event : CorrelationEvent}

theorem mem_addEntities {known : List String} {k : String} :
    k ∈ addEntities known event ↔ k ∈ known ∨ ∃ x ∈ event.entities, entityKey x = k := by
  unfold addEntities
  induction event.entities generalizing known with
  | nil => simp
  | cons x xs ih =>
    rw [foldl_cons, ih, mem_insert_iff, exists_mem_cons_iff]
    constructor
    · rintro ((rfl | h) | h)
      · exact Or.inr (Or.inl rfl)
      · exact Or.inl h
      · exact Or.inr (Or.inr h)
    · rintro (h | rfl | h)
      · exact Or.inl (Or.inr h)
      · exact Or.inl (Or.inl rfl)
      · exact Or.inr h

/-! ## What a chain of events has to satisfy -/

/-- The event passes a stage after the events before it. -/
def StageFits (ruleId : String) (stage : RuleStage) (earlier : List CorrelationEvent)
    (event : CorrelationEvent) : Prop :=
  stageMatches stage event = true ∧ eventCommIsSuppressed ruleId event = false ∧
    (stage.entityMustMatch = true →
      (∃ e ∈ earlier, ∃ x ∈ e.entities, x ∈ event.entities) ∨ ∀ e ∈ earlier, e.entities = [])

/-- The events pass the first stages of a rule, one stage each. -/
def Follows (ruleId : String) (stages : List RuleStage) (events : List CorrelationEvent) : Prop :=
  ∀ i event, events[i]? = some event →
    ∃ stage, stages[i]? = some stage ∧ StageFits ruleId stage (events.take i) event

theorem Follows.concat {ruleId : String} {stages : List RuleStage}
    {events : List CorrelationEvent} {stage : RuleStage} (h : Follows ruleId stages events)
    (hstage : stages[events.length]? = some stage) (hfits : StageFits ruleId stage events event) :
    Follows ruleId stages (events ++ [event]) := by
  intro i e he
  rcases Nat.lt_trichotomy i events.length with hlt | rfl | hgt
  · rw [getElem?_append_left hlt] at he
    rw [take_append_of_le_length hlt.le]
    exact h i e he
  · rw [getElem?_concat_length] at he
    cases he
    rw [take_left]
    exact ⟨stage, hstage, hfits⟩
  · rw [getElem?_eq_none (by rw [length_append]; exact hgt)] at he
    nomatch he

/-- What `matches_stage` accepts, when the texts of the earlier entities are known. -/
theorem stageFits_of_matchesStage {ruleId : String} {stage : RuleStage}
    {earlier : List CorrelationEvent} {known : List String}
    (hknown : ∀ k, k ∈ known ↔ ∃ e ∈ earlier, ∃ x ∈ e.entities, entityKey x = k)
    (h : matchesStage stage event known ruleId = true) : StageFits ruleId stage earlier event := by
  simp only [matchesStage, Bool.and_eq_true, Bool.not_eq_true', Bool.and_eq_false_iff,
    Bool.not_eq_false', List.isEmpty_iff, all_eq_false] at h
  obtain ⟨⟨hmatch, hentity⟩, hcomm⟩ := h
  refine ⟨hmatch, hcomm, fun hmust => ?_⟩
  rcases hentity with (hnot | hempty) | ⟨x, hx, hmem⟩
  · rw [hmust] at hnot
    nomatch hnot
  · right
    intro e he
    refine eq_nil_iff_forall_not_mem.mpr fun x hx => ?_
    have hmem := (hknown (entityKey x)).mpr ⟨e, he, x, hx, rfl⟩
    rw [hempty] at hmem
    exact not_mem_nil hmem
  · left
    obtain ⟨e, he, y, hy, hkey⟩ := (hknown (entityKey x)).mp (by simpa using hmem)
    exact ⟨e, he, y, hy, entityKey_injective hkey ▸ hx⟩

/-! ## The parts of `observe` -/

section Parts

variable {rules : List CorrelationRule}

theorem find_rule (hnodup : (rules.map CorrelationRule.id).Nodup) {rule : CorrelationRule}
    (hrule : rule ∈ rules) : rules.find? (·.id = rule.id) = some rule := by
  induction rules with
  | nil => nomatch hrule
  | cons r rules ih =>
    rw [map_cons, nodup_cons] at hnodup
    rcases mem_cons.mp hrule with rfl | hrule
    · exact find?_cons_of_pos (decide_eq_true rfl)
    · rw [find?_cons_of_neg, ih hnodup.2 hrule]
      intro heq
      exact hnodup.1 (of_decide_eq_true heq ▸ mem_map_of_mem hrule)

theorem map_of_mapM {α β : Type} {f : α → Option β} {l : List α} {l' : List β}
    (h : l.mapM f = some l') : l.map f = l'.map some := by
  induction l generalizing l' with
  | nil =>
    cases h
    rfl
  | cons a l ih =>
    rw [mapM_cons] at h
    obtain ⟨b, hb, h⟩ := Option.bind_eq_some_iff.mp h
    obtain ⟨bs, hbs, h⟩ := Option.bind_eq_some_iff.mp h
    cases h
    rw [map_cons, hb, ih hbs, map_cons]

theorem mem_started_iff {event : CorrelationEvent} {started : List (Option PendingChain)}
    (h : rules.mapM (startChain event) = some started) {pc : PendingChain} :
    pc ∈ started.reduceOption ↔ ∃ rule ∈ rules, startChain event rule = some (some pc) := by
  rw [reduceOption_mem_iff, ← mem_map, map_of_mapM h,
    mem_map_of_injective (Option.some_injective _)]

theorem startChain_eq_some {event : CorrelationEvent} {rule : CorrelationRule} {pc : PendingChain}
    (h : startChain event rule = some (some pc)) :
    ∃ first rest window, rule.stages = first :: rest ∧ matchesStage first event [] rule.id = true ∧
      windowDuration rule.windowSecs = some window ∧
      pc = .new rule event window := by
  unfold startChain at h
  split at h
  · nomatch h
  next first rest hstages =>
    split at h
    next hmatch =>
      obtain ⟨window, hwindow, hpc⟩ := Option.map_eq_some_iff.mp h
      exact ⟨first, rest, window, hstages, hmatch, hwindow, (Option.some.inj hpc).symm⟩
    · nomatch h

theorem observe_eq_some {s t : CorrelationEngine} {op : Observation}
    (h : (observe rules s op).1 = some t) :
    ∃ started, rules.mapM (startChain op.event) = some started ∧
      t.pendingChains = (emission rules s op).1.pendingChains ++ started.reduceOption ∧
      t.chainCooldowns = (emission rules s op).1.chainCooldowns := by
  obtain ⟨started, hstarted, rfl⟩ := Option.map_eq_some_iff.mp h
  exact ⟨started, hstarted, rfl, rfl⟩

theorem mem_pendingChains_observe {s t : CorrelationEngine} {op : Observation}
    (h : (observe rules s op).1 = some t) {pc : PendingChain} (hpc : pc ∈ t.pendingChains) :
    (∃ pc₀ ∈ s.pendingChains, op.event.ts < pc₀.expiresAt ∧
        pc = (advanceChain rules op.event pc₀).1) ∨
      ∃ rule ∈ rules, startChain op.event rule = some (some pc) := by
  obtain ⟨started, hstarted, hpending, -⟩ := observe_eq_some h
  rw [hpending, mem_append] at hpc
  rcases hpc with hpc | hpc
  · left
    have hmem := (mem_pendingChains_emission.mp hpc).1
    simp only [advanced, map_map, mem_map, mem_filter] at hmem
    obtain ⟨pc₀, ⟨hmem, hlive⟩, rfl⟩ := hmem
    exact ⟨pc₀, hmem, of_decide_eq_true hlive, rfl⟩
  · exact Or.inr ((mem_started_iff hstarted).mp hpc)

end Parts

/-! ## The invariant -/

/-- What is known of a pending chain of a rule after some events. -/
structure Progress (rule : CorrelationRule) (history : List CorrelationEvent) (pc : PendingChain) :
    Prop where
  ruleId : pc.ruleId = rule.id
  observed : pc.matchedEvents.Sublist history
  follows : Follows rule.id rule.stages pc.matchedEvents
  ne_nil : pc.matchedEvents ≠ []
  length : pc.matchedEvents.length = pc.nextStage
  entities : ∀ k, k ∈ pc.matchedEntities ↔
    ∃ e ∈ pc.matchedEvents, ∃ x ∈ e.entities, entityKey x = k

/-- Every chain makes progress by one of the rules. -/
def AllProgress (rules : List CorrelationRule) (history : List CorrelationEvent)
    (chains : List PendingChain) : Prop :=
  ∀ pc ∈ chains, ∃ rule ∈ rules, Progress rule history pc

section Run

variable {rules : List CorrelationRule} {rule : CorrelationRule} {history : List CorrelationEvent}

/-- A chain that sees an event. -/
theorem Progress.advance (hnodup : (rules.map CorrelationRule.id).Nodup) (hrule : rule ∈ rules)
    {pc : PendingChain} (h : Progress rule history pc) (event : CorrelationEvent) :
    Progress rule (history ++ [event]) (advanceChain rules event pc).1 ∧
      ((advanceChain rules event pc).2 = true →
        (advanceChain rules event pc).1.nextStage = rule.stages.length) := by
  rcases advanceChain_cases rules event pc with
    hsame | ⟨rule', stage, hfind, hstage, hmatch, hadv⟩
  · rw [hsame]
    exact ⟨{ h with observed := h.observed.trans (sublist_append_left ..) }, nofun⟩
  · rw [h.ruleId, find_rule hnodup hrule] at hfind
    cases hfind
    rw [hadv]
    refine ⟨⟨h.ruleId, h.observed.append (List.Sublist.refl _), ?_, by simp, ?_,
      fun k => ?_⟩, fun hdone => ?_⟩
    · refine h.follows.concat (by rw [h.length]; exact hstage) ?_
      exact stageFits_of_matchesStage h.entities (h.ruleId ▸ hmatch)
    · rw [length_append, h.length]
      rfl
    · simp only [mem_addEntities, h.entities, mem_append, or_and_right, exists_or,
        mem_singleton, exists_eq_left]
    · have hlt := (List.getElem?_eq_some_iff.mp hstage).1
      have hle := of_decide_eq_true hdone
      exact Nat.le_antisymm hlt hle

theorem Progress.start {event : CorrelationEvent} {pc : PendingChain}
    (h : startChain event rule = some (some pc)) : Progress rule (history ++ [event]) pc := by
  obtain ⟨first, rest, window, hstages, hmatch, -, rfl⟩ := startChain_eq_some h
  have hnone : ∀ k, k ∈ ([] : List String) ↔
      ∃ e ∈ ([] : List CorrelationEvent), ∃ x ∈ e.entities, entityKey x = k := by simp
  have hfits : StageFits rule.id first [] event := stageFits_of_matchesStage hnone hmatch
  refine ⟨rfl, sublist_append_right .., ?_, cons_ne_nil _ _, rfl, fun k => ?_⟩
  · have hempty : Follows rule.id rule.stages [] := fun i e he => nomatch he
    exact hempty.concat (by rw [hstages]; rfl) hfits
  · simp [PendingChain.new, mem_addEntities]

theorem exec_concat_eq_some {ops : List Observation} {op : Observation} {t : CorrelationEngine}
    (h : (correlationMachine rules).exec (correlationMachine rules).init (ops ++ [op]) = some t) :
    ∃ s, (correlationMachine rules).exec (correlationMachine rules).init ops = some s ∧
      (observe rules s op).1 = some t := by
  rw [exec_append] at h
  cases hbefore : (correlationMachine rules).exec (correlationMachine rules).init ops with
  | none =>
    rw [hbefore] at h
    cases h
  | some s =>
    rw [hbefore] at h
    exact ⟨s, rfl, h⟩

/-- What is true of a chain when it starts, and stays true when it takes an event, is true of
every pending chain of every run. -/
theorem pendingChains_exec {P : List Observation → PendingChain → Prop}
    (hadvance : ∀ ops op pc, P ops pc → P (ops ++ [op]) (advanceChain rules op.event pc).1)
    (hstart : ∀ ops op, ∀ rule ∈ rules, ∀ pc, startChain op.event rule = some (some pc) →
      P (ops ++ [op]) pc) {ops : List Observation} {s : CorrelationEngine}
    (hs : (correlationMachine rules).exec (correlationMachine rules).init ops = some s)
    {pc : PendingChain} (hpc : pc ∈ s.pendingChains) : P ops pc := by
  induction ops using List.reverseRecOn generalizing s pc with
  | nil =>
    cases hs
    cases hpc
  | append_singleton ops op ih =>
    obtain ⟨s₀, hbefore, hobserve⟩ := exec_concat_eq_some hs
    rcases mem_pendingChains_observe hobserve hpc with ⟨pc₀, hmem, -, rfl⟩ | ⟨rule, hrule, hpc⟩
    · exact hadvance ops op pc₀ (ih hbefore hmem)
    · exact hstart ops op rule hrule pc hpc

/-- Every pending chain of every run. -/
theorem progress_exec (hnodup : (rules.map CorrelationRule.id).Nodup) (ops : List Observation)
    {s : CorrelationEngine}
    (hs : (correlationMachine rules).exec (correlationMachine rules).init ops = some s) :
    AllProgress rules (ops.map Observation.event) s.pendingChains := by
  intro pc hpc
  refine pendingChains_exec (P := fun ops pc =>
    ∃ rule ∈ rules, Progress rule (ops.map Observation.event) pc) ?_ ?_ hs hpc
  · rintro ops op pc ⟨rule, hrule, hprogress⟩
    rw [map_append, map_singleton]
    exact ⟨rule, hrule, (hprogress.advance hnodup hrule op.event).1⟩
  · intro ops op rule hrule pc hstart
    rw [map_append, map_singleton]
    exact ⟨rule, hrule, .start hstart⟩

/-! ## Soundness -/

/-- Every chain that is emitted for a rule has one event for each stage.  In the order of
the stages the events were observed one after the other, and each of them fits its stage. -/
theorem emitted_chain_genuine (hnodup : (rules.map CorrelationRule.id).Nodup)
    (ops : List Observation) {chain : AttackChain}
    (hchain : chain ∈
      ((correlationMachine rules).trace (correlationMachine rules).init ops).flatten) :
    ∃ rule ∈ rules, chain.ruleId = rule.id ∧
      ∃ events : List CorrelationEvent, chain.events.Perm events ∧
        events.length = rule.stages.length ∧ events.Sublist (ops.map Observation.event) ∧
        Follows rule.id rule.stages events := by
  obtain ⟨chains, hchains, hmem⟩ := mem_flatten.mp hchain
  obtain ⟨pre, op, post, rfl, rfl⟩ := exists_of_mem_trace hchains
  cases hbefore : (correlationMachine rules).exec (correlationMachine rules).init pre with
  | none =>
    rw [hbefore] at hmem
    nomatch hmem
  | some s =>
    rw [hbefore] at hmem
    obtain ⟨⟨key, pc⟩, hentry, rule', id, hfind, rfl⟩ := exists_of_mem_emission hmem
    obtain ⟨pc₀, hpc₀, -, hadv⟩ := mem_newlyCompleted (mem_keyed hentry.mem).1
    obtain ⟨rule, hrule, hprogress⟩ := progress_exec hnodup pre hbefore pc₀ hpc₀
    obtain ⟨hdone, hlast⟩ := hprogress.advance hnodup hrule op.event
    rw [hadv] at hdone hlast
    rw [hdone.ruleId, find_rule hnodup hrule] at hfind
    cases hfind
    refine ⟨_, hrule, rfl, pc.matchedEvents, perm_events_attackChain .., ?_, ?_, hdone.follows⟩
    · rw [hdone.length, hlast rfl]
    · rw [map_append, map_cons, ← singleton_append, ← append_assoc]
      exact hdone.observed.trans (sublist_append_left ..)

end Run

def sampleRule : CorrelationRule :=
  ⟨"CL-100", "Scan and login", [⟨none, ["port_scan"], false⟩, ⟨some .userspace, ["ssh.*"], true⟩],
    300, 0x3f333333, .high⟩

def sampleObservation (secs : Int) (layer : Layer) (kind ip : String) : Observation :=
  ⟨⟨seconds secs, layer, "detector", kind, .high, [⟨.ip, ip⟩], .null, ""⟩, fun _ => 0⟩

theorem emitted_chain_genuine_scan :
    let ops := [sampleObservation 0 .network "port_scan" "203.0.113.7",
      sampleObservation 5 .userspace "ssh.login" "203.0.113.7"]
    let M := correlationMachine [sampleRule]
    ∃ chain ∈ (M.trace M.init ops).flatten, ∃ rule ∈ [sampleRule], chain.ruleId = rule.id ∧
      ∃ events : List CorrelationEvent, chain.events.Perm events ∧
        events.length = rule.stages.length ∧ events.Sublist (ops.map Observation.event) ∧
        Follows rule.id rule.stages events := by
  intro ops M
  have hlength : (M.trace M.init ops).flatten.length = 1 := by decide +kernel
  obtain ⟨chain, hchain⟩ := exists_mem_of_length_pos (hlength ▸ Nat.one_pos)
  exact ⟨chain, hchain, emitted_chain_genuine (by decide) ops hchain⟩

end Innerwarden.Correlation

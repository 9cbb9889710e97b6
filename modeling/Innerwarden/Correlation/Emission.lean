import Mathlib.Data.List.ReduceOption
import Innerwarden.Correlation.Engine

/-!
# What a call emits

An observation may complete several chains.  Each of them is held against one key of the
table of cooldowns, made of its rule and the entity its hash set yields first.  It is emitted
if the key is free and no chain before it in the same call had the key (`Released`), and every
key that was free is taken afterwards (`chainCooldowns_emission`).
-/

namespace Innerwarden.Correlation

open StateMachine List Function

/-! ## Keys -/

/-- The chains with their keys, from the `k`-th on. -/
def keyed (pick : Nat → Nat) : Nat → List PendingChain → List (String × PendingChain)
  | _, [] => []
  | k, pc :: completed =>
    (cooldownKey pc.ruleId (primaryEntity (pick k) pc.matchedEntities), pc) ::
      keyed pick (k + 1) completed

/-- The chain is the first with its key, and the key is free. -/
def Released (cooldowns : String → Option DateTime) (entries : List (String × PendingChain))
    (entry : String × PendingChain) : Prop :=
  ∃ pre post, entries = pre ++ entry :: post ∧ cooldowns entry.1 = none ∧
    ∀ earlier ∈ pre, earlier.1 ≠ entry.1

/-- The chains that are emitted, in order, when the keys that are taken stay taken. -/
def released (cooldowns : String → Option DateTime) (expires : DateTime) :
    List (String × PendingChain) → List (String × PendingChain)
  | [] => []
  | entry :: entries =>
    if (cooldowns entry.1).isSome then released cooldowns expires entries
    else entry :: released (update cooldowns entry.1 (some expires)) expires entries

section Keys

variable {cooldowns : String → Option DateTime} {expires : DateTime}
  {entries : List (String × PendingChain)} {entry : String × PendingChain}

theorem mem_keyed {pick : Nat → Nat} {k : Nat} {completed : List PendingChain}
    (h : entry ∈ keyed pick k completed) :
    entry.2 ∈ completed ∧ ∃ n, entry.1 =
      cooldownKey entry.2.ruleId (primaryEntity n entry.2.matchedEntities) := by
  induction completed generalizing k with
  | nil => cases h
  | cons pc completed ih =>
    rcases mem_cons.mp h with rfl | h
    · exact ⟨mem_cons_self .., pick k, rfl⟩
    · obtain ⟨hmem, hkey⟩ := ih h
      exact ⟨mem_cons_of_mem _ hmem, hkey⟩

theorem exists_mem_keyed (pick : Nat → Nat) (k : Nat) {completed : List PendingChain}
    {pc : PendingChain} (h : pc ∈ completed) :
    ∃ n, (cooldownKey pc.ruleId (primaryEntity n pc.matchedEntities), pc) ∈
      keyed pick k completed := by
  induction completed generalizing k with
  | nil => cases h
  | cons first completed ih =>
    rcases mem_cons.mp h with rfl | h
    · exact ⟨pick k, mem_cons_self ..⟩
    · obtain ⟨n, hn⟩ := ih (k + 1) h
      exact ⟨n, mem_cons_of_mem _ hn⟩

theorem released_cons_iff {first : String × PendingChain} :
    Released cooldowns (first :: entries) entry ↔
      (entry = first ∧ cooldowns first.1 = none) ∨
        (Released cooldowns entries entry ∧ first.1 ≠ entry.1) := by
  constructor
  · rintro ⟨pre, post, hsplit, hfree, hearlier⟩
    cases pre with
    | nil =>
      obtain ⟨rfl, -⟩ := List.cons.inj hsplit
      exact .inl ⟨rfl, hfree⟩
    | cons x pre =>
      obtain ⟨rfl, hrest⟩ := List.cons.inj hsplit
      obtain ⟨hfirst, hpre⟩ := forall_mem_cons.mp hearlier
      exact .inr ⟨⟨pre, post, hrest, hfree, hpre⟩, hfirst⟩
  · rintro (⟨rfl, hfree⟩ | ⟨⟨pre, post, rfl, hfree, hpre⟩, hfirst⟩)
    · exact ⟨[], entries, rfl, hfree, fun _ h => by cases h⟩
    · exact ⟨first :: pre, post, rfl, hfree, forall_mem_cons.mpr ⟨hfirst, hpre⟩⟩

theorem released_update_iff {key : String} :
    Released (update cooldowns key (some expires)) entries entry ↔
      Released cooldowns entries entry ∧ key ≠ entry.1 := by
  by_cases hkey : key = entry.1
  · subst hkey
    refine iff_of_false ?_ fun h => h.2 rfl
    rintro ⟨pre, post, -, hfree, -⟩
    rw [update_self] at hfree
    cases hfree
  · simp only [Released, update_of_ne (Ne.symm hkey), ne_eq, hkey, not_false_eq_true,
      and_true]

theorem mem_released_iff : entry ∈ released cooldowns expires entries ↔
    Released cooldowns entries entry := by
  induction entries generalizing cooldowns with
  | nil =>
    refine iff_of_false not_mem_nil ?_
    rintro ⟨pre, post, hsplit, -⟩
    simp at hsplit
  | cons first entries ih =>
    rw [released, released_cons_iff]
    cases hfirst : cooldowns first.1 with
    | some t =>
      rw [if_pos Option.isSome_some, ih]
      simp only [reduceCtorEq, and_false, false_or]
      refine ⟨fun h => ⟨h, ?_⟩, And.left⟩
      rintro heq
      obtain ⟨pre, post, -, hfree, -⟩ := h
      rw [← heq, hfirst] at hfree
      cases hfree
    | none =>
      rw [if_neg (by simp), mem_cons, ih, released_update_iff]
      simp only [and_true]

theorem exists_released {key : String} (hmem : key ∈ entries.map Prod.fst)
    (hfree : cooldowns key = none) : ∃ entry, entry.1 = key ∧ Released cooldowns entries entry := by
  induction entries with
  | nil => cases hmem
  | cons first entries ih =>
    simp only [released_cons_iff]
    by_cases hfirst : first.1 = key
    · exact ⟨first, hfirst, .inl ⟨rfl, hfirst ▸ hfree⟩⟩
    · obtain ⟨entry, rfl, hentry⟩ := ih ((mem_cons.mp hmem).resolve_left (Ne.symm hfirst))
      exact ⟨entry, rfl, .inr ⟨hentry, hfirst⟩⟩

theorem pairwise_released :
    (released cooldowns expires entries).Pairwise fun a b => a.1 ≠ b.1 := by
  induction entries generalizing cooldowns with
  | nil => exact .nil
  | cons first entries ih =>
    rw [released]
    split
    · exact ih
    · refine .cons (fun b hb => ?_) ih
      exact (released_update_iff.mp (mem_released_iff.mp hb)).2

end Keys

/-! ## The loop over the completed chains -/

section Loop

variable {rules : List CorrelationRule}

/-- The chain is what is emitted for a completed one. -/
def EmittedAs (rules : List CorrelationRule) (now : DateTime) (entry : String × PendingChain)
    (chain : AttackChain) : Prop :=
  ∃ rule id, rules.find? (·.id = entry.2.ruleId) = some rule ∧
    chain = attackChain rule id now entry.2

theorem perm_events_attackChain (rule : CorrelationRule) (id : Nat) (now : DateTime)
    (pc : PendingChain) :
    (attackChain rule id now pc).events.Perm pc.matchedEvents :=
  perm_insertionSort ..

variable {entry : String × PendingChain} {chain : AttackChain} {s : CorrelationEngine}
  {op : Observation}

theorem EmittedAs.ruleId {now : DateTime} (h : EmittedAs rules now entry chain) :
    chain.ruleId = entry.2.ruleId := by
  obtain ⟨rule, id, hfind, rfl⟩ := h
  have hid : rule.id = entry.2.ruleId := by simpa using find?_some hfind
  exact hid

theorem EmittedAs.perm {now : DateTime} (h : EmittedAs rules now entry chain) :
    chain.events.Perm entry.2.matchedEvents := by
  obtain ⟨rule, id, -, rfl⟩ := h
  exact perm_events_attackChain rule id now entry.2

variable (rules) in
/-- A chain either stays as it is or passes a stage. -/
theorem advanceChain_cases (event : CorrelationEvent) (pc : PendingChain) :
    advanceChain rules event pc = (pc, false) ∨
    ∃ rule stage, rules.find? (·.id = pc.ruleId) = some rule ∧
      rule.stages[pc.nextStage]? = some stage ∧
      matchesStage stage event pc.matchedEntities pc.ruleId = true ∧
      advanceChain rules event pc =
        ({ pc with
            matchedEvents := pc.matchedEvents ++ [event]
            matchedEntities := addEntities pc.matchedEntities event
            nextStage := pc.nextStage + 1 },
          decide (rule.stages.length ≤ pc.nextStage + 1)) := by
  unfold advanceChain
  cases hfind : rules.find? (·.id = pc.ruleId) with
  | none => exact Or.inl rfl
  | some rule =>
    cases hstage : rule.stages[pc.nextStage]? with
    | none => left; dsimp only; rw [hstage]
    | some stage =>
      dsimp only
      rw [hstage]
      cases hm : matchesStage stage event pc.matchedEntities pc.ruleId with
      | false => left; dsimp only; rw [if_neg (by rw [hm]; exact Bool.false_ne_true)]
      | true =>
        right
        refine ⟨rule, stage, rfl, hstage, hm, ?_⟩
        dsimp only
        rw [if_pos hm]

theorem mem_newlyCompleted {event : CorrelationEvent} {pc : PendingChain}
    (h : pc ∈ newlyCompleted rules s event) :
    ∃ pc₀ ∈ s.pendingChains, event.ts < pc₀.expiresAt ∧
      advanceChain rules event pc₀ = (pc, true) := by
  simp only [newlyCompleted, advanced, mem_map, mem_filter] at h
  obtain ⟨⟨pc', flag⟩, ⟨⟨pc₀, ⟨hmem, hlive⟩, hadv⟩, hflag⟩, rfl⟩ := h
  cases hflag
  exact ⟨pc₀, hmem, of_decide_eq_true hlive, hadv⟩

theorem emitChain_eq {rule : CorrelationRule} {pc : PendingChain}
    (hfind : rules.find? (·.id = pc.ruleId) = some rule) (now : DateTime) (pick : Nat)
    (s : CorrelationEngine) :
    let key := cooldownKey pc.ruleId (primaryEntity pick pc.matchedEntities)
    ((s.chainCooldowns key).isSome = true → emitChain rules now pick s pc = (s, [])) ∧
      (s.chainCooldowns key = none →
        (emitChain rules now pick s pc).1.pendingChains = s.pendingChains.filter (fun p =>
            p.ruleId ≠ pc.ruleId ∨ p.startedAt ≠ pc.startedAt) ∧
          (emitChain rules now pick s pc).1.chainCooldowns =
            update s.chainCooldowns key (some (now + seconds 600)) ∧
          (emitChain rules now pick s pc).2 = [attackChain rule s.nextChainId now pc]) := by
  intro key
  unfold emitChain
  rw [hfind]
  dsimp only
  refine ⟨fun hheld => if_pos hheld, fun hfree => ?_⟩
  rw [if_neg (by rw [hfree]; exact Bool.false_ne_true)]
  exact ⟨rfl, rfl, rfl⟩

/-- The loop emits the released chains, in order, takes every key, and removes what started
together with a chain it emits. -/
theorem emitChains_spec {now : DateTime} {pick : Nat → Nat} {completed : List PendingChain}
    (hfound : ∀ pc ∈ completed, (rules.find? (·.id = pc.ruleId)).isSome = true)
    (k : Nat) (s : CorrelationEngine) :
    let out := released s.chainCooldowns (now + seconds 600) (keyed pick k completed)
    List.Forall₂ (EmittedAs rules now) out (emitChains rules now pick k s completed).2 ∧
      (∀ key, (emitChains rules now pick k s completed).1.chainCooldowns key =
        if s.chainCooldowns key = none ∧ key ∈ (keyed pick k completed).map Prod.fst then
          some (now + seconds 600)
        else s.chainCooldowns key) ∧
      ∀ p, p ∈ (emitChains rules now pick k s completed).1.pendingChains ↔
        p ∈ s.pendingChains ∧ ∀ entry ∈ out, p.ruleId ≠ entry.2.ruleId ∨
          p.startedAt ≠ entry.2.startedAt := by
  induction completed generalizing k s with
  | nil => exact ⟨.nil, fun key => by simp [emitChains, keyed], fun p => by
      simp [emitChains, keyed, released]⟩
  | cons pc completed ih =>
    obtain ⟨hpc, hrest⟩ := forall_mem_cons.mp hfound
    obtain ⟨rule, hfind⟩ := Option.isSome_iff_exists.mp hpc
    obtain ⟨hheld, hfree⟩ := emitChain_eq hfind now (pick k) s
    obtain ⟨hemitted, hcooldowns, hpending⟩ :=
      ih hrest (k + 1) (emitChain rules now (pick k) s pc).1
    rw [emitChains, keyed, released]
    cases hkey : s.chainCooldowns (cooldownKey pc.ruleId
        (primaryEntity (pick k) pc.matchedEntities)) with
    | some t =>
      rw [hheld (by rw [hkey]; rfl)] at hemitted hcooldowns hpending ⊢
      rw [if_pos Option.isSome_some]
      refine ⟨hemitted, fun key => (hcooldowns key).trans ?_, hpending⟩
      refine if_congr (and_congr_right fun hnone => ?_) rfl rfl
      rw [map_cons, mem_cons, or_iff_right]
      rintro rfl
      rw [hkey] at hnone
      cases hnone
    | none =>
      obtain ⟨hremoved, hcool, hout⟩ := hfree hkey
      rw [if_neg (by simp), hout]
      rw [hcool] at hemitted hcooldowns hpending
      refine ⟨.cons ⟨rule, s.nextChainId, hfind, rfl⟩ hemitted, fun key => ?_, fun p => ?_⟩
      · rw [hcooldowns key]
        by_cases hsame : key = cooldownKey pc.ruleId
            (primaryEntity (pick k) pc.matchedEntities)
        · subst hsame
          rw [update_self, if_neg (by simp), if_pos ⟨hkey, mem_cons_self ..⟩]
        · rw [update_of_ne hsame]
          simp only [map_cons, mem_cons, hsame, false_or]
      · rw [hpending, hremoved, mem_filter, decide_eq_true_eq, forall_mem_cons, and_assoc]

/-- A completed chain is one of a rule, and has the event that completed it. -/
theorem newlyCompleted_spec {event : CorrelationEvent} {pc : PendingChain}
    (h : pc ∈ newlyCompleted rules s event) :
    (rules.find? (·.id = pc.ruleId)).isSome = true ∧ event ∈ pc.matchedEvents := by
  obtain ⟨pc₀, -, -, hadv⟩ := mem_newlyCompleted h
  rcases advanceChain_cases rules event pc₀ with hsame | ⟨rule, stage, hfind, -, -, hpass⟩
  · rw [hsame] at hadv
    cases hadv
  · rw [hpass] at hadv
    obtain ⟨rfl, -⟩ := Prod.mk.inj hadv
    rw [hfind]
    exact ⟨rfl, mem_append_right _ (mem_singleton_self event)⟩

variable (rules) in
/-- The chains an observation completes, with their keys. -/
def completions (s : CorrelationEngine) (op : Observation) : List (String × PendingChain) :=
  keyed op.pick 0 (newlyCompleted rules s op.event)

variable (rules) in
/-- The chain is emitted by the observation. -/
def EmittedAt (s : CorrelationEngine) (op : Observation) (entry : String × PendingChain) : Prop :=
  Released (beforeEmit rules s op.event).chainCooldowns (completions rules s op) entry

theorem EmittedAt.mem (h : EmittedAt rules s op entry) : entry ∈ completions rules s op := by
  obtain ⟨pre, post, hsplit, -⟩ := h
  rw [hsplit]
  exact mem_append_right _ (mem_cons_self ..)

theorem emission_spec (s : CorrelationEngine) (op : Observation) :
    List.Forall₂ (EmittedAs rules op.event.ts)
      (released (beforeEmit rules s op.event).chainCooldowns (op.event.ts + seconds 600)
        (completions rules s op))
      (emission rules s op).2 :=
  (emitChains_spec (fun _ h => (newlyCompleted_spec h).1) 0 _).1

theorem chainCooldowns_emission (s : CorrelationEngine) (op : Observation) (key : String) :
    (emission rules s op).1.chainCooldowns key =
      if (beforeEmit rules s op.event).chainCooldowns key = none ∧
          key ∈ (completions rules s op).map Prod.fst then
        some (op.event.ts + seconds 600)
      else (beforeEmit rules s op.event).chainCooldowns key :=
  (emitChains_spec (fun _ h => (newlyCompleted_spec h).1) 0 _).2.1 key

theorem mem_pendingChains_emission {p : PendingChain} :
    p ∈ (emission rules s op).1.pendingChains ↔ p ∈ (advanced rules s op.event).map Prod.fst ∧
      ∀ entry, EmittedAt rules s op entry →
        p.ruleId ≠ entry.2.ruleId ∨ p.startedAt ≠ entry.2.startedAt := by
  simp only [EmittedAt, ← @mem_released_iff _ (op.event.ts + seconds 600)]
  exact (emitChains_spec (fun _ h => (newlyCompleted_spec h).1) 0 _).2.2 p

theorem exists_of_forall₂ {α β : Type*} {R : α → β → Prop} {l : List α} {l' : List β}
    (h : List.Forall₂ R l l') {a : α} (ha : a ∈ l) : ∃ b ∈ l', R a b := by
  induction h with
  | nil => cases ha
  | cons hab _ ih =>
    rcases mem_cons.mp ha with rfl | ha
    · exact ⟨_, mem_cons_self .., hab⟩
    · obtain ⟨b, hb, hR⟩ := ih ha
      exact ⟨b, mem_cons_of_mem _ hb, hR⟩

theorem exists_of_mem_emission (h : chain ∈ (emission rules s op).2) :
    ∃ entry, EmittedAt rules s op entry ∧ EmittedAs rules op.event.ts entry chain := by
  obtain ⟨entry, hentry, hchain⟩ := exists_of_forall₂ (emission_spec s op).flip h
  exact ⟨entry, mem_released_iff.mp hentry, hchain⟩

theorem exists_mem_emission (h : EmittedAt rules s op entry) :
    ∃ chain ∈ (emission rules s op).2, EmittedAs rules op.event.ts entry chain :=
  exists_of_forall₂ (emission_spec s op) (mem_released_iff.mpr h)

end Loop

end Innerwarden.Correlation

import Innerwarden.Correlation.Soundness

/-!
# Chains are detected

When the events of an entity pass the stages of a rule in time, a chain of the rule and the
entity is emitted.  `Tracks` says that the engine follows the entity.  One observation keeps
it, or the chain has been reported (`Tracks.step`), before if a cooldown holds it back
(`cooled_exec`).

A completed chain is removed together with every chain of its rule that started at the same
instant, whatever its entity.  `KeepsChain` rules this out.
-/

namespace Innerwarden.Correlation

open StateMachine List Option

/-! ## Conditions -/

/-- Every event carries exactly one entity. -/
def Single (events : List CorrelationEvent) : Prop := ∀ e ∈ events, ∃ y, e.entities = [y]

/-- No other rule shares a key of the table of cooldowns with the rule and the entity. -/
def DistinctKeys (rules : List CorrelationRule) (R : CorrelationRule) (x : EntityRef)
    (events : List CorrelationEvent) : Prop :=
  ∀ r ∈ rules, r.id ≠ R.id → ∀ e ∈ events, ∀ y ∈ e.entities,
    cooldownKey r.id (entityKey y) ≠ cooldownKey R.id (entityKey x)

/-- `observe` does not panic on the rule, and its window is not cut. -/
def Startable (r : CorrelationRule) : Prop :=
  r.stages ≠ [] ∧ r.windowSecs.toNat ≤ 9223372036854775

/-- The event completes a pending chain of the rule. -/
def Completes (R : CorrelationRule) (event : CorrelationEvent) (pc : PendingChain) : Prop :=
  pc.ruleId = R.id ∧ event.ts < pc.expiresAt ∧ R.stages.length = pc.nextStage + 1 ∧
    ∃ stage ∈ R.stages[pc.nextStage]?, matchesStage stage event pc.matchedEntities R.id = true

instance (R : CorrelationRule) (event : CorrelationEvent) (pc : PendingChain) :
    Decidable (Completes R event pc) :=
  inferInstanceAs (Decidable (_ ∧ _ ∧ _ ∧ _))

/-- The event completes no chain of the rule for another entity that started together with
a pending one for this entity. -/
def KeepsChain (R : CorrelationRule) (x : EntityRef) :
    Option CorrelationEngine → Observation → Prop
  | none, _ => True
  | some s, op => ∀ pc ∈ s.pendingChains, Completes R op.event pc →
      entityKey x ∉ pc.matchedEntities →
      ∀ c ∈ s.pendingChains, c.ruleId = R.id → entityKey x ∈ c.matchedEntities →
        c.startedAt ≠ pc.startedAt

instance (R : CorrelationRule) (x : EntityRef) :
    ∀ (s : Option CorrelationEngine) (op : Observation), Decidable (KeepsChain R x s op)
  | none, _ => inferInstanceAs (Decidable True)
  | some s, _ => inferInstanceAs (Decidable (∀ pc ∈ s.pendingChains, _))

/-- A chain of the rule is emitted, and all its events carry the entity. -/
def Reported (R : CorrelationRule) (x : EntityRef) (chains : List AttackChain) : Prop :=
  ∃ chain ∈ chains, chain.ruleId = R.id ∧ ∀ e ∈ chain.events, e.entities = [x]

section Detection

variable {rules : List CorrelationRule} {R : CorrelationRule} {x : EntityRef}
  {history : List CorrelationEvent}

/-! ## The entity of a chain -/

variable {events : List CorrelationEvent} {event : CorrelationEvent} {pc : PendingChain}
  {rule : CorrelationRule}

theorem Single.of_sublist (h : Single history) (hsub : events.Sublist history) : Single events :=
  fun e he => h e (hsub.subset he)

theorem Follows.of_concat {ruleId : String} {stages : List RuleStage}
    (h : Follows ruleId stages (events ++ [event])) :
    Follows ruleId stages events ∧
      ∃ stage, stages[events.length]? = some stage ∧ StageFits ruleId stage events event := by
  constructor
  · intro i e he
    have hlt := (List.getElem?_eq_some_iff.mp he).1
    obtain ⟨stage, hstage, hfits⟩ := h i e (by rw [getElem?_append_left hlt, he])
    rw [take_append_of_le_length hlt.le] at hfits
    exact ⟨stage, hstage, hfits⟩
  · obtain ⟨stage, hstage, hfits⟩ := h events.length event getElem?_concat_length
    rw [take_left] at hfits
    exact ⟨stage, hstage, hfits⟩

/-- When every later stage asks for a shared entity, all events carry the same one. -/
theorem same_entity (hsingle : Single events) (hfollows : Follows R.id R.stages events)
    (hmust : ∀ stage ∈ R.stages.tail, stage.entityMustMatch = true) {y : EntityRef}
    (hy : ∃ e ∈ events, y ∈ e.entities) : ∀ e ∈ events, e.entities = [y] := by
  induction events using List.reverseRecOn generalizing y with
  | nil =>
    obtain ⟨e, he, -⟩ := hy
    nomatch he
  | append_singleton events event ih =>
    obtain ⟨hbefore, stage, hstage, -, -, hshare⟩ := hfollows.of_concat
    have hsingle' : Single events := hsingle.of_sublist (sublist_append_left ..)
    obtain ⟨z, hz⟩ := hsingle event (mem_append_right _ (mem_singleton_self _))
    -- the events before the last one share its entity, when there are any
    have hsame : ∀ e ∈ events, e.entities = [z] := by
      intro e he
      have hpos : 0 < events.length := length_pos_of_mem he
      have htail : stage ∈ R.stages.tail := by
        rw [← Nat.succ_pred_eq_of_pos hpos] at hstage
        exact mem_of_getElem? (by rw [getElem?_tail]; exact hstage)
      rcases hshare (hmust stage htail) with ⟨e', he', w, hw, hw'⟩ | hnone
      · rw [hz, mem_singleton] at hw'
        subst hw'
        exact ih hsingle' hbefore ⟨e', he', hw⟩ e he
      · obtain ⟨w, hw⟩ := hsingle' e he
        rw [hnone e he] at hw
        nomatch hw
    have hall : ∀ e ∈ events ++ [event], e.entities = [z] := by
      intro e he
      rcases mem_append.mp he with he | he
      · exact hsame e he
      · rw [mem_singleton.mp he, hz]
    obtain ⟨e, he, hye⟩ := hy
    rw [hall e he, mem_singleton] at hye
    rwa [hye]

/-- The assumptions on the rule and the entity that are watched, and on the events. -/
structure Watched (rules : List CorrelationRule) (R : CorrelationRule) (x : EntityRef)
    (history : List CorrelationEvent) : Prop where
  nodup : (rules.map CorrelationRule.id).Nodup
  mem : R ∈ rules
  must : ∀ stage ∈ R.stages.tail, stage.entityMustMatch = true
  single : Single history
  keys : DistinctKeys rules R x history

theorem Watched.of_subset {history' : List CorrelationEvent} (h : Watched rules R x history)
    (hsub : history' ⊆ history) : Watched rules R x history' :=
  ⟨h.nodup, h.mem, h.must, fun e he => h.single e (hsub he),
    fun r hr hne e he => h.keys r hr hne e (hsub he)⟩

theorem Progress.carries (hw : Watched rules R x history) (h : Progress R history pc)
    (hx : entityKey x ∈ pc.matchedEntities) : ∀ e ∈ pc.matchedEvents, e.entities = [x] := by
  obtain ⟨e, he, y, hy, hkey⟩ := (h.entities _).mp hx
  obtain rfl := entityKey_injective hkey
  exact same_entity (hw.single.of_sublist h.observed) h.follows hw.must ⟨e, he, hy⟩

theorem Progress.entities_ne_nil (hsingle : Single history) (h : Progress rule history pc) :
    pc.matchedEntities ≠ [] := by
  obtain ⟨e, he⟩ := exists_mem_of_ne_nil _ h.ne_nil
  obtain ⟨y, hy⟩ := hsingle e (h.observed.subset he)
  exact ne_nil_of_mem ((h.entities _).mpr ⟨e, he, y, by rw [hy]; exact mem_singleton_self _, rfl⟩)

theorem primaryEntity_mem {entities : List String} (hne : entities ≠ []) (pick : Nat) :
    primaryEntity pick entities ∈ entities := by
  have hlt := Nat.mod_lt pick (length_pos_of_ne_nil hne)
  rw [primaryEntity, getD_eq_getElem?_getD, getElem?_eq_getElem hlt, getD_some]
  exact getElem_mem hlt

theorem cooldownKey_inj {ruleId a b : String} (h : cooldownKey ruleId a = cooldownKey ruleId b) :
    a = b := by
  have hlist := congrArg String.toList h
  simpa [cooldownKey, String.toList_inj] using hlist

theorem entity_of_cooldownKey (hw : Watched rules R x history) (hrule : rule ∈ rules)
    (h : Progress rule history pc) {pick : Nat}
    (hkey : cooldownKey pc.ruleId (primaryEntity pick pc.matchedEntities) =
      cooldownKey R.id (entityKey x)) : pc.ruleId = R.id ∧ entityKey x ∈ pc.matchedEntities := by
  have hprimary := primaryEntity_mem (h.entities_ne_nil hw.single) pick
  have hid : pc.ruleId = R.id := by
    by_contra hne
    obtain ⟨e, he, y, hy, hentity⟩ := (h.entities _).mp hprimary
    rw [h.ruleId] at hne hkey
    rw [← hentity] at hkey
    exact hw.keys rule hrule hne e (h.observed.subset he) y hy hkey
  rw [hid] at hkey
  rw [cooldownKey_inj hkey] at hprimary
  exact ⟨hid, hprimary⟩

theorem cooldownKey_of_carries (hw : Watched rules R x history) (h : Progress R history pc)
    (hx : entityKey x ∈ pc.matchedEntities) (pick : Nat) :
    cooldownKey pc.ruleId (primaryEntity pick pc.matchedEntities) =
      cooldownKey R.id (entityKey x) := by
  have hprimary := primaryEntity_mem (ne_nil_of_mem hx) pick
  obtain ⟨e, he, y, hy, hentity⟩ := (h.entities _).mp hprimary
  rw [h.carries hw hx e he, mem_singleton] at hy
  rw [← hentity, hy, h.ruleId]

/-! ## One observation -/

variable {s t : CorrelationEngine} {op : Observation}

/-- The engine follows the entity through the rule: a pending chain that started at the
instant has passed so many stages at least, and has not been completed. -/
def Tracks (R : CorrelationRule) (x : EntityRef) (start : DateTime) (i : Nat)
    (s : CorrelationEngine) : Prop :=
  ∃ c ∈ s.pendingChains, c.ruleId = R.id ∧ entityKey x ∈ c.matchedEntities ∧
    c.startedAt = start ∧ c.expiresAt = start + seconds R.windowSecs.toNat ∧
    i ≤ c.nextStage ∧ c.nextStage < R.stages.length

theorem Tracks.lt_length {start : DateTime} {i : Nat} (h : Tracks R x start i s) :
    i < R.stages.length := by
  obtain ⟨c, -, -, -, -, -, hi, hlt⟩ := h
  exact Nat.lt_of_le_of_lt hi hlt

def Passes (R : CorrelationRule) (x : EntityRef) (stage : RuleStage) (event : CorrelationEvent) :
    Prop :=
  stageMatches stage event = true ∧ eventCommIsSuppressed R.id event = false ∧
    event.entities = [x]

theorem matchesStage_of_passes {stage : RuleStage} (h : Passes R x stage event)
    {known : List String} (hknown : known = [] ∨ entityKey x ∈ known) :
    matchesStage stage event known R.id = true := by
  obtain ⟨hmatch, hcomm, hentities⟩ := h
  rcases hknown with rfl | hmem
  · simp [matchesStage, hmatch, hcomm]
  · simp [matchesStage, hmatch, hcomm, hentities, hmem]

@[simp] theorem ruleId_advanceChain (event : CorrelationEvent) (pc : PendingChain) :
    (advanceChain rules event pc).1.ruleId = pc.ruleId := by
  rcases advanceChain_cases rules event pc with h | ⟨_, _, -, -, -, h⟩ <;> rw [h]

@[simp] theorem startedAt_advanceChain (event : CorrelationEvent) (pc : PendingChain) :
    (advanceChain rules event pc).1.startedAt = pc.startedAt := by
  rcases advanceChain_cases rules event pc with h | ⟨_, _, -, -, -, h⟩ <;> rw [h]

@[simp] theorem expiresAt_advanceChain (event : CorrelationEvent) (pc : PendingChain) :
    (advanceChain rules event pc).1.expiresAt = pc.expiresAt := by
  rcases advanceChain_cases rules event pc with h | ⟨_, _, -, -, -, h⟩ <;> rw [h]

theorem mem_entities_advanceChain {k : String} (h : k ∈ pc.matchedEntities) :
    k ∈ (advanceChain rules event pc).1.matchedEntities := by
  rcases advanceChain_cases rules event pc with hadv | ⟨_, _, -, -, -, hadv⟩
  · rw [hadv]
    exact h
  · rw [hadv]
    exact mem_addEntities.mpr (Or.inl h)

/-- A chain of the watched rule passes at most one stage, and is completed with the last. -/
theorem nextStage_advanceChain (event : CorrelationEvent) (hw : Watched rules R x history)
    {c : PendingChain} (hid : c.ruleId = R.id) (hx : entityKey x ∈ c.matchedEntities)
    (hlt : c.nextStage < R.stages.length) :
    c.nextStage ≤ (advanceChain rules event c).1.nextStage ∧
      ((advanceChain rules event c).2 = false →
        (advanceChain rules event c).1.nextStage < R.stages.length) ∧
      ∀ stage, R.stages[c.nextStage]? = some stage → Passes R x stage event →
        (advanceChain rules event c).1.nextStage = c.nextStage + 1 := by
  have hfind : rules.find? (·.id = c.ruleId) = some R := hid ▸ find_rule hw.nodup hw.mem
  obtain ⟨stage, hstage⟩ : ∃ stage, R.stages[c.nextStage]? = some stage :=
    ⟨_, getElem?_eq_getElem hlt⟩
  rw [advanceChain, hfind]
  dsimp only
  rw [hstage]
  dsimp only
  split
  next hmatch =>
    exact ⟨Nat.le_succ _, fun h => Nat.lt_of_not_le (of_decide_eq_false h), fun _ _ _ => rfl⟩
  next hmatch =>
    refine ⟨Nat.le_refl _, fun _ => hlt, fun stage' hstage' hpasses => absurd ?_ hmatch⟩
    cases hstage'
    rw [hid]
    exact matchesStage_of_passes hpasses (Or.inr hx)

theorem progress_newlyCompleted (hnodup : (rules.map CorrelationRule.id).Nodup)
    (hs : AllProgress rules history s.pendingChains) (event : CorrelationEvent) :
    AllProgress rules (history ++ [event]) (newlyCompleted rules s event) := by
  intro pc hpc
  obtain ⟨pc₀, hpc₀, -, hadv⟩ := mem_newlyCompleted hpc
  obtain ⟨rule, hrule, hprogress⟩ := hs pc₀ hpc₀
  have hafter := (hprogress.advance hnodup hrule event).1
  rw [hadv] at hafter
  exact ⟨rule, hrule, hafter⟩

theorem completes_of_advanceChain (hw : Watched rules R x history) {pc₀ : PendingChain}
    (hid : pc₀.ruleId = R.id) (hlive : event.ts < pc₀.expiresAt)
    (hadv : advanceChain rules event pc₀ = (pc, true)) : Completes R event pc₀ := by
  rcases advanceChain_cases rules event pc₀ with h | ⟨rule, stage, hfind, hstage, hmatch, h⟩
  · rw [h] at hadv
    nomatch hadv
  · rw [hid, find_rule hw.nodup hw.mem] at hfind
    cases hfind
    rw [h] at hadv
    have hlt := (List.getElem?_eq_some_iff.mp hstage).1
    have hle := of_decide_eq_true (congrArg Prod.snd hadv)
    exact ⟨hid, hlive, Nat.le_antisymm hle hlt, stage, hstage, hid ▸ hmatch⟩

theorem eq_of_progress (hw : Watched rules R x history) (hrule : rule ∈ rules)
    (h : Progress rule events pc) (hid : pc.ruleId = R.id) : rule = R :=
  inj_on_of_nodup_map hw.nodup hrule hw.mem (h.ruleId ▸ hid)

section Step

variable (hw : Watched rules R x (history ++ [op.event]))
  (hs : AllProgress rules history s.pendingChains)

include hw hs

theorem reported_of_emittedAt {entry : String × PendingChain} (h : EmittedAt rules s op entry)
    (hid : entry.2.ruleId = R.id) (hx : entityKey x ∈ entry.2.matchedEntities) :
    Reported R x (observe rules s op).2 := by
  obtain ⟨rule, hrule, hprogress⟩ :=
    progress_newlyCompleted hw.nodup hs op.event _ (mem_keyed h.mem).1
  obtain rfl := eq_of_progress hw hrule hprogress hid
  obtain ⟨chain, hchain, hemitted⟩ := exists_mem_emission h
  refine ⟨chain, hchain, hemitted.ruleId.trans hid, fun e he => ?_⟩
  exact hprogress.carries hw hx e (hemitted.perm.mem_iff.mp he)

theorem reported_of_key
    (hmem : cooldownKey R.id (entityKey x) ∈ (completions rules s op).map Prod.fst)
    (hfree : (beforeEmit rules s op.event).chainCooldowns (cooldownKey R.id (entityKey x)) = none) :
    Reported R x (observe rules s op).2 := by
  obtain ⟨entry, hkey, hentry⟩ := exists_released hmem hfree
  obtain ⟨hcompleted, n, hn⟩ := mem_keyed (EmittedAt.mem hentry)
  obtain ⟨rule, hrule, hprogress⟩ :=
    progress_newlyCompleted hw.nodup hs op.event _ hcompleted
  obtain ⟨hid, hx⟩ := entity_of_cooldownKey hw hrule hprogress (hn.symm.trans hkey)
  exact reported_of_emittedAt hw hs hentry hid hx

/-- A chain that is removed with one that is emitted: the other one carries the same entity. -/
theorem reported_of_removes (hkeeps : KeepsChain R x (some s) op) {c : PendingChain}
    (hc : c ∈ s.pendingChains) (hid : c.ruleId = R.id) (hx : entityKey x ∈ c.matchedEntities)
    {entry : String × PendingChain} (hentry : EmittedAt rules s op entry)
    (hentryid : c.ruleId = entry.2.ruleId) (hstart : c.startedAt = entry.2.startedAt) :
    Reported R x (observe rules s op).2 := by
  obtain ⟨pc₀, hpc₀, hlive₀, hadv⟩ := mem_newlyCompleted (mem_keyed hentry.mem).1
  have hpc : (advanceChain rules op.event pc₀).1 = entry.2 := congrArg Prod.fst hadv
  have hid₀ : pc₀.ruleId = R.id := by
    rw [← hid, hentryid, ← hpc, ruleId_advanceChain]
  have hx₀ : entityKey x ∈ pc₀.matchedEntities := by
    by_contra hx₀
    refine hkeeps pc₀ hpc₀ (completes_of_advanceChain hw hid₀ hlive₀ hadv) hx₀ c hc hid hx ?_
    rw [hstart, ← hpc, startedAt_advanceChain]
  refine reported_of_emittedAt hw hs hentry (hentryid.symm.trans hid) ?_
  rw [← hpc]
  exact mem_entities_advanceChain hx₀

/-- One observation: the chain is reported, or held back by a cooldown, or still followed. -/
theorem Tracks.step {start : DateTime} {i : Nat} (h : Tracks R x start i s)
    (hkeeps : KeepsChain R x (some s) op)
    (hlive : op.event.ts < start + seconds R.windowSecs.toNat)
    (ht : (observe rules s op).1 = some t) :
    Reported R x (observe rules s op).2 ∨
    (∃ expires, s.chainCooldowns (cooldownKey R.id (entityKey x)) = some expires ∧
      op.event.ts < expires) ∨
    (Tracks R x start i t ∧ ∀ stage, R.stages[i]? = some stage → Passes R x stage op.event →
      Tracks R x start (i + 1) t) := by
  obtain ⟨c, hc, hid, hx, hstart, hexpires, hi, hlt⟩ := h
  obtain ⟨hmono, hless, hpass⟩ := nextStage_advanceChain op.event hw hid hx hlt
  have hmem : advanceChain rules op.event c ∈ advanced rules s op.event :=
    mem_map_of_mem (mem_filter.mpr ⟨hc, decide_eq_true (hexpires ▸ hlive)⟩)
  cases hdone : (advanceChain rules op.event c).2 with
  | true =>
    have hpc : (advanceChain rules op.event c).1 ∈ newlyCompleted rules s op.event :=
      mem_map_of_mem (mem_filter.mpr ⟨hmem, hdone⟩)
    obtain ⟨rule, hrule, hprogress⟩ := progress_newlyCompleted hw.nodup hs op.event _ hpc
    obtain rfl := eq_of_progress hw hrule hprogress (by rw [ruleId_advanceChain, hid])
    obtain ⟨n, hkeyed⟩ := exists_mem_keyed op.pick 0 hpc
    rw [cooldownKey_of_carries hw hprogress (mem_entities_advanceChain hx)] at hkeyed
    cases hcool : (beforeEmit rules s op.event).chainCooldowns
        (cooldownKey rule.id (entityKey x)) with
    | none => exact Or.inl (reported_of_key hw hs (mem_map_of_mem hkeyed) hcool)
    | some expires =>
      obtain ⟨hsome, hlater⟩ := filter_eq_some_iff.mp hcool
      exact Or.inr (Or.inl ⟨expires, hsome, of_decide_eq_true hlater⟩)
  | false =>
    by_cases hremoved : ∃ entry, EmittedAt rules s op entry ∧ c.ruleId = entry.2.ruleId ∧
        c.startedAt = entry.2.startedAt
    · obtain ⟨entry, hentry, hentryid, hentrystart⟩ := hremoved
      exact Or.inl (reported_of_removes hw hs hkeeps hc hid hx hentry hentryid hentrystart)
    · have hkept : (advanceChain rules op.event c).1 ∈ (emission rules s op).1.pendingChains := by
        refine mem_pendingChains_emission.mpr ⟨mem_map_of_mem hmem, fun entry hentry => ?_⟩
        rw [ruleId_advanceChain, startedAt_advanceChain]
        exact not_and_or.mp fun hsame => hremoved ⟨entry, hentry, hsame⟩
      obtain ⟨started, -, hpending, -⟩ := observe_eq_some ht
      have htracks : ∀ j ≤ (advanceChain rules op.event c).1.nextStage, Tracks R x start j t :=
        fun j hj => ⟨_, hpending ▸ mem_append_left _ hkept, by rw [ruleId_advanceChain, hid],
          mem_entities_advanceChain hx, by rw [startedAt_advanceChain, hstart],
          by rw [expiresAt_advanceChain, hexpires], hj, hless hdone⟩
      refine Or.inr (Or.inr ⟨htracks i (hi.trans hmono), fun stage hstage hpasses => ?_⟩)
      refine htracks (i + 1) ?_
      rcases Nat.lt_or_eq_of_le hi with hlt' | rfl
      · exact Nat.le_trans hlt' hmono
      · rw [hpass stage hstage hpasses]

theorem cooldown_observe {expires : DateTime}
    (h : (emission rules s op).1.chainCooldowns (cooldownKey R.id (entityKey x)) = some expires) :
    s.chainCooldowns (cooldownKey R.id (entityKey x)) = some expires ∨
      expires = op.event.ts + seconds 600 ∧ Reported R x (observe rules s op).2 := by
  rw [chainCooldowns_emission] at h
  split at h
  case isTrue hnew =>
    exact Or.inr ⟨(Option.some.inj h).symm, reported_of_key hw hs hnew.2 hnew.1⟩
  case isFalse => exact Or.inl (filter_eq_some_iff.mp h).1

end Step

/-! ## Runs -/

theorem windowDuration_eq {windowSecs : UInt64} (h : windowSecs.toNat ≤ 9223372036854775) :
    windowDuration windowSecs = some (seconds windowSecs.toNat) := by
  have hcast : windowSecs.toInt64.toInt = windowSecs.toNat :=
    BitVec.toInt_eq_toNat_of_lt (by rw [UInt64.toBitVec_toInt64, UInt64.toNat_toBitVec]; omega)
  rw [windowDuration, hcast, if_pos (by omega)]

/-- With startable rules `observe` does not panic. -/
theorem observe_isSome (hstart : ∀ r ∈ rules, Startable r) (s : CorrelationEngine)
    (op : Observation) : (observe rules s op).1.isSome := by
  have hmapM : ∀ {rs : List CorrelationRule}, (∀ r ∈ rs, Startable r) →
      (rs.mapM (startChain op.event)).isSome := by
    intro rs hrs
    induction rs with
    | nil => rfl
    | cons r rs ih =>
      obtain ⟨rest, hrest⟩ := isSome_iff_exists.mp
        (ih fun r hr => hrs r (mem_cons_of_mem _ hr))
      obtain ⟨hne, hwindow⟩ := hrs r (mem_cons_self ..)
      have hr : (startChain op.event r).isSome := by
        unfold startChain
        split
        next h => exact absurd h hne
        next => split <;> simp [windowDuration_eq hwindow]
      obtain ⟨o, ho⟩ := isSome_iff_exists.mp hr
      rw [mapM_cons, ho, hrest]
      rfl
  rw [observe, isSome_map]
  exact hmapM hstart

/-- The engine follows an entity from the event that starts the chain. -/
theorem tracks_start (hmem : R ∈ rules) (hstart : Startable R) (hlength : 2 ≤ R.stages.length)
    {first : RuleStage} (hfirst : R.stages[0]? = some first) (hpasses : Passes R x first op.event)
    (ht : (observe rules s op).1 = some t) : Tracks R x op.event.ts 1 t := by
  obtain ⟨started, hstarted, hpending, -⟩ := observe_eq_some ht
  have hchain : startChain op.event R =
      some (some (.new R op.event (seconds R.windowSecs.toNat))) := by
    unfold startChain
    split
    next h => exact absurd h hstart.1
    next head rest h =>
      rw [h] at hfirst
      cases hfirst
      rw [if_pos (matchesStage_of_passes hpasses (Or.inl rfl)), windowDuration_eq hstart.2]
      rfl
  refine ⟨.new R op.event (seconds R.windowSecs.toNat), ?_, rfl, ?_, rfl, rfl, Nat.le_refl 1,
    hlength⟩
  · rw [hpending]
    exact mem_append_right _ ((mem_started_iff hstarted).mpr ⟨R, hmem, hchain⟩)
  · exact mem_addEntities.mpr (Or.inr ⟨x, by rw [hpasses.2.2]; exact mem_singleton_self _, rfl⟩)

variable (rules) in
def emittedBy (pre : List Observation) (op : Observation) : List AttackChain :=
  ((correlationMachine rules).step
    ((correlationMachine rules).exec (correlationMachine rules).init pre) op).2

/-- A cooldown of the watched rule and entity was set by a report. -/
theorem cooled_exec (ops : List Observation)
    (hw : Watched rules R x (ops.map Observation.event))
    (hs : (correlationMachine rules).exec (correlationMachine rules).init ops = some s)
    {expires : DateTime}
    (hcool : s.chainCooldowns (cooldownKey R.id (entityKey x)) = some expires) :
    Occurred (fun pre op => Reported R x (emittedBy rules pre op) ∧
      expires = op.event.ts + seconds 600) ops := by
  induction ops using List.reverseRecOn generalizing s with
  | nil =>
    cases hs
    nomatch hcool
  | append_singleton ops op ih =>
    rw [map_append, map_singleton] at hw
    obtain ⟨s₀, hbefore, hobserve⟩ := exec_concat_eq_some hs
    obtain ⟨started, -, -, hcooldowns⟩ := observe_eq_some hobserve
    rw [hcooldowns] at hcool
    rw [occurred_concat]
    rcases cooldown_observe hw (progress_exec hw.nodup ops hbefore) hcool with
      hold | ⟨rfl, hreported⟩
    · exact Or.inl (ih (hw.of_subset (subset_append_left ..)) hbefore hold)
    · right
      refine ⟨?_, rfl⟩
      rw [emittedBy, hbefore]
      exact hreported

variable (rules R x) in
/-- A report of the rule and the entity at an observation within an interval. -/
def ReportedWithin (lo hi : DateTime) (pre : List Observation) (op : Observation) : Prop :=
  Reported R x (emittedBy rules pre op) ∧ lo ≤ op.event.ts ∧ op.event.ts ≤ hi

/-- A chain that is held back by a cooldown was reported at most ten minutes before. -/
theorem occurred_of_cooldown {pre rest : List Observation} {start stop : DateTime}
    (hw : Watched rules R x (pre.map Observation.event))
    (hmono : (pre ++ op :: rest).Pairwise fun a b => a.event.ts ≤ b.event.ts)
    (hs : (correlationMachine rules).exec (correlationMachine rules).init pre = some s)
    {expires : DateTime}
    (hcool : s.chainCooldowns (cooldownKey R.id (entityKey x)) = some expires)
    (hlater : op.event.ts < expires) (hstart : start ≤ op.event.ts) (hstop : op.event.ts ≤ stop) :
    Occurred (ReportedWithin rules R x (start - seconds 600) stop) (pre ++ op :: rest) := by
  obtain ⟨pre', op', post', rfl, hreported, rfl⟩ := cooled_exec pre hw hs hcool
  have hle : op'.event.ts ≤ op.event.ts :=
    (pairwise_append.mp hmono).2.2 op' (by simp) op (mem_cons_self ..)
  have hlo : start - seconds 600 ≤ op'.event.ts :=
    Int.sub_right_le_of_le_add (hstart.trans_lt hlater).le
  exact Occurred.append ⟨pre', op', post', rfl, hreported, hlo, hle.trans hstop⟩ _

/-- An entity that is followed and passes the remaining stages in time is reported. -/
theorem occurred_of_tracks {rest : List Observation} {start stop : DateTime}
    (hstart : ∀ r ∈ rules, Startable r) (hwindow : stop < start + seconds R.windowSecs.toNat)
    (hafter : ∀ op ∈ rest, start ≤ op.event.ts) {pre : List Observation}
    (hw : Watched rules R x ((pre ++ rest).map Observation.event))
    (hmono : (pre ++ rest).Pairwise fun a b => a.event.ts ≤ b.event.ts)
    (hmeets : (correlationMachine rules).Meets (KeepsChain R x)
      ((correlationMachine rules).exec (correlationMachine rules).init pre) rest)
    (hs : (correlationMachine rules).exec (correlationMachine rules).init pre = some s) {i : Nat}
    (htracks : Tracks R x start i s) {found : List Observation}
    (hfound : List.Forall₂ (fun stage op => Passes R x stage op.event) (R.stages.drop i) found)
    (hsub : found.Sublist rest) (hstop : ∀ op ∈ found, op.event.ts ≤ stop) :
    Occurred (ReportedWithin rules R x (start - seconds 600) stop) (pre ++ rest) := by
  induction rest generalizing pre s i found with
  | nil =>
    rw [sublist_nil.mp hsub, forall₂_nil_right_iff, drop_eq_nil_iff] at hfound
    exact absurd hfound (Nat.not_le_of_lt htracks.lt_length)
  | cons op rest ih =>
    have hfound' := hfound
    rw [drop_eq_getElem_cons htracks.lt_length] at hfound'
    obtain ⟨next, found, hpasses, hlast, rfl⟩ := forall₂_cons_left_iff.mp hfound'
    -- the next event that is needed is this one, or comes later
    have hnext : op.event.ts ≤ next.event.ts := by
      rcases mem_cons.mp (hsub.subset (mem_cons_self ..)) with rfl | hmem
      · exact le_rfl
      · exact rel_of_pairwise_cons (pairwise_append.mp hmono).2.1 hmem
    have hop : op.event.ts ≤ stop := hnext.trans (hstop next (mem_cons_self ..))
    have hbegin : start ≤ op.event.ts := hafter op (mem_cons_self ..)
    obtain ⟨t, ht⟩ := isSome_iff_exists.mp (observe_isSome hstart s op)
    have hw' : Watched rules R x (pre.map Observation.event ++ [op.event]) := by
      refine hw.of_subset ?_
      simp
    obtain ⟨hkeeps, hmeets⟩ := hmeets
    rw [hs] at hkeeps hmeets
    rcases htracks.step hw' (progress_exec hw.nodup pre hs) hkeeps (hop.trans_lt hwindow) ht
      with hreported | ⟨expires, hcool, hlater⟩ | ⟨hsame, hpassed⟩
    · refine ⟨pre, op, rest, rfl, ?_, (Int.sub_le_self _ (by decide)).trans hbegin, hop⟩
      rw [emittedBy, hs]
      exact hreported
    · exact occurred_of_cooldown (hw'.of_subset (subset_append_left ..)) hmono hs hcool
        hlater hbegin hop
    · have hexec : (correlationMachine rules).exec (correlationMachine rules).init (pre ++ [op]) =
          some t := by
        rw [exec_append, hs]
        exact ht
      rw [append_cons] at hw hmono ⊢
      have hafter' : ∀ op ∈ rest, start ≤ op.event.ts :=
        fun op hop => hafter op (mem_cons_of_mem _ hop)
      have hmeets' : (correlationMachine rules).Meets (KeepsChain R x)
          ((correlationMachine rules).exec (correlationMachine rules).init (pre ++ [op])) rest := by
        rw [hexec]
        exact ht ▸ hmeets
      cases hsub with
      | cons _ hsub => exact ih hafter' hw hmono hmeets' hexec hsame hfound hsub hstop
      | cons_cons _ hsub =>
        have hnow := hpassed _ (getElem?_eq_getElem htracks.lt_length) hpasses
        exact ih hafter' hw hmono hmeets' hexec hnow hlast hsub
          fun op hop => hstop op (mem_cons_of_mem _ hop)

theorem exec_isSome (hstart : ∀ r ∈ rules, Startable r) (ops : List Observation) :
    ((correlationMachine rules).exec (correlationMachine rules).init ops).isSome := by
  refine exec_invariant (P := fun s => Option.isSome s = true) (fun s op hs => ?_) ops rfl
  cases s with
  | none => nomatch hs
  | some s => exact observe_isSome hstart s op

theorem le_last {found : List Observation} {last : Observation}
    (hmono : found.Pairwise fun a b => a.event.ts ≤ b.event.ts)
    (hlast : found.getLast? = some last) : ∀ op ∈ found, op.event.ts ≤ last.event.ts := by
  obtain ⟨init, rfl⟩ := getLast?_eq_some_iff.mp hlast
  intro op hop
  rcases mem_append.mp hop with hop | hop
  · exact (pairwise_append.mp hmono).2.2 op hop last (mem_singleton_self _)
  · rw [mem_singleton.mp hop]

end Detection

/-! ## Completeness -/

/-- Events of one entity that pass the stages of a rule within its window are detected, in
every run whose observations keep the chains of the entity. -/
theorem chain_detected {rules : List CorrelationRule}
    (hnodup : (rules.map CorrelationRule.id).Nodup) {R : CorrelationRule} (hR : R ∈ rules)
    (hlength : 2 ≤ R.stages.length)
    (hmust : ∀ stage ∈ R.stages.tail, stage.entityMustMatch = true) {x : EntityRef}
    {ops : List Observation} (hmono : ops.Pairwise fun a b => a.event.ts ≤ b.event.ts)
    (hsingle : Single (ops.map Observation.event)) {found : List Observation}
    (hsub : found.Sublist ops)
    (hfound : List.Forall₂ (fun stage op => Passes R x stage op.event) R.stages found)
    {first last : Observation} (hfirst : found.head? = some first)
    (hlast : found.getLast? = some last)
    (hwindow : last.event.ts - first.event.ts < seconds R.windowSecs.toNat)
    (hstart : ∀ r ∈ rules, Startable r)
    (hkeys : DistinctKeys rules R x (ops.map Observation.event))
    (hmeets : (correlationMachine rules).Meets (KeepsChain R x)
      (correlationMachine rules).init ops) :
    Occurred (ReportedWithin rules R x (first.event.ts - seconds 600) last.event.ts) ops := by
  have hw : Watched rules R x (ops.map Observation.event) := ⟨hnodup, hR, hmust, hsingle, hkeys⟩
  have hstop := le_last (hmono.sublist hsub) hlast
  obtain ⟨found, rfl⟩ := head?_eq_some_iff.mp hfirst
  obtain ⟨stage, stages, hpasses, hrest, hstages⟩ := forall₂_cons_right_iff.mp hfound
  -- the run up to the first event, and after it
  obtain ⟨before, after, rfl, hmem, hlater⟩ := cons_sublist_iff.mp hsub
  obtain ⟨pre, between, rfl⟩ := append_of_mem hmem
  rw [append_assoc, cons_append] at hw hmono hmeets ⊢
  obtain ⟨-, -, hmeets⟩ := (meets_append _ _ _ _).mp hmeets
  obtain ⟨s, hs⟩ := isSome_iff_exists.mp (exec_isSome hstart pre)
  obtain ⟨t, ht⟩ := isSome_iff_exists.mp (observe_isSome hstart s first)
  have hexec : (correlationMachine rules).exec (correlationMachine rules).init (pre ++ [first]) =
      some t := by
    rw [exec_append, hs]
    exact ht
  have htracks : Tracks R x first.event.ts 1 t :=
    tracks_start hR (hstart R hR) hlength (by rw [hstages]; rfl) hpasses ht
  have hafter : ∀ op ∈ between ++ after, first.event.ts ≤ op.event.ts := fun op hop =>
    rel_of_pairwise_cons (pairwise_append.mp hmono).2.1 hop
  rw [append_cons] at hw hmono ⊢
  refine occurred_of_tracks hstart (Int.lt_add_of_sub_left_lt hwindow) hafter hw hmono ?_ hexec
    htracks (by rw [hstages]; exact hrest) (hlater.trans (sublist_append_right ..))
    fun op hop => hstop op (mem_cons_of_mem _ hop)
  rw [hs] at hmeets
  rw [hexec]
  exact ht ▸ hmeets

theorem chain_detected_scan :
    let scan := sampleObservation 0 .network "port_scan" "203.0.113.7"
    let login := sampleObservation 5 .userspace "ssh.login" "203.0.113.7"
    Occurred (ReportedWithin [sampleRule] sampleRule ⟨.ip, "203.0.113.7"⟩ (seconds (-600))
      (seconds 5)) [scan, login] := by
  intro scan login
  have hpasses : Passes sampleRule ⟨.ip, "203.0.113.7"⟩ ⟨none, ["port_scan"], false⟩ scan.event :=
    ⟨by decide +kernel, rfl, rfl⟩
  have hpasses' : Passes sampleRule ⟨.ip, "203.0.113.7"⟩ ⟨some .userspace, ["ssh.*"], true⟩
      login.event := ⟨by decide +kernel, rfl, rfl⟩
  refine @chain_detected [sampleRule] (by decide) sampleRule (by decide) (by decide) (by decide)
    ⟨.ip, "203.0.113.7"⟩ [scan, login] ?_ ?_ _ (List.Sublist.refl _)
    (.cons hpasses (.cons hpasses' .nil)) scan login rfl rfl (by decide) ?_ ?_ (by decide +kernel)
  · simp [scan, login, sampleObservation, seconds]
  · intro e he
    simp only [map_cons, map_nil, mem_cons, not_mem_nil, or_false] at he
    rcases he with rfl | rfl
    · exact ⟨_, rfl⟩
    · exact ⟨_, rfl⟩
  · intro r hr
    rw [mem_singleton.mp hr]
    exact ⟨by decide, by decide⟩
  · intro r hr hne
    exact absurd (congrArg CorrelationRule.id (mem_singleton.mp hr)) hne

/-- Two addresses are scanned at the same instant.  When the login from one of them completes
its chain, the chain of the other is removed too, and the login from the other is not reported. -/
theorem chain_of_other_entity_lost :
    let scan := sampleObservation 0 .network "port_scan"
    let login := fun secs => sampleObservation secs .userspace "ssh.login"
    let x : EntityRef := ⟨.ip, "203.0.113.7"⟩
    let ops := [scan "198.51.100.9", scan "203.0.113.7", login 5 "198.51.100.9",
      login 6 "203.0.113.7"]
    let M := correlationMachine [sampleRule]
    (ops.Pairwise fun a b => a.event.ts ≤ b.event.ts) ∧
      (∀ op ∈ ops, op.event.entities.length = 1) ∧
      [scan "203.0.113.7", login 6 "203.0.113.7"].Sublist ops ∧
      List.Forall₂ (fun stage op => Passes sampleRule x stage op.event) sampleRule.stages
        [scan "203.0.113.7", login 6 "203.0.113.7"] ∧
      seconds 6 - seconds 0 < seconds sampleRule.windowSecs.toNat ∧
      ∀ chain ∈ (M.trace M.init ops).flatten,
        ¬ (chain.ruleId = sampleRule.id ∧ ∀ e ∈ chain.events, e.entities = [x]) := by
  intro scan login x ops M
  refine ⟨?_, by decide +kernel, ?_, ?_, by decide, by decide +kernel⟩
  · simp [ops, scan, login, sampleObservation, seconds]
  · exact .cons _ (.cons_cons _ (.cons _ (.cons_cons _ .slnil)))
  · exact .cons ⟨by decide +kernel, rfl, rfl⟩ (.cons ⟨by decide +kernel, rfl, rfl⟩ .nil)

end Innerwarden.Correlation

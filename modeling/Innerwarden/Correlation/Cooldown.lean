import Innerwarden.Correlation.Completeness

/-!
# The cooldown of a chain

A chain is not to be emitted again within ten minutes.  The key of the table of cooldowns has
the rule of the chain and one of its entities, the one the hash set yields first.  So a chain
with several entities that comes again can miss the key of the report before it.

* `remembered_exec`: the key of a report stays for ten minutes.
* `noRepeat_iff`: when chains are repeated.
-/

namespace Innerwarden.Correlation

open StateMachine List

/-! ## Reports -/

/-- A chain that was emitted, with the time of the observation. -/
structure Report where
  ts : DateTime
  chain : AttackChain

/-- The reports of a run, oldest first. -/
def reportsFrom (rules : List CorrelationRule) :
    Option CorrelationEngine → List Observation → List Report
  | _, [] => []
  | s, op :: ops =>
    let r := (correlationMachine rules).step s op
    r.2.map (Report.mk op.event.ts) ++ reportsFrom rules r.1 ops

def reports (rules : List CorrelationRule) (ops : List Observation) : List Report :=
  reportsFrom rules (correlationMachine rules).init ops

/-- The events carry the same entities. -/
def SameEntities (a b : List CorrelationEvent) : Prop :=
  ∀ x, (∃ e ∈ a, x ∈ e.entities) ↔ ∃ e ∈ b, x ∈ e.entities

/-- No rule reports the same entities twice within ten minutes. -/
def NoRepeat (rules : List CorrelationRule) (ops : List Observation) : Prop :=
  (reports rules ops).Pairwise fun a b =>
    a.chain.ruleId = b.chain.ruleId → SameEntities a.chain.events b.chain.events →
      seconds 600 ≤ b.ts - a.ts

theorem reportsFrom_append (rules : List CorrelationRule) (s : Option CorrelationEngine)
    (ops ops' : List Observation) :
    reportsFrom rules s (ops ++ ops') =
      reportsFrom rules s ops ++
        reportsFrom rules ((correlationMachine rules).exec s ops) ops' := by
  induction ops generalizing s with
  | nil => rfl
  | cons op ops ih =>
    rw [cons_append, reportsFrom, ih, reportsFrom, exec_cons, append_assoc]

theorem reports_concat (rules : List CorrelationRule) (ops : List Observation) (op : Observation) :
    reports rules (ops ++ [op]) = reports rules ops ++
      ((correlationMachine rules).step
        ((correlationMachine rules).exec (correlationMachine rules).init ops) op).2.map
          (Report.mk op.event.ts) := by
  rw [reports, reportsFrom_append, reportsFrom, reportsFrom, append_nil]
  rfl

theorem sameEntities_congr {a a' b b' : List CorrelationEvent} (ha : a.Perm a') (hb : b.Perm b') :
    SameEntities a b ↔ SameEntities a' b' := by
  simp only [SameEntities, ha.mem_iff, hb.mem_iff]

theorem SameEntities.symm {a b : List CorrelationEvent} (h : SameEntities a b) :
    SameEntities b a := fun x => (h x).symm

/-! ## The entities of a chain -/

section Entities

variable {rules : List CorrelationRule}

/-- The entities of the chain are those of its events. -/
def Known (pc : PendingChain) : Prop :=
  ∀ k, k ∈ pc.matchedEntities ↔ ∃ e ∈ pc.matchedEvents, ∃ x ∈ e.entities, entityKey x = k

/-- The chain has at least two entities. -/
def Several (pc : PendingChain) : Prop :=
  ∃ a ∈ pc.matchedEntities, ∃ b ∈ pc.matchedEntities, a ≠ b

theorem Known.advance {pc : PendingChain} (h : Known pc) (event : CorrelationEvent) :
    Known (advanceChain rules event pc).1 := by
  rcases advanceChain_cases rules event pc with hsame | ⟨rule, stage, -, -, -, hpass⟩
  · rw [hsame]
    exact h
  · rw [hpass]
    intro k
    simp only [mem_addEntities, h k, mem_append, or_and_right, exists_or,
      mem_singleton, exists_eq_left]

theorem Known.start {rule : CorrelationRule} {event : CorrelationEvent} {pc : PendingChain}
    (h : startChain event rule = some (some pc)) : Known pc := by
  obtain ⟨first, rest, window, -, -, -, rfl⟩ := startChain_eq_some h
  intro k
  simp [PendingChain.new, mem_addEntities]

theorem known_exec {ops : List Observation} {s : CorrelationEngine}
    (hs : (correlationMachine rules).exec (correlationMachine rules).init ops = some s) :
    ∀ pc ∈ s.pendingChains, Known pc := by
  intro pc hpc
  refine pendingChains_exec (P := fun _ pc => Known pc) ?_ ?_ hs hpc
  · intro _ op pc hknown
    exact hknown.advance op.event
  · intro _ op rule _ pc hstart
    exact .start hstart

theorem known_completions {s : CorrelationEngine} {op : Observation}
    (h : ∀ pc ∈ s.pendingChains, Known pc) {entry : String × PendingChain}
    (hentry : entry ∈ completions rules s op) : Known entry.2 := by
  obtain ⟨pc₀, hpc₀, -, hadv⟩ := mem_newlyCompleted (mem_keyed hentry).1
  have hknown : Known (advanceChain rules op.event pc₀).1 := (h pc₀ hpc₀).advance op.event
  rwa [hadv] at hknown

/-- Chains with the same single entity, or none, have the same key. -/
theorem cooldownKey_eq {a b : PendingChain} (ha : Known a) (hb : Known b)
    (hid : a.ruleId = b.ruleId) (hsame : SameEntities a.matchedEvents b.matchedEvents)
    (hsingle : ¬ Several b) (m n : Nat) :
    cooldownKey a.ruleId (primaryEntity m a.matchedEntities) =
      cooldownKey b.ruleId (primaryEntity n b.matchedEntities) := by
  have hmem : ∀ k, k ∈ a.matchedEntities ↔ k ∈ b.matchedEntities := by
    intro k
    rw [ha k, hb k]
    constructor
    · rintro ⟨e, he, x, hx, rfl⟩
      obtain ⟨e', he', hx'⟩ := (hsame x).mp ⟨e, he, hx⟩
      exact ⟨e', he', x, hx', rfl⟩
    · rintro ⟨e, he, x, hx, rfl⟩
      obtain ⟨e', he', hx'⟩ := (hsame x).mpr ⟨e, he, hx⟩
      exact ⟨e', he', x, hx', rfl⟩
  rw [hid]
  congr 1
  cases hempty : b.matchedEntities with
  | nil =>
    have : a.matchedEntities = [] :=
      eq_nil_iff_forall_not_mem.mpr fun k hk => by
        have := (hmem k).mp hk
        rw [hempty] at this
        cases this
    rw [this]
    rfl
  | cons k ks =>
    have hne : b.matchedEntities ≠ [] := hempty ▸ cons_ne_nil k ks
    have hfirst := primaryEntity_mem hne n
    have hsecond := primaryEntity_mem (ne_nil_of_mem ((hmem _).mpr hfirst)) m
    rw [← hempty]
    by_contra hdiff
    exact hsingle ⟨_, (hmem _).mp hsecond, _, hfirst, hdiff⟩

end Entities

/-! ## What the table remembers -/

section Table

variable {rules : List CorrelationRule}

/-- The key of the report is in the table, unless the report is ten minutes old. -/
def Remembered (s : CorrelationEngine) (now : DateTime) (report : Report) : Prop :=
  now < report.ts + seconds 600 →
    ∃ pc n expires, Known pc ∧ report.chain.ruleId = pc.ruleId ∧
      report.chain.events.Perm pc.matchedEvents ∧
      s.chainCooldowns (cooldownKey pc.ruleId (primaryEntity n pc.matchedEntities)) =
        some expires ∧ report.ts + seconds 600 ≤ expires

variable {s : CorrelationEngine} {op : Observation} {ops : List Observation}

theorem chainCooldowns_keep {op : Observation} {key : String} {expires : DateTime}
    (h : s.chainCooldowns key = some expires) (hlive : op.event.ts < expires) :
    (emission rules s op).1.chainCooldowns key = some expires := by
  have hbefore : (beforeEmit rules s op.event).chainCooldowns key = some expires := by
    show (s.chainCooldowns key).filter (op.event.ts < ·) = some expires
    rw [h, Option.filter_some, if_pos (decide_eq_true hlive)]
  rw [chainCooldowns_emission, hbefore, if_neg (by simp)]

theorem chainCooldowns_emitted {op : Observation} {entry : String × PendingChain}
    (h : EmittedAt rules s op entry) :
    (emission rules s op).1.chainCooldowns entry.1 = some (op.event.ts + seconds 600) := by
  have hmem := mem_map_of_mem (f := Prod.fst) h.mem
  obtain ⟨pre, post, -, hfree, -⟩ := h
  rw [chainCooldowns_emission, if_pos ⟨hfree, hmem⟩]

/-- The reports of a run whose events come in order are remembered. -/
theorem remembered_exec {ops : List Observation}
    (hsorted : ops.Pairwise fun a b => a.event.ts ≤ b.event.ts)
    (hs : (correlationMachine rules).exec (correlationMachine rules).init ops = some s)
    {now : DateTime} (hnow : ∀ op ∈ ops, op.event.ts ≤ now) {report : Report}
    (hreport : report ∈ reports rules ops) : Remembered s now report := by
  induction ops using List.reverseRecOn generalizing s now with
  | nil => cases hreport
  | append_singleton ops op ih =>
    rw [reports_concat, mem_append] at hreport
    obtain ⟨hsorted, -, hlast⟩ := pairwise_append.mp hsorted
    have hop : op.event.ts ≤ now := hnow op (by simp)
    obtain ⟨s₀, hbefore, hobserve⟩ := exec_concat_eq_some hs
    obtain ⟨started, -, -, htable⟩ := observe_eq_some hobserve
    rw [hbefore] at hreport
    intro hyoung
    rcases hreport with hreport | hreport
    · have hold := ih hsorted hbefore (fun a ha => hlast a ha op (by simp)) hreport
      obtain ⟨pc, n, expires, hknown, hid, hperm, hkey, hle⟩ := hold (hop.trans_lt hyoung)
      refine ⟨pc, n, expires, hknown, hid, hperm, ?_, hle⟩
      rw [htable]
      exact chainCooldowns_keep hkey ((hop.trans_lt hyoung).trans_le hle)
    · obtain ⟨chain, hchain, rfl⟩ := mem_map.mp hreport
      obtain ⟨entry, hentry, hemitted⟩ := exists_of_mem_emission hchain
      obtain ⟨n, hkey⟩ := (mem_keyed hentry.mem).2
      refine ⟨entry.2, n, op.event.ts + seconds 600,
        known_completions (known_exec hbefore) hentry.mem, hemitted.ruleId, hemitted.perm, ?_,
        le_refl _⟩
      rw [htable, ← hkey]
      exact chainCooldowns_emitted hentry

end Table

/-! ## Repeated chains -/

section Repeats

variable {rules : List CorrelationRule}

variable (rules) in
/-- The rule of the chain has reported its entities within ten minutes, before the observation
or earlier in the same call. -/
def Repeats (past : List Report) (s : CorrelationEngine) (op : Observation)
    (before : List (String × PendingChain)) (pc : PendingChain) : Prop :=
  (∃ report ∈ past, op.event.ts - report.ts < seconds 600 ∧ report.chain.ruleId = pc.ruleId ∧
    SameEntities report.chain.events pc.matchedEvents) ∨
  ∃ other ∈ before, EmittedAt rules s op other ∧ other.2.ruleId = pc.ruleId ∧
    SameEntities other.2.matchedEvents pc.matchedEvents

/-- The key is in the table, or was taken earlier in the same call. -/
def KeyTaken (s : CorrelationEngine) (op : Observation) (before : List (String × PendingChain))
    (key : String) : Prop :=
  (∃ expires, s.chainCooldowns key = some expires ∧ op.event.ts < expires) ∨
    ∃ other ∈ before, other.1 = key

variable (rules) in
/-- The observation completes a chain with several entities that comes again, and the entity
the hash set yields first does not give a key that is taken. -/
def Forgets (pre : List Observation) (op : Observation) : Prop :=
  ∃ s, (correlationMachine rules).exec (correlationMachine rules).init pre = some s ∧
    ∃ before entry after, completions rules s op = before ++ entry :: after ∧
      Several entry.2 ∧ Repeats rules (reports rules pre) s op before entry.2 ∧
      ¬ KeyTaken s op before entry.1

theorem emittedAt_iff {entry : String × PendingChain} :
    EmittedAt rules s op entry ↔
      ∃ before after, completions rules s op = before ++ entry :: after ∧
        ¬ KeyTaken s op before entry.1 := by
  refine exists_congr fun before => exists_congr fun after => and_congr_right fun _ => ?_
  rw [KeyTaken, not_or, not_exists, not_exists]
  refine and_congr ?_ (forall_congr' fun _ => not_and.symm)
  show (s.chainCooldowns entry.1).filter (op.event.ts < ·) = none ↔ _
  simp

/-- Of two chains that are emitted by one call, one comes before the other. -/
theorem EmittedAt.before_or {a b : String × PendingChain} (ha : EmittedAt rules s op a)
    (hb : EmittedAt rules s op b) (hne : a.1 ≠ b.1) :
    (∃ before after, completions rules s op = before ++ b :: after ∧ a ∈ before ∧
      ¬ KeyTaken s op before b.1) ∨
    ∃ before after, completions rules s op = before ++ a :: after ∧ b ∈ before ∧
      ¬ KeyTaken s op before a.1 := by
  obtain ⟨before, after, hsplit, hfree⟩ := emittedAt_iff.mp ha
  obtain ⟨before', after', hsplit', hfree'⟩ := emittedAt_iff.mp hb
  rcases append_split (hsplit.symm.trans hsplit') with ⟨rest, hbefore, -⟩ | ⟨mid, hbefore, hafter⟩
  · exact .inr ⟨before, after, hsplit, by simp [hbefore], hfree⟩
  · cases mid with
    | nil => exact absurd (congrArg Prod.fst (List.cons.inj hafter).1) hne
    | cons x mid =>
      obtain ⟨rfl, -⟩ := List.cons.inj hafter
      exact .inl ⟨before', after', hsplit', by simp [hbefore], hfree'⟩

/-- The chains of one call, and those of the calls before it. -/
def StepClear (rules : List CorrelationRule) (past : List Report) (s : CorrelationEngine)
    (op : Observation) : Prop :=
  (∀ a b, EmittedAt rules s op a → EmittedAt rules s op b → a.1 ≠ b.1 →
    a.2.ruleId = b.2.ruleId → ¬ SameEntities a.2.matchedEvents b.2.matchedEvents) ∧
  ∀ report ∈ past, ∀ entry, EmittedAt rules s op entry → report.chain.ruleId = entry.2.ruleId →
    SameEntities report.chain.events entry.2.matchedEvents →
    seconds 600 ≤ op.event.ts - report.ts

theorem pairwise_iff_of_forall₂ {α β : Type*} {R : α → β → Prop} {S : α → α → Prop}
    {T : β → β → Prop} {l : List α} {l' : List β} (h : List.Forall₂ R l l')
    (hST : ∀ a b x y, R a x → R b y → (S a b ↔ T x y)) : l.Pairwise S ↔ l'.Pairwise T := by
  induction h with
  | nil => exact iff_of_true .nil .nil
  | cons hax hrest ih =>
    rw [pairwise_cons, pairwise_cons, ih]
    refine and_congr_left fun _ => ⟨fun hall y hy => ?_, fun hall b hb => ?_⟩
    · obtain ⟨b, hb, hby⟩ := exists_of_forall₂ hrest.flip hy
      exact (hST _ b _ y hax hby).mp (hall b hb)
    · obtain ⟨y, hy, hby⟩ := exists_of_forall₂ hrest hb
      exact (hST _ b _ y hax hby).mpr (hall y hy)

/-- The chains that one call emits. -/
theorem pairwise_emission (s : CorrelationEngine) (op : Observation) :
    ((emission rules s op).2.Pairwise fun a b =>
      a.ruleId = b.ruleId → ¬ SameEntities a.events b.events) ↔
    ∀ a b, EmittedAt rules s op a → EmittedAt rules s op b → a.1 ≠ b.1 →
      a.2.ruleId = b.2.ruleId → ¬ SameEntities a.2.matchedEvents b.2.matchedEvents := by
  rw [← pairwise_iff_of_forall₂ (emission_spec s op)
    (S := fun a b => a.2.ruleId = b.2.ruleId →
      ¬ SameEntities a.2.matchedEvents b.2.matchedEvents)]
  · constructor
    · intro hpairwise a b ha hb hne
      have : Std.Symm fun a b : String × PendingChain => a.2.ruleId = b.2.ruleId →
          ¬ SameEntities a.2.matchedEvents b.2.matchedEvents :=
        ⟨fun a b h hid hsame => h hid.symm hsame.symm⟩
      exact hpairwise.forall (mem_released_iff.mpr ha) (mem_released_iff.mpr hb)
        fun heq => hne (congrArg Prod.fst heq)
    · intro hall
      refine pairwise_released.imp_of_mem fun {a b} ha hb hne => ?_
      exact hall a b (mem_released_iff.mp ha) (mem_released_iff.mp hb) hne
  · intro a b x y hax hby
    rw [hax.ruleId, hby.ruleId, sameEntities_congr hax.perm hby.perm]

theorem noRepeat_concat
    (hs : (correlationMachine rules).exec (correlationMachine rules).init ops = some s)
    (op : Observation) :
    NoRepeat rules (ops ++ [op]) ↔
      NoRepeat rules ops ∧ StepClear rules (reports rules ops) s op := by
  have hpositive : ¬ seconds 600 ≤ op.event.ts - op.event.ts := by
    rw [sub_self]
    decide
  rw [NoRepeat, reports_concat, hs, pairwise_append]
  refine and_congr_right fun _ => and_congr ?_ ?_
  · rw [← pairwise_emission, pairwise_map]
    simp only [hpositive]
    rfl
  · refine forall_congr' fun report => imp_congr_right fun _ => ?_
    constructor
    · intro hall entry hentry hid hsame
      obtain ⟨chain, hchain, hemitted⟩ := exists_mem_emission hentry
      refine hall ⟨op.event.ts, chain⟩ (mem_map_of_mem hchain)
        (hid.trans hemitted.ruleId.symm) ?_
      exact (sameEntities_congr (.refl _) hemitted.perm).mpr hsame
    · intro hall later hlater hid hsame
      obtain ⟨chain, hchain, rfl⟩ := mem_map.mp hlater
      obtain ⟨entry, hentry, hemitted⟩ := exists_of_mem_emission hchain
      refine hall entry hentry (hid.trans hemitted.ruleId) ?_
      exact (sameEntities_congr (.refl _) hemitted.perm).mp hsame

/-- A call repeats a chain exactly when it forgets one. -/
theorem stepClear_iff (hsorted : (ops ++ [op]).Pairwise fun a b => a.event.ts ≤ b.event.ts)
    (hs : (correlationMachine rules).exec (correlationMachine rules).init ops = some s) :
    StepClear rules (reports rules ops) s op ↔ ¬ Forgets rules ops op := by
  obtain ⟨hsorted, -, hlast⟩ := pairwise_append.mp hsorted
  have hknown {entry : String × PendingChain} (h : EmittedAt rules s op entry) : Known entry.2 :=
    known_completions (known_exec hs) h.mem
  constructor
  · rintro ⟨hcall, hpast⟩ ⟨t, ht, before, entry, after, hsplit, -, hrepeats, hfree⟩
    cases hs.symm.trans ht
    have hentry : EmittedAt rules s op entry := emittedAt_iff.mpr ⟨before, after, hsplit, hfree⟩
    rcases hrepeats with
      ⟨report, hreport, hyoung, hid, hsame⟩ | ⟨other, hother, hemitted, hid, hsame⟩
    · exact absurd (hpast report hreport entry hentry hid hsame) hyoung.not_ge
    · refine hcall other entry hemitted hentry (fun hkey => ?_) hid hsame
      exact hfree (.inr ⟨other, hother, hkey⟩)
  · intro hforgets
    constructor
    · intro a b ha hb hne hid hsame
      obtain ⟨m, hm⟩ := (mem_keyed ha.mem).2
      obtain ⟨n, hn⟩ := (mem_keyed hb.mem).2
      have hseveral : Several b.2 := by
        by_contra hsingle
        exact hne (hm.trans ((cooldownKey_eq (hknown ha) (hknown hb) hid hsame hsingle m n).trans
          hn.symm))
      have hseveral' : Several a.2 := by
        by_contra hsingle
        exact hne.symm (hn.trans ((cooldownKey_eq (hknown hb) (hknown ha) hid.symm hsame.symm
          hsingle n m).trans hm.symm))
      rcases ha.before_or hb hne with
        ⟨before, after, hsplit, hmem, hfree⟩ | ⟨before, after, hsplit, hmem, hfree⟩
      · exact hforgets ⟨s, hs, before, b, after, hsplit, hseveral,
          .inr ⟨a, hmem, ha, hid, hsame⟩, hfree⟩
      · exact hforgets ⟨s, hs, before, a, after, hsplit, hseveral',
          .inr ⟨b, hmem, hb, hid.symm, hsame.symm⟩, hfree⟩
    · intro report hreport entry hentry hid hsame
      by_contra hyoung
      have hyoung : op.event.ts - report.ts < seconds 600 := not_le.mp hyoung
      have hbefore : op.event.ts < report.ts + seconds 600 := Int.lt_add_of_sub_left_lt hyoung
      obtain ⟨before, after, hsplit, hfree⟩ := emittedAt_iff.mp hentry
      by_cases hseveral : Several entry.2
      · exact hforgets ⟨s, hs, before, entry, after, hsplit, hseveral,
          .inl ⟨report, hreport, hyoung, hid, hsame⟩, hfree⟩
      · obtain ⟨n, hn⟩ := (mem_keyed hentry.mem).2
        have hremembered := remembered_exec hsorted hs (fun a ha => hlast a ha op (by simp)) hreport
        obtain ⟨pc, m, expires, hpc, hid', hperm, hkey, hle⟩ := hremembered hbefore
        rw [cooldownKey_eq hpc (hknown hentry) (hid'.symm.trans hid)
          ((sameEntities_congr hperm (.refl _)).mp hsame) hseveral m n, ← hn] at hkey
        exact hfree (.inl ⟨expires, hkey, hbefore.trans_le hle⟩)

theorem noRepeat_step (hsorted : (ops ++ [op]).Pairwise fun a b => a.event.ts ≤ b.event.ts) :
    NoRepeat rules (ops ++ [op]) ↔ NoRepeat rules ops ∧ ¬ Forgets rules ops op := by
  cases hs : (correlationMachine rules).exec (correlationMachine rules).init ops with
  | none =>
    have hnever : ¬ Forgets rules ops op := by
      rintro ⟨s, hsome, -⟩
      cases hs.symm.trans hsome
    rw [and_iff_left hnever, NoRepeat, reports_concat, hs]
    show (reports rules ops ++ []).Pairwise _ ↔ _
    rw [append_nil]
    rfl
  | some s => rw [noRepeat_concat hs, stepClear_iff hsorted hs]

/-- In a run whose events come in order, chains are repeated within ten minutes exactly when
an observation completes a chain with several entities that comes again, and the entity its
hash set yields first does not give a key that is taken. -/
theorem noRepeat_iff (rules : List CorrelationRule) (ops : List Observation)
    (hsorted : ops.Pairwise fun a b => a.event.ts ≤ b.event.ts) :
    NoRepeat rules ops ↔ ¬ Occurred (Forgets rules) ops := by
  induction ops using List.reverseRecOn with
  | nil => exact iff_of_true .nil not_occurred_nil
  | append_singleton ops op ih =>
    rw [occurred_concat, not_or, noRepeat_step hsorted, ih (pairwise_append.mp hsorted).1]

end Repeats

/-- A user on an address is seen.  The hash sets yield one of the two first. -/
def sampleLogin (secs : Int) (layer : Layer) (kind : String) (first : Nat) : Observation :=
  ⟨⟨seconds secs, layer, "detector", kind, .high, [⟨.ip, "203.0.113.7"⟩, ⟨.user, "root"⟩], .null,
    ""⟩, fun _ => first⟩

theorem noRepeat_iff_logins :
    let ops := [sampleLogin 0 .network "port_scan" 0, sampleLogin 5 .userspace "ssh.login" 0,
      sampleLogin 10 .network "port_scan" 0, sampleLogin 15 .userspace "ssh.login" 0]
    (ops.Pairwise fun a b => a.event.ts ≤ b.event.ts) ∧
      (NoRepeat [sampleRule] ops ↔ ¬ Occurred (Forgets [sampleRule]) ops) := by
  intro ops
  have hsorted : ops.Pairwise fun a b => a.event.ts ≤ b.event.ts := by decide
  exact ⟨hsorted, noRepeat_iff [sampleRule] ops hsorted⟩

/-- The same user on the same address twice within ten seconds.  The first set yields the
address first, the second the user. -/
theorem repeat_with_other_entity :
    let ops := [sampleLogin 0 .network "port_scan" 0, sampleLogin 5 .userspace "ssh.login" 0,
      sampleLogin 10 .network "port_scan" 0, sampleLogin 15 .userspace "ssh.login" 1]
    (ops.Pairwise fun a b => a.event.ts ≤ b.event.ts) ∧ ¬ NoRepeat [sampleRule] ops := by
  intro ops
  refine ⟨by decide, fun hclear => ?_⟩
  let both : List EntityRef := [⟨.ip, "203.0.113.7"⟩, ⟨.user, "root"⟩]
  let view (r : Report) := (r.ts, r.chain.ruleId, r.chain.events.map CorrelationEvent.entities)
  have hreports : (reports [sampleRule] ops).map view =
      [(seconds 5, "CL-100", [both, both]), (seconds 15, "CL-100", [both, both])] := by
    decide +kernel
  -- equal lists of entities are equal sets
  have hpairwise : (reports [sampleRule] ops).Pairwise fun a b =>
      a.chain.ruleId = b.chain.ruleId →
      a.chain.events.map CorrelationEvent.entities = b.chain.events.map CorrelationEvent.entities →
      seconds 600 ≤ b.ts - a.ts := by
    refine hclear.imp fun {a b} h hid hentities => h hid fun x => ?_
    have hmap : ∀ events : List CorrelationEvent, (∃ e ∈ events, x ∈ e.entities) ↔
        ∃ l ∈ events.map CorrelationEvent.entities, x ∈ l := fun events => by simp
    rw [hmap, hmap, hentities]
  have hmapped : ((reports [sampleRule] ops).map view).Pairwise fun p q =>
      p.2.1 = q.2.1 → p.2.2 = q.2.2 → seconds 600 ≤ q.1 - p.1 := pairwise_map.mpr hpairwise
  rw [hreports] at hmapped
  have := (pairwise_cons.mp hmapped).1 _ (mem_singleton_self _) rfl rfl
  exact absurd this (by decide)

end Innerwarden.Correlation

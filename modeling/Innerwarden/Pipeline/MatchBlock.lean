import Innerwarden.Pipeline.Evaluate
import Innerwarden.Pipeline.Loader

/-!
# Rules and their match blocks

A rule is to apply when no earlier rule has ended the evaluation and the whole match block of
the rule holds, `pid_score_min` included.  `AppliesWhen` states this for any test of a rule.

The test of the code leaves out the rest of the block when the block has a `pid_score_min`.  So
the reading holds just when no rule that gets its turn is let in by its score alone
(`applies_whole_block_iff`).  The rule sets are those with different ids, each rule compiled from
one with a match block, as all that are loaded are (`reload_ids_nodup`, `reload_compiledFrom`).
-/

namespace Innerwarden.Pipeline

open EarlyReturn

/-- The rules that are evaluated: a pipeline that is not enabled evaluates none. -/
def EventPipeline.inForce (p : EventPipeline) : List CompiledRule :=
  if p.enabled then p.rules else []

/-- A rule gets its turn and a test holds then. -/
def Due (p : EventPipeline) (call : PersistCall) (test : Gate) (rule : CompiledRule) : Prop :=
  ∃ scan, Turn (turn call (gate call.now)) p.inForce (firstScan p.state call) rule scan ∧
    test scan.state (scan.event call) rule = true

/-- A call applies the rules that are due, and no others.  A rule that is applied is counted
and adds its tags, and the answer is that of the rule that ends the evaluation. -/
structure AppliesWhen (p : EventPipeline) (call : PersistCall) (test : Gate) : Prop where
  applied : ∀ rule ∈ p.rules, Due p call test rule →
    ((shouldPersist p call).1.state.counters rule.id).matched =
      (p.state.counters rule.id).matched + 1
  skipped : ∀ rule ∈ p.rules, ¬Due p call test rule →
    ((shouldPersist p call).1.state.counters rule.id).matched =
      (p.state.counters rule.id).matched
  tags : ∀ tag, tag ∈ (shouldPersist p call).2.1.tags ↔
    tag ∈ call.event.tags ∨ ∃ rule, Due p call test rule ∧ tag ∈ rule.tags
  ended : ∀ rule b, Due p call test rule → rule.verdict p.state.sampleCounter = some b →
    (shouldPersist p call).2.2 = b
  passed : (∀ rule, Due p call test rule → rule.verdict p.state.sampleCounter = none) →
    (shouldPersist p call).2.2 = true

theorem AppliesWhen.congr {p : EventPipeline} {call : PersistCall} {test test' : Gate}
    (h : AppliesWhen p call test) (hdue : ∀ rule, Due p call test' rule ↔ Due p call test rule) :
    AppliesWhen p call test' where
  applied rule hmem hrule := h.applied rule hmem ((hdue rule).mp hrule)
  skipped rule hmem hrule := h.skipped rule hmem (mt (hdue rule).mpr hrule)
  tags tag := by simp only [hdue]; exact h.tags tag
  ended rule b hrule := h.ended rule b ((hdue rule).mp hrule)
  passed hrules := h.passed fun rule hrule => hrules rule ((hdue rule).mpr hrule)

/-! ## The test of the code -/

section Code

variable {p : EventPipeline} {call : PersistCall} {rule : CompiledRule}

theorem mem_rules_of_mem_inForce (h : rule ∈ p.inForce) : rule ∈ p.rules := by
  unfold EventPipeline.inForce at h
  split at h
  · exact h
  · nomatch h

theorem inForce_eq_rules (h : p.inForce ≠ []) : p.inForce = p.rules := by
  unfold EventPipeline.inForce at h ⊢
  split
  · rfl
  next hdisabled => rw [if_neg hdisabled] at h; exact absurd rfl h

/-- A call is let through unread exactly when no rule is in force. -/
theorem idle_iff : (!p.enabled || p.rules.isEmpty) = true ↔ p.inForce = [] := by
  unfold EventPipeline.inForce
  cases p.enabled with
  | false => simp
  | true => simp

theorem shouldPersist_of_inForce (h : p.inForce ≠ []) :
    shouldPersist p call =
      ({ p with state := (evaluation p call).1.state }, (evaluation p call).1.event call,
        (evaluation p call).2.getD true) := by
  rw [shouldPersist, if_neg (mt idle_iff.mp h)]

theorem shouldPersist_of_inForce_nil (h : p.inForce = []) :
    shouldPersist p call = (p, call.event, true) := by
  rw [shouldPersist, if_pos (idle_iff.mpr h)]

theorem sampleCounter_of_turn {g : Gate} {rules : List CompiledRule} {scan : Scan}
    (h : Turn (turn call g) rules (firstScan p.state call) rule scan) :
    scan.state.sampleCounter = p.state.sampleCounter := by
  refine h.invariant (P := fun scan => scan.state.sampleCounter = p.state.sampleCounter) ?_
    (forgetExited_sampleCounter _ _)
  intro s rule s' hturn hs
  have hcounter := turn_sampleCounter (congrArg Prod.snd hturn)
  rw [hturn] at hcounter
  exact hcounter.trans hs

theorem evaluation_eq_some_iff {b : Bool} (h : p.inForce ≠ []) :
    (evaluation p call).2 = some b ↔
      ∃ rule, Due p call (gate call.now) rule ∧ rule.verdict p.state.sampleCounter = some b := by
  rw [evaluation, loop_eq_some_iff, ← inForce_eq_rules h]
  constructor
  · rintro ⟨rule, scan, hturn, hb⟩
    cases hgate : gate call.now scan.state (scan.event call) rule with
    | false => rw [turn_of_not_gate hgate] at hb; nomatch hb
    | true =>
      rw [turn_verdict hgate, sampleCounter_of_turn hturn] at hb
      exact ⟨rule, ⟨scan, hturn, hgate⟩, hb⟩
  · rintro ⟨rule, ⟨scan, hturn, hgate⟩, hb⟩
    refine ⟨rule, scan, hturn, ?_⟩
    rw [turn_verdict hgate, sampleCounter_of_turn hturn, hb]

variable (hids : (p.rules.map CompiledRule.id).Nodup)

include hids

/-- A rule is counted once if its turn comes and its test holds then, and not otherwise. -/
theorem matched_evaluation (h : p.inForce ≠ []) (hmem : rule ∈ p.rules) :
    (Due p call (gate call.now) rule →
      ((evaluation p call).1.state.counters rule.id).matched =
        (p.state.counters rule.id).matched + 1) ∧
    (¬Due p call (gate call.now) rule →
      ((evaluation p call).1.state.counters rule.id).matched =
        (p.state.counters rule.id).matched) := by
  have hother : ∀ scan : Scan, ∀ other ∈ p.rules, other ≠ rule →
      ((turn call (gate call.now) scan other).1.state.counters rule.id).matched =
        (scan.state.counters rule.id).matched := by
    intro scan other hother hne
    have hne : rule.id ≠ other.id := fun h =>
      hne (List.inj_on_of_nodup_map hids hother hmem h.symm)
    rw [turn_counters_of_ne hne]
  have hfirst : ((firstScan p.state call).state.counters rule.id).matched =
      (p.state.counters rule.id).matched := by
    rw [firstScan, forgetExited_counters]
  have hown : ∀ {scan : Scan},
      Turn (turn call (gate call.now)) p.rules (firstScan p.state call) rule scan →
      (scan.state.counters rule.id).matched = (p.state.counters rule.id).matched ∧
      ((evaluation p call).1.state.counters rule.id).matched =
        ((turn call (gate call.now) scan rule).1.state.counters rule.id).matched := by
    intro scan hturn
    obtain ⟨hbefore, hafter⟩ := hturn.loop_eq
      (f := fun scan => (scan.state.counters rule.id).matched) hids.of_map hother
    exact ⟨hbefore.trans hfirst, hafter⟩
  rw [Due, inForce_eq_rules h]
  constructor
  · rintro ⟨scan, hturn, hgate⟩
    rw [(hown hturn).2, turn_matched hgate, (hown hturn).1]
  · intro hdue
    by_cases hturn : ∃ scan, Turn (turn call (gate call.now)) p.rules (firstScan p.state call)
        rule scan
    · obtain ⟨scan, hturn⟩ := hturn
      have hgate : gate call.now scan.state (scan.event call) rule = false :=
        Bool.eq_false_iff.mpr fun h => hdue ⟨scan, hturn, h⟩
      rw [(hown hturn).2, turn_of_not_gate hgate, (hown hturn).1]
    · exact (loop_eq_of_not_turn (f := fun scan => (scan.state.counters rule.id).matched)
        (fun scan h => hturn ⟨scan, h⟩) hother).trans hfirst

/-- `should_persist` applies a rule when its turn comes and its test holds then. -/
theorem shouldPersist_appliesWhen_gate : AppliesWhen p call (gate call.now) := by
  by_cases hforce : p.inForce = []
  · have heq : shouldPersist p call = _ := shouldPersist_of_inForce_nil hforce
    have hdue : ∀ rule, ¬Due p call (gate call.now) rule := by
      rintro rule ⟨scan, hturn, -⟩
      rw [hforce] at hturn
      exact not_turn_nil hturn
    constructor
    · exact fun rule _ h => absurd h (hdue rule)
    · exact fun rule _ _ => by rw [heq]
    · simp [heq, hdue]
    · exact fun rule _ h => absurd h (hdue rule)
    · exact fun _ => by rw [heq]
  · have heq : shouldPersist p call = _ := shouldPersist_of_inForce hforce
    constructor
    · intro rule hmem hdue
      rw [heq]
      exact (matched_evaluation hids hforce hmem).1 hdue
    · intro rule hmem hdue
      rw [heq]
      exact (matched_evaluation hids hforce hmem).2 hdue
    · intro tag
      rw [heq]
      refine (loop_accumulates (P := fun scan : Scan => tag ∈ scan.tags)
        fun _ _ => turn_tags).trans (or_congr_right ?_)
      rw [← inForce_eq_rules hforce]
      constructor
      · rintro ⟨rule, scan, hturn, hgate, htag⟩
        exact ⟨rule, ⟨scan, hturn, hgate⟩, htag⟩
      · rintro ⟨rule, ⟨scan, hturn, hgate⟩, htag⟩
        exact ⟨rule, scan, hturn, hgate, htag⟩
    · intro rule b hdue hb
      rw [heq, (evaluation_eq_some_iff hforce).mpr ⟨rule, hdue, hb⟩]
      rfl
    · intro hnone
      rw [heq]
      cases hr : (evaluation p call).2 with
      | none => rfl
      | some b =>
        obtain ⟨rule, hdue, hb⟩ := (evaluation_eq_some_iff hforce).mp hr
        rw [hnone rule hdue] at hb
        nomatch hb

end Code

/-! ## The whole block -/

section WholeBlock

variable (crates : PipelineCrates) (block : CompiledRule → MatchPredicates)

/-- The test that a match block describes: every predicate of it holds, the score included. -/
def wholeBlock (now : Nat) : Gate := fun s event rule =>
  (block rule).holds crates event && (block rule).pidScoreMin.all (· ≤ eventScore s now event)

/-- A rule is the compiled form of a rule with its match block. -/
def CompiledFrom (rule : CompiledRule) : Prop :=
  ∃ raw, raw.matchPreds = some (block rule) ∧ compileRule crates raw = .ok rule

/-- The score of a rule is reached. -/
def ScoreReached (call : PersistCall) (scan : Scan) (rule : CompiledRule) : Prop :=
  ∃ minScore, (block rule).pidScoreMin = some minScore ∧
    minScore ≤ eventScore scan.state call.now call.event

variable {crates block}

/-- The code's test is that of the block, unless the score lets in an event for which the rest
of the block fails. -/
theorem gate_eq_wholeBlock_iff (hrule : CompiledFrom crates block rule) (call : PersistCall)
    (scan : Scan) :
    gate call.now scan.state (scan.event call) rule =
        wholeBlock crates block call.now scan.state (scan.event call) rule ↔
      (ScoreReached block call scan rule → (block rule).holds crates call.event = true) := by
  obtain ⟨raw, hraw, hcompile⟩ := hrule
  obtain ⟨hmatches, hscore⟩ := compileRule_holds hcompile hraw (scan.event call)
  -- the tags are no part of what a rule tests
  have hholds : (block rule).holds crates (scan.event call) =
      (block rule).holds crates call.event := rfl
  have hpid : eventScore scan.state call.now (scan.event call) =
      eventScore scan.state call.now call.event := rfl
  rw [gate, wholeBlock, hscore, hmatches, hholds, hpid]
  cases hmin : (block rule).pidScoreMin with
  | none => simp [ScoreReached, hmin]
  | some minScore =>
    simp only [ScoreReached, hmin, Option.some.injEq, exists_eq_left', Option.all_some]
    by_cases hreached : minScore ≤ eventScore scan.state call.now call.event
    · simp only [hreached, decide_true, Bool.and_true, forall_const]
      exact eq_comm
    · simp [hreached]

variable {p : EventPipeline} {call : PersistCall}

theorem turn_congr {g g' : Gate} {scan : Scan}
    (h : g scan.state (scan.event call) rule = g' scan.state (scan.event call) rule) :
    turn call g scan rule = turn call g' scan rule := by
  rw [turn, turn, h]

/-- If the rules that are due with a test are those that are due with the code's, the two
tests agree whenever a rule gets its turn. -/
theorem gate_eq_of_appliesWhen {test : Gate} (hids : (p.rules.map CompiledRule.id).Nodup)
    (h : AppliesWhen p call test) {scan : Scan}
    (hturn : Turn (turn call (gate call.now)) p.inForce (firstScan p.state call) rule scan) :
    gate call.now scan.state (scan.event call) rule =
      test scan.state (scan.event call) rule := by
  have hmem := mem_rules_of_mem_inForce hturn.mem
  have hcode : AppliesWhen p call (gate call.now) := shouldPersist_appliesWhen_gate hids
  have hdue : Due p call (gate call.now) rule ↔ Due p call test rule := by
    constructor <;> intro hdue <;> by_contra hnot
    · have h₁ := hcode.applied rule hmem hdue
      have h₂ := h.skipped rule hmem hnot
      omega
    · have h₁ := hcode.skipped rule hmem hnot
      have h₂ := h.applied rule hmem hdue
      omega
  have hnodup : p.inForce.Nodup :=
    inForce_eq_rules (List.ne_nil_of_mem hturn.mem) ▸ hids.of_map
  have hat : ∀ g : Gate, Due p call g rule ↔ g scan.state (scan.event call) rule = true := by
    intro g
    refine ⟨?_, fun hg => ⟨scan, hturn, hg⟩⟩
    rintro ⟨scan', hturn', hg⟩
    rw [hturn.unique hnodup hturn']
    exact hg
  rw [hat, hat] at hdue
  exact Bool.eq_iff_iff.mpr hdue

theorem reload_ids_nodup {crates : PipelineCrates} {today : String} (sources : RuleSources)
    {order : List CompiledRule → List CompiledRule} (horder : ∀ rules, (order rules).Perm rules) :
    ((reload crates today sources order).1.map CompiledRule.id).Nodup :=
  ((reload_rules_perm sources horder).map _).nodup_iff.mpr (Override.mergeBy_keys_nodup _ _)

/-- The rules that are loaded are compiled from rules with match blocks. -/
theorem reload_compiledFrom {crates : PipelineCrates} {today : String} (sources : RuleSources)
    {order : List CompiledRule → List CompiledRule} (horder : ∀ rules, (order rules).Perm rules) :
    ∃ block, ∀ rule ∈ (reload crates today sources order).1, CompiledFrom crates block rule := by
  have hblock : ∀ rule : CompiledRule, ∃ mp : MatchPredicates,
      rule ∈ (reload crates today sources order).1 →
        ∃ raw, raw.matchPreds = some mp ∧ compileRule crates raw = .ok rule := by
    intro rule
    by_cases hmem : rule ∈ (reload crates today sources order).1
    · rw [(reload_rules_perm sources horder).mem_iff, Override.mem_mergeBy_iff] at hmem
      obtain ⟨raw, -, hraw⟩ := List.mem_filterMap.mp (Override.last?_mem hmem)
      have hcompile := eventRule_eq_some hraw
      obtain ⟨mp, _, _, _, _, hmp, _⟩ := compileRule_eq_ok hcompile
      exact ⟨mp, fun _ => ⟨raw, hmp, hcompile⟩⟩
    · exact ⟨{}, fun h => absurd h hmem⟩
  choose block hblock using hblock
  exact ⟨block, fun rule hmem => hblock rule hmem⟩

/-- `should_persist` applies a rule exactly when its turn comes and its whole match block
holds, if and only if no rule's turn comes with its score reached and the rest of its block
failing.  The turns on the right are those of the rules as they are written. -/
theorem applies_whole_block_iff (crates : PipelineCrates) (block : CompiledRule → MatchPredicates)
    (p : EventPipeline) (call : PersistCall)
    (hids : (p.rules.map CompiledRule.id).Nodup)
    (hrules : ∀ rule ∈ p.rules, CompiledFrom crates block rule) :
    AppliesWhen p call (wholeBlock crates block call.now) ↔
      ∀ rule scan,
        Turn (turn call (wholeBlock crates block call.now)) p.inForce (firstScan p.state call)
          rule scan →
        ScoreReached block call scan rule → (block rule).holds crates call.event = true := by
  constructor
  · intro h rule scan hturn
    have hagree : ∀ rule scan,
        Turn (turn call (gate call.now)) p.inForce (firstScan p.state call) rule scan →
        gate call.now scan.state (scan.event call) rule =
          wholeBlock crates block call.now scan.state (scan.event call) rule :=
      fun _ _ => gate_eq_of_appliesWhen hids h
    have hcode := hturn.of_agree fun rule scan ht => turn_congr (hagree rule scan ht)
    have hrule := hrules rule (mem_rules_of_mem_inForce hturn.mem)
    exact (gate_eq_wholeBlock_iff hrule call scan).mp (hagree rule scan hcode)
  · intro h
    have hagree : ∀ rule scan,
        Turn (turn call (wholeBlock crates block call.now)) p.inForce (firstScan p.state call)
          rule scan →
        gate call.now scan.state (scan.event call) rule =
          wholeBlock crates block call.now scan.state (scan.event call) rule := by
      intro rule scan ht
      have hrule := hrules rule (mem_rules_of_mem_inForce ht.mem)
      exact (gate_eq_wholeBlock_iff hrule call scan).mpr (h rule scan ht)
    refine AppliesWhen.congr (shouldPersist_appliesWhen_gate hids) fun rule => ?_
    refine exists_congr fun scan => and_congr_right fun hturn => ?_
    have hwritten := hturn.of_agree fun rule scan ht => turn_congr (hagree rule scan ht).symm
    rw [hagree rule scan hwritten]

/-! ## One rule let in by its score -/

/-- A rule file without globs: the crates as they are on it. -/
def plainCrates : PipelineCrates where
  parseRuleFile _ := .error "missing field version"
  displayF64 _ := "0"
  globNew _ := .ok ()
  globSet patterns := .ok (patterns.contains ·)

def dropProbe (minScore : Option UInt32) : RawRule where
  id := "drop-probe"
  matchPreds := some { source := some "ebpf", pidScoreMin := minScore }
  action := .drop
  tags := ["probe"]

def dropProbeCompiled (minScore : Option UInt32) : CompiledRule :=
  assembleRule (dropProbe minScore) { source := some "ebpf", pidScoreMin := minScore } .drop
    none none none

/-- A pipeline with this rule only. -/
def probePipeline (minScore : Option UInt32) : EventPipeline where
  rules := [dropProbeCompiled minScore]
  enabled := true
  state := ⟨0, fun _ => {}, []⟩

def loginCall : PersistCall where
  event := ⟨0, "host", "auth_log", "ssh.login_failed", .medium, "failed login", .obj [], [], []⟩
  now := 0
  shuffle entries := entries

theorem dropProbe_compiled (minScore : Option UInt32) :
    ∀ rule ∈ (probePipeline minScore).rules,
      CompiledFrom plainCrates (fun _ => { source := some "ebpf", pidScoreMin := minScore })
        rule := by
  intro rule hmem
  cases List.mem_singleton.mp hmem
  exact ⟨dropProbe minScore, rfl, rfl⟩

/-- Without a score in its block the rule lets the event of another source pass. -/
theorem applies_whole_block_login :
    AppliesWhen (probePipeline none) loginCall
      (wholeBlock plainCrates (fun _ => { source := some "ebpf" }) 0) :=
  (applies_whole_block_iff plainCrates (fun _ => { source := some "ebpf" }) (probePipeline none)
    loginCall (List.nodup_singleton _) (dropProbe_compiled none)).mpr
    fun _ _ _ ⟨_, hmin, _⟩ => nomatch hmin

/-- With a score that every process has the rule drops it, though its source is another one. -/
theorem score_rule_drops_other_source :
    (∀ rule ∈ (probePipeline (some 0)).rules,
      CompiledFrom plainCrates (fun _ => { source := some "ebpf", pidScoreMin := some 0 }) rule) ∧
    (shouldPersist (probePipeline (some 0)) loginCall).2.2 = false ∧
    ¬AppliesWhen (probePipeline (some 0)) loginCall
      (wholeBlock plainCrates (fun _ => { source := some "ebpf", pidScoreMin := some 0 }) 0) := by
  have hdropped : (shouldPersist (probePipeline (some 0)) loginCall).2.2 = false := by
    decide +kernel
  refine ⟨dropProbe_compiled (some 0), hdropped, fun h => ?_⟩
  -- no rule is due, so the event should pass
  have hpassed := h.passed ?_
  · rw [hdropped] at hpassed
    nomatch hpassed
  · rintro rule ⟨scan, -, hwhole⟩
    have hholds : MatchPredicates.holds plainCrates
        { source := some "ebpf", pidScoreMin := some 0 } loginCall.event = true :=
      (Bool.and_eq_true_iff.mp hwhole).1
    exact absurd hholds (by decide)

end WholeBlock

end Innerwarden.Pipeline

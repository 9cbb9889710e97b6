import Innerwarden.Lib.StateMachine
import Innerwarden.Pipeline.MatchBlock

/-!
# The order of the hash maps

`reload` sorts the values of a hash map by priority only, so rules of one priority stand in the
order in which the hash map yields them.  Which scores are evicted among equal ones depends on a
hash map too.

A step is *settled* if no two rules of one priority can both apply to the event, and no score
has to be evicted.  Runs with settled steps do not depend on the orders (`runs_agree`): the
rules that cannot apply do nothing (`turn_of_not_live`), and the others have no ties
(`live_rules_eq`).
-/

namespace Innerwarden.Pipeline

open EarlyReturn List KeyedTable

/-! ## Runs -/

/-- `EventPipeline::new`. -/
def newPipeline (crates : PipelineCrates) (today : String) (sources : RuleSources)
    (enabled : Bool) (order : List CompiledRule → List CompiledRule) : EventPipeline where
  rules := (reload crates today sources order).1
  enabled := enabled
  state := ⟨0, fun _ => {}, []⟩

/-- A pipeline that is given events.  It answers with the event as it has been tagged and with
whether it is to be persisted. -/
def pipelineMachine (p : EventPipeline) :
    StateMachine EventPipeline PersistCall (Event × Bool) where
  init := p
  step p call := ((shouldPersist p call).1, (shouldPersist p call).2)

/-- Two calls differ in the order of a hash map only. -/
def SameEvent (call call' : PersistCall) : Prop := call.event = call'.event ∧ call.now = call'.now

/-! ## Settled steps -/

/-- A rule can apply to an event, whatever the scores. -/
def CompiledRule.live (event : Event) (rule : CompiledRule) : Bool :=
  rule.pidScoreMin.isSome || rule.matches event

def scoresWith (pid : UInt32) (scores : List (UInt32 × PidScoreEntry)) : Nat :=
  if scores.any (·.1 = pid) then scores.length else scores.length + 1

/-- The score of the event's process finds room. -/
def HasRoom (event : Event) (s : PipelineState) : Prop :=
  ∀ pid, event.pid = some pid → scoresWith pid s.pidScores ≤ pidScoreMapCap

/-- No two rules of one priority can both apply, and no score has to be evicted. -/
def Settled (p : EventPipeline) (call : PersistCall) : Prop :=
  (∀ rule ∈ p.rules, ∀ other ∈ p.rules, rule.priority = other.priority →
    rule.live call.event = true → other.live call.event = true → rule.id = other.id) ∧
  HasRoom call.event (forgetExited p.state call.event)

/-! ## The scores -/

section Scores

variable {call call' : PersistCall} {pid : UInt32} {scores : List (UInt32 × PidScoreEntry)}
  {s : PipelineState} {rule : CompiledRule}

theorem bumpPidScore_of_room (h : scoresWith pid scores ≤ pidScoreMapCap) (call : PersistCall)
    (score decayMinutes : UInt32) :
    bumpPidScore call pid score decayMinutes scores =
      let entry := bumpedEntry call.now pid score decayMinutes scores
      KeyedTable.upsert Prod.fst (fun _ => (pid, entry)) (pid, entry) scores := by
  refine if_neg (Nat.not_lt.mpr ?_)
  rw [length_upsert]
  exact h

theorem scoresWith_bumpPidScore (h : scoresWith pid scores ≤ pidScoreMapCap)
    (score decayMinutes : UInt32) :
    scoresWith pid (bumpPidScore call pid score decayMinutes scores) ≤ pidScoreMapCap := by
  rw [bumpPidScore_of_room h, scoresWith,
    if_pos (any_upsert (fun _ _ => rfl) scores), length_upsert]
  exact h

theorem runAction_congr (hsame : SameEvent call call') (h : HasRoom call.event s) :
    runAction call rule s call.event = runAction call' rule s call'.event := by
  rw [← hsame.1]
  unfold runAction
  cases rule.action with
  | scoreIncrement score decayMinutes =>
    cases hpid : call.event.pid with
    | none => rfl
    | some pid =>
      have hbump := bumpPidScore_of_room (h pid hpid)
      simp only [hbump, hsame.2]
  | _ => rfl

theorem hasRoom_runAction (h : HasRoom call.event s) :
    HasRoom call.event (runAction call rule s call.event).1 := by
  intro pid hpid
  unfold runAction PipelineState.count
  cases rule.action with
  | scoreIncrement score decayMinutes =>
    simp only [hpid]
    exact scoresWith_bumpPidScore (h pid hpid) score decayMinutes
  | _ => exact h pid hpid

theorem turn_shuffle_congr {g : Gate} {scan : Scan} (hsame : SameEvent call call')
    (h : HasRoom call.event scan.state) :
    turn call g scan rule = turn call' g scan rule := by
  have hevent : scan.event call = scan.event call' := by rw [Scan.event, hsame.1, Scan.event]
  unfold turn
  rw [hevent, runAction_congr hsame (s := scan.state.count rule.id bumpMatched) h]

theorem hasRoom_turn {g : Gate} {scan : Scan} (h : HasRoom call.event scan.state) :
    HasRoom call.event (turn call g scan rule).1.state := by
  cases hgate : g scan.state (scan.event call) rule with
  | false => rw [turn_of_not_gate hgate]; exact h
  | true =>
    rw [turn_of_gate hgate]
    exact hasRoom_runAction (s := scan.state.count rule.id bumpMatched) h

end Scores

/-! ## The rules -/

section Rules

variable {call call' : PersistCall} {p p' : EventPipeline}

theorem turn_of_not_live {scan : Scan} {rule : CompiledRule}
    (h : rule.live call.event = false) : turn call (gate call.now) scan rule = (scan, none) := by
  obtain ⟨hscore, hmatches⟩ := Bool.or_eq_false_iff.mp h
  refine turn_of_not_gate ?_
  cases hmin : rule.pidScoreMin with
  | none => rw [gate, hmin]; exact hmatches
  | some minScore => rw [hmin] at hscore; cases hscore

/-- The rules of two pipelines that differ in the order of the hash maps only. -/
structure SameRules (p p' : EventPipeline) : Prop where
  perm : p.rules.Perm p'.rules
  ids : (p.rules.map CompiledRule.id).Nodup
  sorted : p.rules.Pairwise fun a b => b.priority ≤ a.priority
  sorted' : p'.rules.Pairwise fun a b => b.priority ≤ a.priority

theorem live_rules_eq (hsame : SameRules p p') (h : Settled p call) :
    p.rules.filter (CompiledRule.live call.event) =
      p'.rules.filter (CompiledRule.live call.event) := by
  have hsorted := hsame.sorted.sublist (filter_sublist (p := CompiledRule.live call.event))
  have hsorted' := hsame.sorted'.sublist (filter_sublist (p := CompiledRule.live call.event))
  refine List.Perm.eq_of_pairwise ?_ hsorted hsorted' (hsame.perm.filter _)
  intro rule other hrule hother hle hge
  obtain ⟨hrule, hlive⟩ := mem_filter.mp hrule
  obtain ⟨hother, hlive'⟩ := mem_filter.mp hother
  have hother := hsame.perm.mem_iff.mpr hother
  exact inj_on_of_nodup_map hsame.ids hrule hother
    (h.1 rule hrule other hother (UInt32.le_antisymm hge hle) hlive hlive')

/-- The evaluation of a settled step does not depend on the orders. -/
theorem evaluation_eq (hsame : SameRules p p') (hstate : p.state = p'.state)
    (hcall : SameEvent call call') (h : Settled p call) :
    evaluation p call = evaluation p' call' := by
  have hfirst : firstScan p'.state call' = firstScan p.state call := by
    rw [firstScan, ← hstate, ← hcall.1, firstScan]
  have hroom : ∀ rule scan, Turn (turn call (gate call.now)) p'.rules (firstScan p.state call)
      rule scan → HasRoom call.event scan.state := by
    intro rule scan hturn
    refine hturn.invariant (P := fun scan => HasRoom call.event scan.state) ?_ h.2
    intro scan rule scan' hstep hscan
    have hnext : HasRoom call.event (turn call (gate call.now) scan rule).1.state :=
      hasRoom_turn hscan
    rw [hstep] at hnext
    exact hnext
  calc evaluation p call
      = loop (turn call (gate call.now)) (p.rules.filter (CompiledRule.live call.event))
          (firstScan p.state call) := (loop_filter fun _ _ => turn_of_not_live).symm
    _ = loop (turn call (gate call.now)) p'.rules (firstScan p.state call) := by
        rw [live_rules_eq hsame h]
        exact loop_filter fun _ _ => turn_of_not_live
    _ = loop (turn call' (gate call.now)) p'.rules (firstScan p.state call) :=
        loop_congr fun rule scan hturn => turn_shuffle_congr hcall (hroom rule scan hturn)
    _ = evaluation p' call' := by rw [evaluation, hfirst, hcall.2]

end Rules

/-! ## Two runs -/

/-- Two pipelines that differ in the order of the hash maps only. -/
structure SamePipeline (p p' : EventPipeline) : Prop extends SameRules p p' where
  enabled : p.enabled = p'.enabled
  state : p.state = p'.state

theorem shouldPersist_eq {p p' : EventPipeline} {call call' : PersistCall}
    (hsame : SamePipeline p p') (hcall : SameEvent call call') (h : Settled p call) :
    SamePipeline (shouldPersist p call).1 (shouldPersist p' call').1 ∧
      (shouldPersist p call).2 = (shouldPersist p' call').2 := by
  have heval := evaluation_eq hsame.toSameRules hsame.state hcall h
  have hempty : p.rules.isEmpty = p'.rules.isEmpty := hsame.perm.isEmpty_eq
  unfold shouldPersist
  rw [hsame.enabled, hempty, heval]
  split
  · exact ⟨hsame, by rw [hcall.1]⟩
  · refine ⟨⟨⟨hsame.perm, hsame.ids, hsame.sorted, hsame.sorted'⟩, rfl, rfl⟩, ?_⟩
    simp only [Scan.event, hcall.1]

theorem reload_sorted (crates : PipelineCrates) (today : String) (sources : RuleSources)
    (order : List CompiledRule → List CompiledRule) :
    (reload crates today sources order).1.Pairwise fun a b => b.priority ≤ a.priority := by
  have : Std.Total fun a b : CompiledRule => b.priority ≤ a.priority :=
    ⟨fun a b => UInt32.le_total b.priority a.priority⟩
  have : IsTrans CompiledRule fun a b => b.priority ≤ a.priority :=
    ⟨fun _ _ _ hab hbc => UInt32.le_trans hbc hab⟩
  exact pairwise_insertionSort _ _

/-- Two pipelines that load the same files and are given the same events answer alike, tag the
events alike and have the same counters, whatever the orders of their hash maps, in every run
with settled steps. -/
theorem runs_agree (crates : PipelineCrates) (today : String) (sources : RuleSources)
    (enabled : Bool) {order order' : List CompiledRule → List CompiledRule}
    (horder : ∀ rules, (order rules).Perm rules) (horder' : ∀ rules, (order' rules).Perm rules)
    {calls calls' : List PersistCall} (hcalls : List.Forall₂ SameEvent calls calls')
    (hsettled : (pipelineMachine (newPipeline crates today sources enabled order)).Meets Settled
      (newPipeline crates today sources enabled order) calls) :
    let p := newPipeline crates today sources enabled order
    let p' := newPipeline crates today sources enabled order'
    (pipelineMachine p).trace p calls = (pipelineMachine p').trace p' calls' ∧
      ∀ id, ((pipelineMachine p).exec p calls).state.counters id =
        ((pipelineMachine p').exec p' calls').state.counters id := by
  intro p p'
  have hsame : SamePipeline p p' :=
    { perm := (reload_rules_perm sources horder).trans (reload_rules_perm sources horder').symm
      ids := reload_ids_nodup sources horder
      sorted := reload_sorted crates today sources order
      sorted' := reload_sorted crates today sources order'
      enabled := rfl
      state := rfl }
  obtain ⟨hend, htrace⟩ :
      SamePipeline ((pipelineMachine p).exec p calls) ((pipelineMachine p').exec p' calls') ∧
        (pipelineMachine p).trace p calls = (pipelineMachine p').trace p' calls' :=
    StateMachine.exec_trace_lockstep (R := SamePipeline) (S := SameEvent) (G := Settled)
      (fun _ _ _ _ hsame hcall hset => shouldPersist_eq hsame hcall hset) hcalls hsame hsettled
  exact ⟨htrace, fun id => by rw [hend.state]⟩

/-! ## Rules of one priority -/

/-- A file with a rule that drops the events of a source and one that keeps them. -/
def tieYaml : String :=
  "version: 1\nrules:\n  - id: keep\n    match:\n      source: ebpf\n    action: force_emit\n" ++
  "  - id: lose\n    match:\n      source: ebpf\n    action: drop\n"

def rankedYaml : String :=
  "version: 1\nrules:\n  - id: keep\n    priority: 60\n    match:\n      source: ebpf\n" ++
  "    action: force_emit\n  - id: lose\n    match:\n      source: ebpf\n    action: drop\n"

def ebpfRule (id : String) (priority : UInt32) (action : ActionKind) : RawRule where
  id := id
  priority := priority
  matchPreds := some { source := some "ebpf" }
  action := action

/-- The crates as they are on these files. -/
def tieCrates : PipelineCrates where
  parseRuleFile yaml :=
    if yaml = tieYaml then
      .ok ⟨1, [], [ebpfRule "keep" 50 .forceEmit, ebpfRule "lose" 50 .drop]⟩
    else if yaml = rankedYaml then
      .ok ⟨1, [], [ebpfRule "keep" 60 .forceEmit, ebpfRule "lose" 50 .drop]⟩
    else .error "missing field version"
  displayF64 _ := "0"
  globNew _ := .ok ()
  globSet patterns := .ok (patterns.contains ·)

def tieSources (text : String) : RuleSources where
  builtinPacks := []
  dir := some [⟨"10-ebpf.yml", true, .ok text⟩]

def ebpfCall : PersistCall where
  event := ⟨0, "host", "ebpf", "file.read_access", .info, "read", .obj [], [], []⟩
  now := 0
  shuffle entries := entries

theorem ranked_settled :
    Settled (newPipeline tieCrates "2026-01-01" (tieSources rankedYaml) true id) ebpfCall := by
  refine ⟨by decide +kernel, fun pid h => ?_⟩
  have hpid : ebpfCall.event.pid = none := by decide +kernel
  rw [hpid] at h
  nomatch h

/-- With different priorities the order of the hash map does not matter. -/
theorem runs_agree_ranked :
    let p := newPipeline tieCrates "2026-01-01" (tieSources rankedYaml) true id
    let p' := newPipeline tieCrates "2026-01-01" (tieSources rankedYaml) true List.reverse
    (pipelineMachine p).trace p [ebpfCall] = (pipelineMachine p').trace p' [ebpfCall] ∧
      ∀ id, ((pipelineMachine p).exec p [ebpfCall]).state.counters id =
        ((pipelineMachine p').exec p' [ebpfCall]).state.counters id := by
  have horder : ∀ rules : List CompiledRule, (id rules).Perm rules := List.Perm.refl
  have horder' : ∀ rules : List CompiledRule, rules.reverse.Perm rules := reverse_perm
  have hcalls : List.Forall₂ SameEvent [ebpfCall] [ebpfCall] := .cons ⟨rfl, rfl⟩ .nil
  have hsettled : (pipelineMachine (newPipeline tieCrates "2026-01-01" (tieSources rankedYaml)
      true id)).Meets Settled (newPipeline tieCrates "2026-01-01" (tieSources rankedYaml)
      true id) [ebpfCall] := ⟨ranked_settled, trivial⟩
  exact runs_agree tieCrates "2026-01-01" (tieSources rankedYaml) true horder horder' hcalls
    hsettled

/-- Two rules of one priority: one order of the hash map keeps the event, the other drops
it. -/
theorem tie_depends_on_order :
    let p := newPipeline tieCrates "2026-01-01" (tieSources tieYaml) true id
    let p' := newPipeline tieCrates "2026-01-01" (tieSources tieYaml) true List.reverse
    ((pipelineMachine p).trace p [ebpfCall]).map Prod.snd = [true] ∧
      ((pipelineMachine p').trace p' [ebpfCall]).map Prod.snd = [false] := by
  decide +kernel

end Innerwarden.Pipeline

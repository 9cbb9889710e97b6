import Mathlib.Data.Bool.Count
import Mathlib.Data.List.Dedup
import Innerwarden.Pipeline.HashOrder
import Innerwarden.Pipeline.Sampling

/-!
# The totals of the pipeline

`total_persisted` and `total_dropped` add up the counters of all rules, and `check_backstop`
takes them for numbers of events.  An `emit` or `score_increment` rule is counted as emitting
and does not end the evaluation, so an event may be counted several times, or once though it is
dropped, or not at all.  `countsEvents_iff` says when the totals are those of the events.
-/

namespace Innerwarden.Pipeline

open EarlyReturn StateMachine List Function

/-! ## Totals -/

def PipelineState.tally (s : PipelineState) (ids : List String) (counter : RuleCounters → Nat) :
    Nat :=
  (ids.map fun id => counter (s.counters id)).sum

/-- The ids of the rules.  No other id has a counter that is not zero. -/
def EventPipeline.ids (p : EventPipeline) : List String := (p.rules.map CompiledRule.id).dedup

def EventPipeline.total (p : EventPipeline) (counter : RuleCounters → Nat) : Nat :=
  p.state.tally p.ids counter

def totalPersisted (p : EventPipeline) : Nat := p.total RuleCounters.emitted

def totalDropped (p : EventPipeline) : Nat := p.total RuleCounters.dropped

/-- The drop rate of `check_backstop`. -/
def dropRate (p : EventPipeline) : ℚ :=
  totalDropped p / (totalPersisted p + totalDropped p : Nat)

/-- The totals after some calls are the numbers of calls that were answered with no and with
yes, and the drop rate is the share of the first. -/
structure CountsEvents (p : EventPipeline) (calls : List PersistCall) : Prop where
  dropped : totalDropped ((pipelineMachine p).exec p calls) =
    (((pipelineMachine p).trace p calls).map Prod.snd).count false
  persisted : totalPersisted ((pipelineMachine p).exec p calls) =
    (((pipelineMachine p).trace p calls).map Prod.snd).count true
  rate : dropRate ((pipelineMachine p).exec p calls) =
    (((pipelineMachine p).trace p calls).map Prod.snd).count false / (calls.length : ℚ)

/-! ## What a call counts -/

def callTurns (p : EventPipeline) (call : PersistCall) : List (CompiledRule × Scan) :=
  turns (turn call (gate call.now)) p.inForce (firstScan p.state call)

/-- The number of rules that are applied to the event and let the evaluation go on. -/
def passing (p : EventPipeline) (call : PersistCall) : Nat :=
  (callTurns p call).countP fun t => applies call t && !t.1.action.isTerminal

/-- One if no rule that is applied to the event ends the evaluation. -/
def undecided (p : EventPipeline) (call : PersistCall) : Nat :=
  if (callTurns p call).any fun t => applies call t && t.1.action.isTerminal then 0 else 1

def overRun (f : EventPipeline → PersistCall → Nat) : EventPipeline → List PersistCall → Nat
  | _, [] => 0
  | p, call :: calls => f p call + overRun f (shouldPersist p call).1 calls

section Counting

variable {ids : List String} {counter : RuleCounters → Nat}

theorem sum_map_toNat {α : Type*} (q : α → Bool) (l : List α) :
    (l.map fun a => (q a).toNat).sum = l.countP q := by
  induction l with
  | nil => rfl
  | cons a l ih => cases hq : q a <;> simp [hq, ih, Nat.add_comm]

/-- A rule that is counted adds to the sum what it adds to its counter. -/
theorem tally_count (hnodup : ids.Nodup) {id : String} (hid : id ∈ ids) (s : PipelineState)
    {bump : RuleCounters → RuleCounters} {d : Nat} (hd : ∀ c, counter (bump c) = counter c + d) :
    (s.count id bump).tally ids counter = s.tally ids counter + d := by
  show (ids.map fun x => counter (update s.counters id (bump (s.counters id)) x)).sum =
    (ids.map fun x => counter (s.counters x)).sum + d
  induction ids with
  | nil => cases hid
  | cons x ids ih =>
    obtain ⟨hx, hnodup⟩ := nodup_cons.mp hnodup
    rw [map_cons, map_cons, sum_cons, sum_cons]
    by_cases heq : x = id
    · subst heq
      have hrest : (ids.map fun y => counter
          (update s.counters x (bump (s.counters x)) y)) =
          ids.map fun y => counter (s.counters y) := by
        refine map_congr_left fun y hy => ?_
        rw [update_of_ne (ne_of_mem_of_not_mem hy hx)]
      rw [hrest, update_self, hd]
      omega
    · have hid := (mem_cons.mp hid).resolve_left (Ne.symm heq)
      rw [update_of_ne heq, ih hnodup hid]
      omega

variable {call : PersistCall} {rule : CompiledRule}

/-- What an action adds to a counter, by the verdict. -/
theorem tally_runAction (hnodup : ids.Nodup) (hid : rule.id ∈ ids) (s : PipelineState)
    (emitted dropped : Nat) (hemitted : ∀ c, counter (bumpEmitted c) = counter c + emitted)
    (hdropped : ∀ c, counter (bumpDropped c) = counter c + dropped) :
    (runAction call rule s call.event).1.tally ids counter = s.tally ids counter +
      if rule.verdict s.sampleCounter = some false then dropped else emitted := by
  unfold runAction CompiledRule.verdict
  cases rule.action with
  | forceEmit | emit => exact tally_count hnodup hid s hemitted
  | drop => exact tally_count hnodup hid s hdropped
  | scoreIncrement score decayMinutes =>
    cases call.event.pid with
    | none => exact tally_count hnodup hid s hemitted
    | some pid => exact tally_count hnodup hid { s with pidScores := _ } hemitted
  | sample =>
    cases hsample : (shouldSample s.sampleCounter rule.sampleRate).2 with
    | false =>
      dsimp only
      rw [hsample]
      exact tally_count hnodup hid { s with sampleCounter := _ } hdropped
    | true =>
      dsimp only
      rw [hsample]
      exact tally_count hnodup hid { s with sampleCounter := _ } hemitted

theorem tally_turn (hnodup : ids.Nodup) (hid : rule.id ∈ ids) (scan : Scan)
    (emitted dropped : Nat) (hmatched : ∀ c, counter (bumpMatched c) = counter c)
    (hemitted : ∀ c, counter (bumpEmitted c) = counter c + emitted)
    (hdropped : ∀ c, counter (bumpDropped c) = counter c + dropped) :
    (turn call (gate call.now) scan rule).1.state.tally ids counter = scan.state.tally ids counter +
      if applies call (rule, scan) then
        if (turn call (gate call.now) scan rule).2 = some false then dropped else emitted
      else 0 := by
  cases happlies : applies call (rule, scan) with
  | false => rw [turn_of_not_gate happlies, if_neg Bool.false_ne_true, Nat.add_zero]
  | true =>
    rw [turn_verdict happlies, turn_of_gate happlies, if_pos rfl]
    refine (tally_runAction hnodup hid _ emitted dropped hemitted hdropped).trans ?_
    rw [tally_count hnodup hid scan.state (d := 0) hmatched]
    rfl

theorem isSome_turn (call : PersistCall) (t : CompiledRule × Scan) :
    (turn call (gate call.now) t.2 t.1).2.isSome =
      (applies call t && t.1.action.isTerminal) := by
  cases happlies : applies call t with
  | false => rw [turn_of_not_gate happlies]; rfl
  | true => rw [turn_verdict happlies, isSome_verdict, Bool.true_and]

theorem dropped_turn (hnodup : ids.Nodup) (hid : rule.id ∈ ids) (scan : Scan) :
    (turn call (gate call.now) scan rule).1.state.tally ids RuleCounters.dropped =
      scan.state.tally ids RuleCounters.dropped +
        (decide ((turn call (gate call.now) scan rule).2 = some false)).toNat := by
  rw [tally_turn hnodup hid scan 0 1 (fun _ => rfl) (fun _ => rfl) (fun _ => rfl)]
  cases happlies : applies call (rule, scan) with
  | false => rw [turn_of_not_gate happlies]; rfl
  | true =>
    cases (turn call (gate call.now) scan rule).2 with
    | none => rfl
    | some b => cases b <;> rfl

theorem emitted_turn (hnodup : ids.Nodup) (hid : rule.id ∈ ids) (scan : Scan) :
    (turn call (gate call.now) scan rule).1.state.tally ids RuleCounters.emitted =
      scan.state.tally ids RuleCounters.emitted +
        ((applies call (rule, scan) && !rule.action.isTerminal).toNat +
          (decide ((turn call (gate call.now) scan rule).2 = some true)).toNat) := by
  have hterminal := isSome_turn call (rule, scan)
  rw [tally_turn hnodup hid scan 1 0 (fun _ => rfl) (fun _ => rfl) (fun _ => rfl)]
  cases happlies : applies call (rule, scan) with
  | false => rw [turn_of_not_gate happlies]; rfl
  | true =>
    rw [happlies, Bool.true_and] at hterminal
    rw [Bool.true_and, ← hterminal]
    cases (turn call (gate call.now) scan rule).2 with
    | none => rfl
    | some b => cases b <;> rfl

end Counting

/-! ## One call -/

section Call

variable {p : EventPipeline} {call : PersistCall}

theorem evaluation_of_inForce (h : p.inForce ≠ []) :
    evaluation p call = loop (turn call (gate call.now)) p.inForce (firstScan p.state call) := by
  rw [evaluation, inForce_eq_rules h]

/-- The evaluation gives no verdict exactly when no rule ends it. -/
theorem undecided_eq (h : p.inForce ≠ []) :
    undecided p call = (evaluation p call).2.isNone.toNat := by
  have hany : ((callTurns p call).any fun t => applies call t && t.1.action.isTerminal) =
      (evaluation p call).2.isSome := by
    rw [evaluation_of_inForce h, Bool.eq_iff_iff, any_eq_true, Option.isSome_iff_exists]
    simp only [← isSome_turn, loop_eq_some_iff, Option.isSome_iff_exists]
    constructor
    · rintro ⟨t, ht, b, hb⟩
      exact ⟨b, t.1, t.2, mem_turns_iff.mp ht, hb⟩
    · rintro ⟨b, rule, scan, hturn, hb⟩
      exact ⟨(rule, scan), mem_turns_iff.mpr hturn, b, hb⟩
  rw [undecided, hany]
  cases (evaluation p call).2 <;> rfl

theorem ids_nodup (p : EventPipeline) : p.ids.Nodup := nodup_dedup _

theorem id_mem_ids {rule : CompiledRule} (h : rule ∈ p.inForce) : rule.id ∈ p.ids :=
  mem_dedup.mpr (mem_map_of_mem (mem_rules_of_mem_inForce h))

/-- What the turns of a call add to a counter. -/
theorem tally_evaluation (h : p.inForce ≠ []) {counter : RuleCounters → Nat}
    {d : CompiledRule → Scan → Nat}
    (hturn : ∀ scan, ∀ rule ∈ p.inForce, (turn call (gate call.now) scan rule).1.state.tally p.ids
      counter = scan.state.tally p.ids counter + d rule scan) :
    (evaluation p call).1.state.tally p.ids counter =
      p.total counter + ((callTurns p call).map fun t => d t.1 t.2).sum := by
  rw [evaluation_of_inForce h]
  refine (loop_count (f := fun scan : Scan => scan.state.tally p.ids counter)
    (d := fun t => d t.1 t.2) hturn).trans ?_
  unfold PipelineState.tally firstScan EventPipeline.total PipelineState.tally
  rw [forgetExited_counters]
  rfl

theorem dropped_evaluation (h : p.inForce ≠ []) (call : PersistCall) :
    (evaluation p call).1.state.tally p.ids RuleCounters.dropped =
      totalDropped p + if (evaluation p call).2 = some false then 1 else 0 := by
  rw [tally_evaluation h fun scan _ hrule => dropped_turn (ids_nodup p) (id_mem_ids hrule) scan,
    evaluation_of_inForce h, ← countP_turns, ← sum_map_toNat]
  rfl

theorem emitted_evaluation (h : p.inForce ≠ []) (call : PersistCall) :
    (evaluation p call).1.state.tally p.ids RuleCounters.emitted =
      totalPersisted p + (passing p call + if (evaluation p call).2 = some true then 1 else 0) := by
  rw [tally_evaluation h fun scan _ hrule => emitted_turn (ids_nodup p) (id_mem_ids hrule) scan,
    evaluation_of_inForce h, ← countP_turns, ← sum_map_toNat, passing, ← sum_map_toNat,
    sum_map_add]
  rfl

theorem totals_shouldPersist (call : PersistCall) (h : p.inForce ≠ []) :
    totalDropped (shouldPersist p call).1 =
        totalDropped p + (!(shouldPersist p call).2.2).toNat ∧
      totalPersisted (shouldPersist p call).1 + undecided p call =
        totalPersisted p + passing p call + (shouldPersist p call).2.2.toNat := by
  have hdropped := dropped_evaluation h call
  have hemitted := emitted_evaluation h call
  rw [undecided_eq h, shouldPersist_of_inForce h]
  constructor
  · refine hdropped.trans ?_
    rcases (evaluation p call).2 with _ | _ | _ <;> rfl
  · refine (congrArg (· + (evaluation p call).2.isNone.toNat) hemitted).trans ?_
    rcases (evaluation p call).2 with _ | _ | _ <;> rfl

end Call

/-! ## Runs -/

section Run

variable {p : EventPipeline}

theorem inForce_shouldPersist (p : EventPipeline) (call : PersistCall) :
    (shouldPersist p call).1.inForce = p.inForce := by
  unfold shouldPersist
  split <;> rfl

/-- What the calls of a run add to the totals. -/
theorem totals_exec (M : StateMachine EventPipeline PersistCall (Event × Bool))
    (hstep : ∀ q call, M.step q call = shouldPersist q call) (h : p.inForce ≠ [])
    (calls : List PersistCall) :
    totalDropped (M.exec p calls) =
        totalDropped p + ((M.trace p calls).map Prod.snd).count false ∧
      totalPersisted (M.exec p calls) + overRun undecided p calls =
        totalPersisted p + overRun passing p calls +
          ((M.trace p calls).map Prod.snd).count true := by
  induction calls generalizing p with
  | nil => exact ⟨rfl, rfl⟩
  | cons call calls ih =>
    obtain ⟨hdropped, hpersisted⟩ := totals_shouldPersist call h
    obtain ⟨ihd, ihp⟩ := ih (p := (shouldPersist p call).1) (by rwa [inForce_shouldPersist])
    rw [exec_cons, trace_cons, hstep, map_cons, count_cons, count_cons, overRun,
      overRun]
    cases hanswer : (shouldPersist p call).2.2 with
    | false =>
      rw [hanswer] at hdropped hpersisted
      simp only [Bool.not_false, Bool.toNat_true, Bool.toNat_false] at hdropped hpersisted
      simp only [beq_self_eq_true, reduceIte, Bool.false_beq, Bool.not_true, Bool.false_eq_true]
      omega
    | true =>
      rw [hanswer] at hdropped hpersisted
      simp only [Bool.not_true, Bool.toNat_true, Bool.toNat_false] at hdropped hpersisted
      simp only [beq_self_eq_true, reduceIte, Bool.true_beq, Bool.false_eq_true]
      omega

theorem total_of_fresh (hfresh : ∀ id, p.state.counters id = {}) (counter : RuleCounters → Nat)
    (hzero : counter {} = 0) : p.total counter = 0 := by
  unfold EventPipeline.total PipelineState.tally
  simp [hfresh, hzero]

end Run

/-- The totals of a run from fresh counters are those of the events exactly when there are as
many rules that are applied and let the evaluation go on as there are events that no rule
decides. -/
theorem countsEvents_iff (p : EventPipeline) (henabled : p.enabled = true) (hrules : p.rules ≠ [])
    (hfresh : ∀ id, p.state.counters id = {}) (calls : List PersistCall) :
    CountsEvents p calls ↔ overRun passing p calls = overRun undecided p calls := by
  have hne : p.inForce ≠ [] := by rwa [EventPipeline.inForce, if_pos henabled]
  obtain ⟨hdropped, hpersisted⟩ := totals_exec (pipelineMachine p) (fun _ _ => rfl) hne calls
  rw [show totalDropped p = 0 from total_of_fresh hfresh _ rfl, Nat.zero_add] at hdropped
  rw [show totalPersisted p = 0 from total_of_fresh hfresh _ rfl, Nat.zero_add] at hpersisted
  constructor
  · intro h
    have := h.persisted
    omega
  · intro heq
    have htrue : totalPersisted ((pipelineMachine p).exec p calls) =
        (((pipelineMachine p).trace p calls).map Prod.snd).count true := by omega
    refine ⟨hdropped, htrue, ?_⟩
    rw [dropRate, hdropped, htrue, count_true_add_count_false, length_map, length_trace]

def probeCall : PersistCall := { loginCall with event := { loginCall.event with source := "ebpf" } }

theorem countsEvents_iff_probe :
    (probePipeline none).enabled = true ∧ (probePipeline none).rules ≠ [] ∧
      (∀ id, (probePipeline none).state.counters id = {}) ∧
      CountsEvents (probePipeline none) [probeCall] :=
  ⟨rfl, cons_ne_nil _ _, fun _ => rfl,
    (countsEvents_iff (probePipeline none) rfl (cons_ne_nil _ _) (fun _ => rfl)
      [probeCall]).mpr (by decide +kernel)⟩

/-- A rule that emits the events of the kernel probes, and one that drops them. -/
def emitThenDrop : EventPipeline :=
  { probePipeline none with
    rules := [assembleRule { id := "emit-probe", action := .emit } { source := some "ebpf" } .emit
      none none none, dropProbeCompiled none] }

/-- An event that is emitted by one rule and dropped by the next is counted as both, and one
that no rule matches is not counted. -/
theorem totals_miscount :
    (¬ CountsEvents emitThenDrop [probeCall] ∧
      ((pipelineMachine emitThenDrop).trace emitThenDrop [probeCall]).map Prod.snd = [false] ∧
      totalPersisted ((pipelineMachine emitThenDrop).exec emitThenDrop [probeCall]) = 1) ∧
    ¬ CountsEvents (probePipeline none) [loginCall] := by
  have htrace : ((pipelineMachine emitThenDrop).trace emitThenDrop [probeCall]).map Prod.snd =
      [false] := by decide +kernel
  have htotal :
      totalPersisted ((pipelineMachine emitThenDrop).exec emitThenDrop [probeCall]) = 1 := by
    decide +kernel
  refine ⟨⟨fun h => ?_, htrace, htotal⟩, fun h => ?_⟩
  · have := h.persisted
    rw [htrace, htotal] at this
    cases this
  · exact absurd h.persisted (by decide +kernel)

end Innerwarden.Pipeline

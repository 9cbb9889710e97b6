import Mathlib.Algebra.Order.Ring.Int
import Innerwarden.Correlation.Soundness

/-!
# The window of a chain

The window of a rule is documented as the most seconds between the first and the last event of
a chain.  `observe` compares the timestamp of each event with a deadline.  An event that comes
late has an earlier timestamp, so the chain it completes can span any time.  `fitsWindow_of_near`:
all chains fit if no event is added to a pending chain from which it is further than the window.
-/

namespace Innerwarden.Correlation

open StateMachine List

/-! ## The span of a chain -/

/-- The chain spans no more than the window of its rule. -/
def FitsWindow (rules : List CorrelationRule) (chain : AttackChain) : Prop :=
  ∀ R, rules.find? (·.id = chain.ruleId) = some R →
    0 ≤ chain.lastTs - chain.startTs ∧
      chain.lastTs - chain.startTs ≤ seconds R.windowSecs.toNat

/-- No two of the events are further apart than the window of the rule. -/
def WithinWindow (rules : List CorrelationRule) (pc : PendingChain) : Prop :=
  ∀ R, rules.find? (·.id = pc.ruleId) = some R →
    ∀ a ∈ pc.matchedEvents, ∀ b ∈ pc.matchedEvents, a.ts - b.ts ≤ seconds R.windowSecs.toNat

section Span

def byTime (events : List CorrelationEvent) : List CorrelationEvent :=
  events.insertionSort fun a b => a.ts ≤ b.ts

theorem pairwise_byTime (events : List CorrelationEvent) :
    (byTime events).Pairwise fun a b => a.ts ≤ b.ts := by
  have : Std.Total fun a b : CorrelationEvent => a.ts ≤ b.ts := ⟨fun a b => le_total a.ts b.ts⟩
  have : IsTrans CorrelationEvent fun a b => a.ts ≤ b.ts := ⟨fun _ _ _ => le_trans⟩
  exact pairwise_insertionSort _ events

theorem mem_byTime {events : List CorrelationEvent} {e : CorrelationEvent} :
    e ∈ byTime events ↔ e ∈ events := mem_insertionSort _

/-- The first and the last timestamp of a chain are those of two of its events, and all others
lie between them. -/
theorem exists_span (rule : CorrelationRule) (id : Nat) (now : DateTime) {pc : PendingChain}
    (hne : pc.matchedEvents ≠ []) :
    ∃ first ∈ pc.matchedEvents, ∃ last ∈ pc.matchedEvents,
      (attackChain rule id now pc).startTs = first.ts ∧
      (attackChain rule id now pc).lastTs = last.ts ∧
      ∀ e ∈ pc.matchedEvents, first.ts ≤ e.ts ∧ e.ts ≤ last.ts := by
  have hsorted := pairwise_byTime pc.matchedEvents
  have hne' : byTime pc.matchedEvents ≠ [] := by
    obtain ⟨e, he⟩ := exists_mem_of_ne_nil _ hne
    exact ne_nil_of_mem (mem_byTime.mpr he)
  refine ⟨(byTime pc.matchedEvents).head hne', mem_byTime.mp (head_mem hne'),
    (byTime pc.matchedEvents).getLast hne', mem_byTime.mp (getLast_mem hne'), ?_, ?_,
    fun e he => ⟨?_, ?_⟩⟩
  · show ((byTime pc.matchedEvents).head?.map CorrelationEvent.ts).getD now = _
    rw [head?_eq_some_head hne']
    rfl
  · show ((byTime pc.matchedEvents).getLast?.map CorrelationEvent.ts).getD now = _
    rw [getLast?_eq_some_getLast hne']
    rfl
  · exact hsorted.rel_head_of_rel_head_head (mem_byTime.mpr he) (le_refl _)
  · exact hsorted.rel_getLast_of_rel_getLast_getLast (mem_byTime.mpr he) (le_refl _)

variable {rules : List CorrelationRule}

/-- A chain whose events lie within the window fits. -/
theorem WithinWindow.fitsWindow {now : DateTime} {entry : String × PendingChain}
    {chain : AttackChain} (hwithin : WithinWindow rules entry.2) (hne : entry.2.matchedEvents ≠ [])
    (h : EmittedAs rules now entry chain) : FitsWindow rules chain := by
  have hid := h.ruleId
  obtain ⟨rule, id, -, rfl⟩ := h
  obtain ⟨first, hfirst, last, hlast, hstart, hend, hbetween⟩ := exists_span rule id now hne
  intro R hfind
  rw [hid] at hfind
  rw [hstart, hend]
  exact ⟨Int.sub_nonneg_of_le (hbetween last hlast).1, hwithin R hfind last hlast first hfirst⟩

end Span

/-! ## The chains of a run -/

section Run

variable {rules : List CorrelationRule}

variable (rules) in
/-- If the event fits the next stage of the chain, it is no further than the window from any event
of the chain, earlier or later. -/
def Near (pc : PendingChain) (event : CorrelationEvent) : Prop :=
  ∀ R ∈ rules.find? (·.id = pc.ruleId), ∀ stage ∈ R.stages[pc.nextStage]?,
    matchesStage stage event pc.matchedEntities pc.ruleId = true →
      ∀ e ∈ pc.matchedEvents, e.ts - event.ts ≤ seconds R.windowSecs.toNat ∧
        event.ts - e.ts ≤ seconds R.windowSecs.toNat

instance (pc : PendingChain) (event : CorrelationEvent) : Decidable (Near rules pc event) :=
  inferInstanceAs (Decidable (∀ _ ∈ _, _))

variable (rules) in
/-- The event is near every pending chain that has not expired. -/
def ArrivesNear : Option CorrelationEngine → Observation → Prop
  | none, _ => True
  | some s, op => ∀ pc ∈ s.pendingChains, op.event.ts < pc.expiresAt → Near rules pc op.event

instance : ∀ (s : Option CorrelationEngine) (op : Observation), Decidable (ArrivesNear rules s op)
  | none, _ => instDecidableTrue
  | some s, op => inferInstanceAs (Decidable (∀ pc ∈ s.pendingChains, _ → Near rules pc op.event))

theorem WithinWindow.advance {pc : PendingChain} {event : CorrelationEvent}
    (h : WithinWindow rules pc) (hnear : Near rules pc event) :
    WithinWindow rules (advanceChain rules event pc).1 := by
  rcases advanceChain_cases rules event pc with hsame | ⟨rule, stage, hfind, hstage, hmatch, hpass⟩
  · rw [hsame]
    exact h
  · have hnew := hnear rule hfind stage hstage hmatch
    rw [hpass]
    intro R hR a ha b hb
    cases hfind.symm.trans hR
    rcases mem_append.mp ha with ha | ha <;> rcases mem_append.mp hb with hb | hb
    · exact h rule hfind a ha b hb
    · rw [mem_singleton.mp hb]
      exact (hnew a ha).1
    · rw [mem_singleton.mp ha]
      exact (hnew b hb).2
    · rw [mem_singleton.mp ha, mem_singleton.mp hb, Int.sub_self]
      exact Int.mul_nonneg (Int.natCast_nonneg _) (by decide)

theorem withinWindow_new (rule : CorrelationRule) (event : CorrelationEvent) (window : Int) :
    WithinWindow rules (.new rule event window) := by
  intro R _ a ha b hb
  rw [mem_singleton.mp ha, mem_singleton.mp hb, Int.sub_self]
  exact Int.mul_nonneg (Int.natCast_nonneg _) (by decide)

variable (rules) in
/-- What the pending chains and the chains emitted so far have in common. -/
def AllWithin (s : Option CorrelationEngine) (emitted : List (List AttackChain)) : Prop :=
  (∀ t, s = some t → ∀ pc ∈ t.pendingChains, WithinWindow rules pc) ∧
    ∀ chain ∈ emitted.flatten, FitsWindow rules chain

theorem AllWithin.step {s : Option CorrelationEngine} {emitted : List (List AttackChain)}
    {op : Observation} (h : AllWithin rules s emitted) (hnear : ArrivesNear rules s op) :
    AllWithin rules ((correlationMachine rules).step s op).1
      (emitted ++ [((correlationMachine rules).step s op).2]) := by
  cases s with
  | none => exact ⟨nofun, by simpa [correlationMachine] using h.2⟩
  | some s =>
    obtain ⟨hpending, hemitted⟩ := h
    have hpending := hpending s rfl
    refine ⟨fun t ht pc hpc => ?_, fun chain hchain => ?_⟩
    · rcases mem_pendingChains_observe ht hpc with ⟨pc₀, hmem, hlive, rfl⟩ | ⟨rule, -, hstart⟩
      · exact (hpending pc₀ hmem).advance (hnear pc₀ hmem hlive)
      · obtain ⟨-, -, window, -, -, -, rfl⟩ := startChain_eq_some hstart
        exact withinWindow_new rule op.event window
    rw [flatten_append, mem_append, flatten_singleton] at hchain
    rcases hchain with hchain | hchain
    · exact hemitted chain hchain
    · obtain ⟨entry, hentry, hchain⟩ := exists_of_mem_emission hchain
      have hdone := (mem_keyed hentry.mem).1
      obtain ⟨pc₀, hmem, hlive, hadv⟩ := mem_newlyCompleted hdone
      have hwithin := (hpending pc₀ hmem).advance (hnear pc₀ hmem hlive)
      rw [hadv] at hwithin
      exact hwithin.fitsWindow (ne_nil_of_mem (newlyCompleted_spec hdone).2) hchain

/-- The chains of a run fit their windows if each event is near the pending chains it meets. -/
theorem fitsWindow_of_near (rules : List CorrelationRule) (ops : List Observation)
    (h : (correlationMachine rules).Meets (ArrivesNear rules) (correlationMachine rules).init ops) :
    ∀ chain ∈ ((correlationMachine rules).trace (correlationMachine rules).init ops).flatten,
      FitsWindow rules chain := by
  have hinit : AllWithin rules (correlationMachine rules).init [] := by
    refine ⟨fun t ht => ?_, nofun⟩
    cases ht
    nofun
  exact (exec_trace_invariant_of_meets (P := AllWithin rules) (fun _ _ _ => AllWithin.step) ops
    hinit h).2

/-- A scan, and a login that is reported late, but not too late. -/
theorem fitsWindow_of_near_late :
    let M := correlationMachine [sampleRule]
    let ops := [sampleObservation 100 .network "port_scan" "203.0.113.7",
      sampleObservation 0 .userspace "ssh.login" "203.0.113.7"]
    (M.trace M.init ops).flatten.map (fun chain => chain.lastTs - chain.startTs) = [seconds 100] ∧
      ∀ chain ∈ (M.trace M.init ops).flatten, FitsWindow [sampleRule] chain := by
  intro M ops
  exact ⟨by decide +kernel, fitsWindow_of_near [sampleRule] ops (by decide +kernel)⟩

/-- A scan, and a login from the same address that is reported late. -/
theorem late_event_exceeds_window :
    let M := correlationMachine [sampleRule]
    let ops := [sampleObservation 5000 .network "port_scan" "203.0.113.7",
      sampleObservation 0 .userspace "ssh.login" "203.0.113.7"]
    ¬ ∀ chain ∈ (M.trace M.init ops).flatten, FitsWindow [sampleRule] chain := by
  intro M ops hfits
  have hspans : (M.trace M.init ops).flatten.map (fun chain =>
      (chain.ruleId, chain.lastTs - chain.startTs)) = [("CL-100", seconds 5000)] := by
    decide +kernel
  obtain ⟨chain, hchain, hspan⟩ := mem_map.mp (hspans ▸ mem_singleton_self _)
  obtain ⟨hid, hspan⟩ := Prod.mk.inj hspan
  have hle := (hfits chain hchain sampleRule (by rw [hid]; decide)).2
  rw [hspan] at hle
  exact absurd hle (by decide)

end Run

end Innerwarden.Correlation

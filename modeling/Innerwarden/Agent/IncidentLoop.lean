import Innerwarden.Agent.PreAiFlow
import Innerwarden.Lib.CursorReader
import Innerwarden.Lib.StateMachine

/-!
# The incident loop

`process_incidents` of `crates/agent/src/process/incidents.rs`.  A tick reads the incidents
after its cursor, moves the cursor to the last of them, and passes them to the gates and to
the AI.  It makes at most `max_ai_calls_per_tick` calls; an incident that comes after them is to
wait for the next tick.

No incident is read twice (`visited_once`), and each is read at some tick (`row_visited`).  So
what is to wait does not come back.  `notLost_iff` says when nothing has to wait.

What the steps around the gates do is an input.  Of the writes to the store only the cursor is
kept: no later tick reads the others.
-/

namespace Innerwarden.IncidentLoop

open StateMachine List

/-! ## One tick -/

/-- Where an incident came from: a row of the store, or the buffer of the autoencoder, in
which the incidents are numbered here. -/
inductive Source where
  | row (id : Int)
  | buffered (n : Nat)

/-- What is done with an incident outside the gates before the AI. -/
structure Gates where
  /-- A step before `evaluate_pre_ai_flow` takes it: the dedup against the graph, the dismissals,
  the suppressions, a live playbook or an auto-response rule. -/
  takenBefore : Bool
  answers : PreAiAnswers
  /-- A step after it does: the obvious incidents, AbuseIPDB, CrowdSec or the honeypot. -/
  takenAfter : Bool
  /-- The provider answers. -/
  decided : Bool

/-- The settings `process_incidents` reads. -/
structure Config extends PreAiConfig where
  aiEnabled : Bool
  circuitBreakerThreshold : Nat
  circuitBreakerCooldownSecs : Int

/-- What a tick gets from outside. -/
structure Tick where
  /-- The incidents that have arrived in the store since the last tick. -/
  arrivals : List Incident
  /-- The buffer of the autoencoder. -/
  neural : List Incident
  /-- There is a provider for decisions. -/
  provider : Bool
  /-- The clock when the breaker is looked at, and when it is tripped. -/
  checkedAt : DateTime
  trippedAt : DateTime
  gates : Source → Gates

/-- The store and what the loop keeps between ticks. -/
structure State where
  incidents : List IncidentRow
  /-- The row `incidents` of `agent_cursors`. -/
  cursor : Option Int
  circuitBreakerUntil : Option DateTime
  /-- How many incidents of the buffer there have been. -/
  buffered : Nat

/-- What the loop did with an incident: `guard` is what `evaluate_pre_ai_flow` got from the guard,
if the incident came so far. -/
structure Visit where
  source : Source
  guard : Option (Option PreAiGuardDecision)

/-- The settings of an agent and the crates it calls.  `parse` is `serde_json::from_str`. -/
structure Agent where
  cfg : Config
  codec : JsonCodec
  chrono : Chrono
  parse : String → Option Incident

section Tick

variable (agent : Agent) (cfg : Config)

/-- `incidents_since`.  A row that cannot be parsed is skipped. -/
def incidentsSince (parse : String → Option Incident) (rows : List IncidentRow) (afterId : Int)
    (limit : Nat) : List (Int × Incident) :=
  (CursorReader.batch IncidentRow.id limit afterId rows).filterMap fun r =>
    (parse r.data).map fun i => (r.id, i)

def readLimit : Nat := 5000

def State.arrived (s : State) (t : Tick) : List IncidentRow :=
  insertIncidentRows agent.codec agent.chrono s.incidents t.arrivals

def State.read (s : State) (t : Tick) : List (Int × Incident) :=
  incidentsSince agent.parse (s.arrived agent t) (s.cursor.getD 0) readLimit

/-- `all_incidents`. -/
def State.items (s : State) (t : Tick) : List (Source × Incident) :=
  (s.read agent t).map (fun r => (.row r.1, r.2)) ++
    t.neural.mapIdx fun k i => (.buffered (s.buffered + k), i)

/-- The circuit breaker: until when it is open, for `count` new incidents. -/
def circuitBreaker (until? : Option DateTime) (t : Tick) (count : Nat) : Option DateTime :=
  let until? := until?.filter fun u => t.checkedAt < u
  if 0 < cfg.circuitBreakerThreshold ∧ cfg.circuitBreakerThreshold ≤ count ∧ until?.isNone then
    some (t.trippedAt + seconds cfg.circuitBreakerCooldownSecs)
  else until?

def State.breaker (s : State) (t : Tick) : Option DateTime :=
  circuitBreaker agent.cfg s.circuitBreakerUntil t (s.read agent t).length

def State.asksAi (s : State) (t : Tick) : Bool :=
  agent.cfg.aiEnabled && t.provider && (s.breaker agent t).isNone

/-- The calls after an incident. -/
def callsAfter (aiEnabled : Bool) (gates : Gates) (incident : Incident) (calls : Nat) : Nat :=
  if evaluatePreAiFlow cfg.toPreAiConfig gates.answers aiEnabled incident calls = .proceed ∧
      gates.takenAfter = false ∧ gates.decided = true then calls + 1
  else calls

/-- The loop over the incidents of a tick, after `calls` AI calls. -/
def loop (aiEnabled : Bool) (gates : Source → Gates) (calls : Nat) :
    List (Source × Incident) → List Visit
  | [] => []
  | (source, incident) :: items =>
    let g := gates source
    if g.takenBefore then ⟨source, none⟩ :: loop aiEnabled gates calls items
    else
      ⟨source, some (preAiGuard cfg.toPreAiConfig g.answers aiEnabled incident calls)⟩ ::
        loop aiEnabled gates (callsAfter cfg aiEnabled g incident calls) items

/-- `process_incidents`.  With nothing to do it returns early. -/
def processIncidents (s : State) (t : Tick) : State × List Visit :=
  let items := s.items agent t
  let next :=
    { s with
      incidents := s.arrived agent t
      cursor := match (s.read agent t).getLast? with
        | none => s.cursor
        | some r => some r.1
      buffered := s.buffered + t.neural.length }
  if items.isEmpty then (next, [])
  else
    ({ next with circuitBreakerUntil := s.breaker agent t },
      loop agent.cfg (s.asksAi agent t) t.gates 0 items)

/-- The agent, a tick at a time, from a store without incidents. -/
def machine : StateMachine State Tick (List Visit) where
  init := ⟨[], none, none, 0⟩
  step := processIncidents agent

end Tick

/-! ## The calls of a tick -/

section Calls

variable {cfg : Config} {aiEnabled : Bool} {gates : Source → Gates}

/-- The incident comes to the budget. -/
def passes (cfg : Config) (aiEnabled : Bool) (gates : Source → Gates)
    (x : Source × Incident) : Bool :=
  let g := gates x.1
  !g.takenBefore && !g.answers.hasDecision &&
    (preAiGuardInputs cfg.toPreAiConfig g.answers aiEnabled x.2 0).gates .proceed = .proceed

/-- The incident comes to the budget, and the provider would answer for it. -/
def answered (cfg : Config) (aiEnabled : Bool) (gates : Source → Gates) (x : Source × Incident) :
    Bool :=
  passes cfg aiEnabled gates x && !(gates x.1).takenAfter && (gates x.1).decided

/-- After `calls` calls, some incident of the list comes to the budget when enough of those before
it are answered. -/
def Overdue (cfg : Config) (aiEnabled : Bool) (gates : Source → Gates) (calls : Nat)
    (items : List (Source × Incident)) : Prop :=
  ∃ pre x post, items = pre ++ x :: post ∧ passes cfg aiEnabled gates x = true ∧
    0 < cfg.maxAiCallsPerTick ∧
      cfg.maxAiCallsPerTick ≤ calls + pre.countP (answered cfg aiEnabled gates)

theorem not_overdue_nil {calls : Nat} : ¬ Overdue cfg aiEnabled gates calls [] := by
  rintro ⟨pre, x, post, hsplit, -⟩
  simp at hsplit

variable {x : Source × Incident}

theorem overdue_cons {calls : Nat} {items : List (Source × Incident)} :
    Overdue cfg aiEnabled gates calls (x :: items) ↔
      (passes cfg aiEnabled gates x = true ∧ 0 < cfg.maxAiCallsPerTick ∧
        cfg.maxAiCallsPerTick ≤ calls) ∨
      Overdue cfg aiEnabled gates
        (calls + if answered cfg aiEnabled gates x then 1 else 0) items := by
  constructor
  · rintro ⟨pre, y, post, hsplit, hpasses, hmax, hcalls⟩
    cases pre with
    | nil =>
      cases hsplit
      exact Or.inl ⟨hpasses, hmax, hcalls⟩
    | cons z pre =>
      cases hsplit
      refine Or.inr ⟨pre, y, post, rfl, hpasses, hmax, ?_⟩
      rw [countP_cons] at hcalls
      omega
  · rintro (⟨hpasses, hmax, hcalls⟩ | ⟨pre, y, post, rfl, hpasses, hmax, hcalls⟩)
    · exact ⟨[], x, items, rfl, hpasses, hmax, hcalls⟩
    · refine ⟨x :: pre, y, post, rfl, hpasses, hmax, ?_⟩
      rw [countP_cons]
      omega

/-- The guard's inputs for an incident, after `calls` calls. -/
def inputsOf (cfg : Config) (aiEnabled : Bool) (gates : Source → Gates) (x : Source × Incident)
    (calls : Nat) : PreAiGuardInputs :=
  preAiGuardInputs cfg.toPreAiConfig (gates x.1).answers aiEnabled x.2 calls

theorem budgetSpent_iff (x : Source × Incident) (calls : Nat) :
    (inputsOf cfg aiEnabled gates x calls).budgetSpent = true ↔
      0 < cfg.maxAiCallsPerTick ∧ cfg.maxAiCallsPerTick ≤ calls := by
  simp only [PreAiGuardInputs.budgetSpent, inputsOf, preAiGuardInputs, Bool.and_eq_true,
    decide_eq_true_eq]

theorem passes_iff (htaken : (gates x.1).takenBefore = false) (calls : Nat) :
    passes cfg aiEnabled gates x = true ↔
      (gates x.1).answers.hasDecision = false ∧
        (inputsOf cfg aiEnabled gates x calls).gates .proceed = .proceed := by
  simp only [passes, htaken, Bool.not_false, Bool.true_and, Bool.and_eq_true, Bool.not_eq_true',
    decide_eq_true_eq]
  rfl

/-- An incident that comes to the budget is deferred or proceeds, by the calls. -/
theorem preAi_iff (htaken : (gates x.1).takenBefore = false) (calls : Nat) :
    (preAiGuard cfg.toPreAiConfig (gates x.1).answers aiEnabled x.2 calls =
        some .skipAiCallBudget ↔
      passes cfg aiEnabled gates x = true ∧ 0 < cfg.maxAiCallsPerTick ∧
        cfg.maxAiCallsPerTick ≤ calls) ∧
    (evaluatePreAiFlow cfg.toPreAiConfig (gates x.1).answers aiEnabled x.2 calls = .proceed ↔
      passes cfg aiEnabled gates x = true ∧
        ¬ (0 < cfg.maxAiCallsPerTick ∧ cfg.maxAiCallsPerTick ≤ calls)) := by
  rw [passes_iff htaken calls, ← budgetSpent_iff x calls, evaluatePreAiFlow, preAiGuard]
  cases (gates x.1).answers.hasDecision with
  | true => simp
  | false =>
    obtain ⟨hbudget, hproceed⟩ := decidePreAiGuard_iff (inputsOf cfg aiEnabled gates x calls)
    simp only [Bool.false_eq_true, if_false, Option.some.injEq, true_and]
    exact ⟨hbudget, (PreAiGuardDecision.flow_eq_proceed _).trans hproceed⟩

/-- The loop defers an incident exactly if one is overdue. -/
theorem exists_deferred_iff : ∀ (items : List (Source × Incident)) (calls : Nat),
    (∃ v ∈ loop cfg aiEnabled gates calls items, v.guard = some (some .skipAiCallBudget)) ↔
      Overdue cfg aiEnabled gates calls items
  | [], calls => by simp [loop, not_overdue_nil]
  | x :: items, calls => by
    rw [overdue_cons]
    cases htaken : (gates x.1).takenBefore with
    | true =>
      have hpasses : passes cfg aiEnabled gates x = false := by simp [passes, htaken]
      have hanswered : answered cfg aiEnabled gates x = false := by simp [answered, hpasses]
      simp only [loop, htaken, if_true, exists_mem_cons_iff, reduceCtorEq, false_or,
        hpasses, hanswered, Bool.false_eq_true, false_and, if_false, Nat.add_zero]
      exact exists_deferred_iff items calls
    | false =>
      have hdeferred : preAiGuard cfg.toPreAiConfig (gates x.1).answers aiEnabled x.2 calls =
          some .skipAiCallBudget ↔ _ := (preAi_iff htaken calls).1
      simp only [loop, htaken, Bool.false_eq_true, if_false, exists_mem_cons_iff,
        Option.some.injEq, hdeferred]
      by_cases hspent : passes cfg aiEnabled gates x = true ∧ 0 < cfg.maxAiCallsPerTick ∧
          cfg.maxAiCallsPerTick ≤ calls
      · simp only [hspent, and_self, true_or]
      · -- The budget is not spent for it, so an answer counts.
        have hcalls : callsAfter cfg aiEnabled (gates x.1) x.2 calls =
            calls + if answered cfg aiEnabled gates x then 1 else 0 := by
          have hproceed : evaluatePreAiFlow cfg.toPreAiConfig (gates x.1).answers aiEnabled x.2
              calls = .proceed ↔ passes cfg aiEnabled gates x = true :=
            (preAi_iff htaken calls).2.trans
              (and_iff_left_of_imp fun hpasses hmax => hspent ⟨hpasses, hmax⟩)
          simp only [callsAfter, hproceed, answered, Bool.and_eq_true, Bool.not_eq_true',
            and_assoc]
          split <;> rfl
        rw [or_iff_right hspent, or_iff_right hspent, exists_deferred_iff, hcalls]

end Calls

/-! ## Rows -/

/-- The rows of the store: their ids ascend from one, and each can be parsed. -/
structure WellFormed (parse : String → Option Incident) (rows : List IncidentRow) : Prop where
  sorted : rows.Pairwise fun a b => a.id < b.id
  positive : ∀ r ∈ rows, 0 < r.id
  readable : ∀ r ∈ rows, (parse r.data).isSome = true

section Rows

variable {codec : JsonCodec} {chrono : Chrono} {parse : String → Option Incident}

theorem insertIncidentRow_extends (rows : List IncidentRow) (i : Incident) :
    rows <+: insertIncidentRow codec chrono rows i := by
  rw [insertIncidentRow]
  split
  · exact prefix_rfl
  · exact prefix_append _ _

variable {rows : List IncidentRow}

theorem WellFormed.insert (h : WellFormed parse rows) {i : Incident}
    (hreads : parse (codec.toString (i.toJson chrono)) = some i) :
    WellFormed parse (insertIncidentRow codec chrono rows i) := by
  rw [insertIncidentRow]
  split
  · exact h
  · have hid : ∀ id : Int, (∀ r ∈ rows, r.id < id) → 0 < id →
        WellFormed parse (rows ++ [i.row codec chrono id]) := by
      intro id hlast hpositive
      refine ⟨?_, ?_, ?_⟩
      · refine pairwise_append.mpr ⟨h.sorted, pairwise_singleton _ _, fun r hr q hq => ?_⟩
        cases mem_singleton.mp hq
        exact hlast r hr
      · refine forall_mem_append.mpr ⟨h.positive, fun q hq => ?_⟩
        cases mem_singleton.mp hq
        exact hpositive
      · refine forall_mem_append.mpr ⟨h.readable, fun q hq => ?_⟩
        cases mem_singleton.mp hq
        simp only [Incident.row, hreads, Option.isSome_some]
    rcases eq_nil_or_concat rows with rfl | ⟨front, last, heq⟩
    · exact hid 1 (fun r hr => by cases hr) (by decide)
    · have hpositive := h.positive last (by simp [heq])
      have hsorted := h.sorted
      simp only [heq, concat_eq_append, getLast?_concat] at hsorted hid ⊢
      refine hid (last.id + 1) (fun r hr => ?_) (by omega)
      rcases mem_append.mp hr with hfront | hlast
      · have := (pairwise_append.mp hsorted).2.2 r hfront last (mem_singleton_self _)
        omega
      · rw [mem_singleton.mp hlast]
        omega

theorem insertIncidentRows_spec (h : WellFormed parse rows) {is : List Incident}
    (hreads : ∀ i ∈ is, parse (codec.toString (i.toJson chrono)) = some i) :
    rows <+: insertIncidentRows codec chrono rows is ∧
      WellFormed parse (insertIncidentRows codec chrono rows is) := by
  induction is generalizing rows with
  | nil => exact ⟨prefix_rfl, h⟩
  | cons i is ih =>
    obtain ⟨hi, his⟩ := forall_mem_cons.mp hreads
    obtain ⟨hfront, hwell⟩ := ih (h.insert hi) his
    exact ⟨(insertIncidentRow_extends rows i).trans hfront, hwell⟩

theorem map_fst_incidentsSince (h : WellFormed parse rows) (afterId : Int) (limit : Nat) :
    (incidentsSince parse rows afterId limit).map Prod.fst =
      (CursorReader.batch IncidentRow.id limit afterId rows).map IncidentRow.id := by
  rw [incidentsSince, map_filterMap]
  refine filterMap_eq_map_iff_forall_eq_some.mpr ?_
  intro r hr
  obtain ⟨i, hi⟩ := Option.isSome_iff_exists.mp
    (h.readable r (CursorReader.mem_of_mem_batch hr).1)
  simp only [hi, Option.map_some]

end Rows

/-! ## Runs -/

section Runs

variable (agent : Agent) (ticks : Nat → Tick)

/-- The state before the `n`-th tick. -/
def before (n : Nat) : State := (machine agent).stateAt ticks n

/-- What the loop of the `n`-th tick did. -/
def visits (n : Nat) : List Visit := (machine agent).outputAt ticks n

/-- serde reads back the incidents that arrive. -/
def ReadsBack : Prop :=
  ∀ n, ∀ i ∈ (ticks n).arrivals,
    agent.parse (agent.codec.toString (i.toJson agent.chrono)) = some i

/-- An incident that is deferred comes to the gates again at a later tick, and every row comes to
the loop. -/
def NotLost : Prop :=
  (∀ n, ∀ v ∈ visits agent ticks n, v.guard = some (some .skipAiCallBudget) →
    ∃ m, n < m ∧ ∃ v' ∈ visits agent ticks m,
      v'.source = v.source ∧ v'.guard.isSome = true) ∧
  ∀ n, ∀ r ∈ (before agent ticks n).incidents,
    ∃ m, ∃ v ∈ visits agent ticks m, v.source = .row r.id

/-- In no tick an incident comes to the budget after as many others that the provider answers as
the budget allows. -/
def WithinBudget (s : State) (t : Tick) : Prop :=
  ¬ Overdue agent.cfg (s.asksAi agent t) t.gates 0 (s.items agent t)

variable {agent ticks}

theorem map_source_loop {cfg : Config} {aiEnabled : Bool} {gates : Source → Gates} :
    ∀ (items : List (Source × Incident)) (calls : Nat),
      (loop cfg aiEnabled gates calls items).map Visit.source = items.map Prod.fst
  | [], _ => rfl
  | x :: items, calls => by
    rw [loop]
    split
    · rw [map_cons, map_source_loop, map_cons]
    · rw [map_cons, map_source_loop, map_cons]

/-- What a tick leaves, and what its loop did. The early return skips nothing. -/
theorem processIncidents_spec (s : State) (t : Tick) :
    (processIncidents agent s t).1.incidents = s.arrived agent t ∧
      (processIncidents agent s t).1.buffered = s.buffered + t.neural.length ∧
      (processIncidents agent s t).1.cursor = (match (s.read agent t).getLast? with
        | none => s.cursor
        | some r => some r.1) ∧
      (processIncidents agent s t).2 =
        loop agent.cfg (s.asksAi agent t) t.gates 0 (s.items agent t) := by
  rw [processIncidents]
  split
  · rename_i hempty
    rw [List.isEmpty_iff.mp hempty]
    exact ⟨rfl, rfl, rfl, rfl⟩
  · exact ⟨rfl, rfl, rfl, rfl⟩

theorem wellFormed_before (h : ReadsBack agent ticks) (n : Nat) :
    WellFormed agent.parse (before agent ticks n).incidents := by
  refine stateAt_invariant (P := fun s : State => WellFormed agent.parse s.incidents) ?_ ?_ n
  · exact ⟨.nil, (fun r hr => by cases hr), fun r hr => by cases hr⟩
  · intro n s hs
    have hnext : ((machine agent).step s (ticks n)).1.incidents = s.arrived agent (ticks n) :=
      (processIncidents_spec s (ticks n)).1
    rw [hnext]
    exact (insertIncidentRows_spec hs (h n)).2

theorem incidents_succ (n : Nat) : (before agent ticks (n + 1)).incidents =
    (before agent ticks n).arrived agent (ticks n) := (processIncidents_spec _ _).1

/-- The store at each read, and the cursor. -/
def feed (h : ReadsBack agent ticks) : CursorReader.Feed IncidentRow.id readLimit where
  rows n := (before agent ticks n).arrived agent (ticks n)
  cursor n := (before agent ticks n).cursor.getD 0
  sorted n := (insertIncidentRows_spec (wellFormed_before h n) (h n)).2.sorted
  grows n := by
    rw [← incidents_succ]
    exact (insertIncidentRows_spec (wellFormed_before h (n + 1)) (h (n + 1))).1
  reads n := by
    have hwell := (insertIncidentRows_spec (wellFormed_before h n) (h n)).2
    have hcursor : (before agent ticks (n + 1)).cursor =
        match ((before agent ticks n).read agent (ticks n)).getLast? with
        | none => (before agent ticks n).cursor
        | some r => some r.1 := (processIncidents_spec _ _).2.2.1
    have hlast : ((before agent ticks n).read agent (ticks n)).getLast?.map Prod.fst =
        (CursorReader.batch IncidentRow.id readLimit ((before agent ticks n).cursor.getD 0)
          ((before agent ticks n).arrived agent (ticks n))).getLast?.map IncidentRow.id := by
      rw [← getLast?_map, ← getLast?_map]
      exact congrArg List.getLast? (map_fst_incidentsSince hwell _ _)
    rw [hcursor, CursorReader.advance]
    generalize ((before agent ticks n).read agent (ticks n)).getLast? = last at hlast ⊢
    cases last with
    | none =>
      rw [Option.map_none, eq_comm, Option.map_eq_none_iff] at hlast
      rw [hlast]
    | some r =>
      obtain ⟨row, hrow, hid⟩ := Option.map_eq_some_iff.mp hlast.symm
      rw [hrow]
      exact hid.symm

theorem map_source_visits (h : ReadsBack agent ticks) (n : Nat) :
    (visits agent ticks n).map Visit.source =
      ((feed h).batch n).map (fun r => .row r.id) ++
        (List.range (ticks n).neural.length).map fun k =>
          .buffered ((before agent ticks n).buffered + k) := by
  have hwell := (insertIncidentRows_spec (wellFormed_before h n) (h n)).2
  have hvisits : visits agent ticks n = loop agent.cfg _ _ 0
      ((before agent ticks n).items agent (ticks n)) := (processIncidents_spec _ _).2.2.2
  rw [hvisits, map_source_loop, State.items, map_append, map_map]
  refine congrArg₂ _ ?_ (ext_getElem (by simp) (by simp))
  have hids := congrArg (List.map Source.row) (map_fst_incidentsSince hwell
    ((before agent ticks n).cursor.getD 0) readLimit)
  rw [map_map, map_map] at hids
  exact hids

theorem row_mem_visits (h : ReadsBack agent ticks) {n : Nat} {r : IncidentRow}
    (hr : r ∈ (feed h).batch n) : ∃ v ∈ visits agent ticks n, v.source = .row r.id := by
  refine mem_map.mp ?_
  rw [map_source_visits h]
  exact mem_append_left _ (mem_map.mpr ⟨r, hr, rfl⟩)

theorem buffered_mono {m n : Nat} (h : m ≤ n) :
    (before agent ticks m).buffered ≤ (before agent ticks n).buffered := by
  induction h with
  | refl => exact Nat.le_refl _
  | @step n _ ih =>
    have hnext : (before agent ticks (n + 1)).buffered =
        (before agent ticks n).buffered + (ticks n).neural.length :=
      (processIncidents_spec _ _).2.1
    show _ ≤ (before agent ticks (n + 1)).buffered
    omega

/-- No incident comes to the loop twice. -/
theorem visited_once (h : ReadsBack agent ticks) {m n : Nat} (hlt : m < n) {v v' : Visit}
    (hv : v ∈ visits agent ticks m) (hv' : v' ∈ visits agent ticks n) : v.source ≠ v'.source := by
  have hsource := mem_map_of_mem (f := Visit.source) hv
  have hsource' := mem_map_of_mem (f := Visit.source) hv'
  rw [map_source_visits h, mem_append, mem_map, mem_map] at hsource hsource'
  intro heq
  rw [← heq] at hsource'
  rcases hsource with ⟨r, hr, hrow⟩ | ⟨k, hk, hnumber⟩
  · rcases hsource' with ⟨r', hr', hrow'⟩ | ⟨k', -, hnumber'⟩
    · have hsame : r.id = r'.id := Source.row.inj (hrow.trans hrow'.symm)
      exact absurd hsame ((feed h).key_lt_of_mem_batch hlt hr hr').ne
    · cases hrow.trans hnumber'.symm
  · rcases hsource' with ⟨r', -, hrow'⟩ | ⟨k', -, hnumber'⟩
    · cases hnumber.trans hrow'.symm
    · have hsame := Source.buffered.inj (hnumber.trans hnumber'.symm)
      have hnext : (before agent ticks (m + 1)).buffered =
          (before agent ticks m).buffered + (ticks m).neural.length :=
        (processIncidents_spec _ _).2.1
      have hlater : (before agent ticks (m + 1)).buffered ≤ (before agent ticks n).buffered :=
        buffered_mono hlt
      have := mem_range.mp hk
      omega

theorem row_visited (h : ReadsBack agent ticks) {n : Nat} {r : IncidentRow}
    (hr : r ∈ (before agent ticks n).incidents) :
    ∃ m, ∃ v ∈ visits agent ticks m, v.source = .row r.id := by
  have hwell := wellFormed_before h n
  have hmem : r ∈ (feed h).rows n :=
    (insertIncidentRows_spec hwell (h n)).1.subset hr
  have hstart : (feed h).cursor 0 < r.id := hwell.positive r hr
  obtain ⟨m, hm⟩ := (feed h).exists_mem_batch (by decide) hmem hstart
  exact ⟨m, row_mem_visits h hm⟩

/-- A tick defers an incident exactly if it is not within its budget. -/
theorem exists_deferred_visit_iff (n : Nat) :
    (∃ v ∈ visits agent ticks n, v.guard = some (some .skipAiCallBudget)) ↔
      ¬ WithinBudget agent (before agent ticks n) (ticks n) := by
  have hvisits : visits agent ticks n = loop agent.cfg _ _ 0 _ := (processIncidents_spec _ _).2.2.2
  rw [hvisits, WithinBudget, not_not]
  exact exists_deferred_iff _ _

theorem not_notLost (h : ReadsBack agent ticks) {n : Nat}
    (hover : ¬ WithinBudget agent (before agent ticks n) (ticks n)) : ¬ NotLost agent ticks := by
  rintro ⟨hagain, -⟩
  obtain ⟨v, hv, hguard⟩ := (exists_deferred_visit_iff n).mpr hover
  obtain ⟨m, hlater, v', hv', hsame, -⟩ := hagain n v hv hguard
  exact visited_once h hlater hv hv' hsame.symm

/-- Nothing is lost exactly if no incident comes to a budget that others have spent. -/
theorem notLost_iff (agent : Agent) (ticks : Nat → Tick) (hreads : ReadsBack agent ticks) :
    NotLost agent ticks ↔ ∀ n, WithinBudget agent (before agent ticks n) (ticks n) := by
  constructor
  · intro hlost n
    by_contra hover
    exact not_notLost hreads hover hlost
  · intro hwithin
    refine ⟨fun n v hv hguard => ?_, fun n r hr => row_visited hreads hr⟩
    exact absurd (hwithin n) ((exists_deferred_visit_iff n).mp ⟨v, hv, hguard⟩)

end Runs

/-! ## An incident that is lost -/

def sampleIncident (incidentId : String) : Incident :=
  ⟨0, "h", incidentId, .high, "", "", .null, [], [], []⟩

def sampleText (i : Incident) : String := (i.toJson sampleChrono).toText fun _ => ""

/-- An agent with a limit of calls, zero for none. -/
def sampleAgent (limit : Nat) : Agent where
  cfg := { maxAiCallsPerTick := limit, detectorsSkipFase3 := [], aiEnabled := true,
           circuitBreakerThreshold := 0, circuitBreakerCooldownSecs := 0 }
  codec := ⟨fun _ => "", fun _ => "", fun _ => none⟩
  chrono := sampleChrono
  parse := fun s =>
    if s = sampleText (sampleIncident "c2:1") then some (sampleIncident "c2:1")
    else if s = sampleText (sampleIncident "c2:2") then some (sampleIncident "c2:2")
    else none

/-- Two incidents in the first tick, and none later.  Every gate is open. -/
def sampleTicks (n : Nat) : Tick where
  arrivals := if n = 0 then [sampleIncident "c2:1", sampleIncident "c2:2"] else []
  neural := []
  provider := true
  checkedAt := 0
  trippedAt := 0
  gates := fun _ =>
    ⟨false, ⟨false, fun _ => false, fun _ => false, fun _ => false, true, false, false⟩,
      false, true⟩

variable (limit : Nat)

theorem parse_sampleAgent :
    (sampleAgent limit).parse (sampleText (sampleIncident "c2:1")) =
        some (sampleIncident "c2:1") ∧
      (sampleAgent limit).parse (sampleText (sampleIncident "c2:2")) =
        some (sampleIncident "c2:2") := by
  have hne : sampleText (sampleIncident "c2:2") ≠ sampleText (sampleIncident "c2:1") := by
    decide +kernel
  constructor
  · simp only [sampleAgent, if_true]
  · simp only [sampleAgent, if_neg hne, if_true]

theorem text_sampleAgent (i : Incident) :
    (sampleAgent limit).codec.toString (i.toJson (sampleAgent limit).chrono) = sampleText i := by
  rfl

theorem readsBack_sampleTicks : ReadsBack (sampleAgent limit) sampleTicks := by
  intro n i hi
  rw [text_sampleAgent]
  cases n with
  | zero =>
    rcases mem_cons.mp hi with rfl | hi
    · exact (parse_sampleAgent limit).1
    · cases mem_singleton.mp hi
      exact (parse_sampleAgent limit).2
  | succ n => cases hi

theorem length_arrived_sampleTicks (n : Nat) :
    (State.arrived (sampleAgent limit) (before (sampleAgent limit) sampleTicks n)
      (sampleTicks n)).length = 2 := by
  induction n with
  | zero => rfl
  | succ n ih => rwa [← incidents_succ] at ih

/-- With a limit of two nothing is lost. -/
theorem notLost_two : NotLost (sampleAgent 2) sampleTicks := by
  refine (notLost_iff _ _ (readsBack_sampleTicks 2)).mpr fun n => ?_
  rintro ⟨pre, x, post, hitems, -, -, hspent⟩
  have hread : (State.read (sampleAgent 2) (before (sampleAgent 2) sampleTicks n)
      (sampleTicks n)).length ≤ 2 :=
    ((length_filterMap_le ..).trans ((take_sublist _ _).trans filter_sublist).length_le).trans
      (length_arrived_sampleTicks 2 n).le
  have hbefore : 2 ≤ pre.length :=
    hspent.trans (by rw [Nat.zero_add]; exact countP_le_length)
  have hlength := congrArg List.length hitems
  simp only [State.items, sampleTicks, mapIdx_nil, append_nil, length_map, length_append,
    length_cons] at hlength hread
  omega

theorem items_sampleTicks :
    State.items (sampleAgent limit) (machine (sampleAgent limit)).init (sampleTicks 0) =
      [(.row 1, sampleIncident "c2:1"), (.row 2, sampleIncident "c2:2")] := by
  have harrived : CursorReader.batch IncidentRow.id readLimit 0
        (State.arrived (sampleAgent limit) (machine (sampleAgent limit)).init (sampleTicks 0)) =
      [(sampleIncident "c2:1").row (sampleAgent limit).codec (sampleAgent limit).chrono 1,
        (sampleIncident "c2:2").row (sampleAgent limit).codec (sampleAgent limit).chrono 2] := by
    rfl
  have hread : State.read (sampleAgent limit) (machine (sampleAgent limit)).init (sampleTicks 0) =
      [(1, sampleIncident "c2:1"), (2, sampleIncident "c2:2")] := by
    show List.filterMap _ (CursorReader.batch _ _ 0 _) = _
    rw [harrived]
    simp only [filterMap_cons, filterMap_nil, Incident.row, text_sampleAgent,
      (parse_sampleAgent limit).1, (parse_sampleAgent limit).2, Option.map_some]
  rw [State.items, hread]
  rfl

/-- With a limit of one the second incident is deferred, and lost. -/
theorem deferred_incident_is_lost : ¬ NotLost (sampleAgent 1) sampleTicks := by
  refine not_notLost (readsBack_sampleTicks 1) (n := 0) (not_not.mpr ?_)
  refine ⟨[(.row 1, sampleIncident "c2:1")], (.row 2, sampleIncident "c2:2"), [],
    items_sampleTicks 1, rfl, Nat.one_pos, Nat.le_refl 1⟩

end Innerwarden.IncidentLoop

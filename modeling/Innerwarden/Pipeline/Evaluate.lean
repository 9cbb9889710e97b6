import Innerwarden.Lib.EarlyReturn
import Innerwarden.Lib.KeyedTable
import Innerwarden.Pipeline.Rules

/-!
# Evaluating the rules

`EventPipeline::should_persist` of `crates/sensor/src/event_pipeline/mod.rs`.  The rules are
tried in order.  A rule that applies adds its tags to the event, is counted, and then ends the
evaluation with a verdict or lets the next rule be tried.

The loop takes the test of a rule as an argument; the code uses `gate`.  The clock is read once
for each event.  The order of the hash map of scores matters when scores are evicted, so each
call comes with one.
-/

namespace Innerwarden.Pipeline

open EarlyReturn Function

/-! ## The state -/

/-- The score of a process. -/
structure PidScoreEntry where
  score : UInt32
  /-- An `Instant`, in nanoseconds. -/
  lastBump : Nat
  decayPerMinute : Float

/-- The counters of a rule. -/
structure RuleCounters where
  matched : Nat := 0
  dropped : Nat := 0
  emitted : Nat := 0

/-- What `should_persist` changes. -/
structure PipelineState where
  sampleCounter : UInt64
  counters : String → RuleCounters
  pidScores : List (UInt32 × PidScoreEntry)

/-- The rules in force and the state. -/
structure EventPipeline where
  rules : List CompiledRule
  enabled : Bool
  state : PipelineState

/-- A call of `should_persist`: the event, the clock, and the order in which the hash map of
scores yields its entries. -/
structure PersistCall where
  event : Event
  now : Nat
  shuffle : List (UInt32 × UInt32) → List (UInt32 × UInt32)

/-! ## Scores -/

def pidScoreMapCap : Nat := 10000

/-- The score of an entry after its decay, not rounded. -/
def PidScoreEntry.decayed (entry : PidScoreEntry) (now : Nat) : Float :=
  let elapsed := now - entry.lastBump
  let secs := Float.ofNat (elapsed / 1000000000) + Float.ofNat (elapsed % 1000000000) / 1000000000.0
  entry.score.toFloat - secs / 60.0 * entry.decayPerMinute

/-- `x.max(0.0) as u32`. -/
def floatToU32 (x : Float) : UInt32 := if x < 0.0 then 0 else x.toUInt32

def currentScore (s : PipelineState) (now : Nat) (pid : UInt32) : Option UInt32 :=
  (s.pidScores.lookup pid).bind fun entry =>
    let score := floatToU32 (entry.decayed now).round
    if score = 0 then none else some score

def eventScore (s : PipelineState) (now : Nat) (event : Event) : UInt32 :=
  (event.pid.bind (currentScore s now)).getD 0

def evictLowestScores (call : PersistCall) (scores : List (UInt32 × PidScoreEntry)) :
    List (UInt32 × PidScoreEntry) :=
  let entries := call.shuffle (scores.map fun e => (e.1, floatToU32 (e.2.decayed call.now)))
  let sorted := entries.insertionSort fun a b => a.2 ≤ b.2
  let removed := (sorted.take (scores.length - pidScoreMapCap * 3 / 4)).map Prod.fst
  scores.filter fun e => e.1 ∉ removed

/-- The entry of a process after its score has been bumped. -/
def bumpedEntry (now : Nat) (pid score decayMinutes : UInt32)
    (scores : List (UInt32 × PidScoreEntry)) : PidScoreEntry where
  score :=
    let before := ((scores.lookup pid).map PidScoreEntry.score).getD 0
    UInt32.ofNat (min (before.toNat + score.toNat) 100)
  lastBump := now
  decayPerMinute := if 0 < decayMinutes then score.toFloat / decayMinutes.toFloat else 0.0

def bumpPidScore (call : PersistCall) (pid score decayMinutes : UInt32)
    (scores : List (UInt32 × PidScoreEntry)) : List (UInt32 × PidScoreEntry) :=
  let entry := bumpedEntry call.now pid score decayMinutes scores
  let bumped := KeyedTable.upsert Prod.fst (fun _ => (pid, entry)) (pid, entry) scores
  if pidScoreMapCap < bumped.length then evictLowestScores call bumped else bumped

/-! ## Applying a rule -/

def shouldSample (counter : UInt64) (rate : Float) : UInt64 × Bool :=
  if rate ≤ 0.0 then (counter, false)
  else if 1.0 ≤ rate then (counter, true)
  else
    let period := (1.0 / rate).toUInt64
    (counter + 1, period = 0 || (counter + 1) % period = 0)

/-- The counters of a rule, changed by one of the bumps. -/
def PipelineState.count (s : PipelineState) (id : String) (bump : RuleCounters → RuleCounters) :
    PipelineState :=
  { s with counters := update s.counters id (bump (s.counters id)) }

def bumpMatched (c : RuleCounters) : RuleCounters := { c with matched := c.matched + 1 }
def bumpDropped (c : RuleCounters) : RuleCounters := { c with dropped := c.dropped + 1 }
def bumpEmitted (c : RuleCounters) : RuleCounters := { c with emitted := c.emitted + 1 }

def addTags (tags : List String) (new : List String) : List String :=
  new.foldl (fun tags tag => if tag ∈ tags then tags else tags ++ [tag]) tags

/-- The action of a rule, after it has been counted as matched.  A verdict ends the
evaluation. -/
def runAction (call : PersistCall) (rule : CompiledRule) (s : PipelineState) (event : Event) :
    PipelineState × Option Bool :=
  match rule.action with
  | .forceEmit => (s.count rule.id bumpEmitted, some true)
  | .drop => (s.count rule.id bumpDropped, some false)
  | .sample =>
    let r := shouldSample s.sampleCounter rule.sampleRate
    ({ s with sampleCounter := r.1 }.count rule.id (if r.2 then bumpEmitted else bumpDropped),
      some r.2)
  | .emit => (s.count rule.id bumpEmitted, none)
  | .scoreIncrement score decayMinutes =>
    let s := match event.pid with
      | some pid => { s with pidScores := bumpPidScore call pid score decayMinutes s.pidScores }
      | none => s
    (s.count rule.id bumpEmitted, none)

/-- What a rule that is applied answers, if it ends the evaluation. -/
def CompiledRule.verdict (rule : CompiledRule) (sampleCounter : UInt64) : Option Bool :=
  match rule.action with
  | .forceEmit => some true
  | .drop => some false
  | .sample => some (shouldSample sampleCounter rule.sampleRate).2
  | .emit | .scoreIncrement .. => none

/-! ## The loop -/

/-- What a turn of the loop finds: the state and the tags of the event. -/
structure Scan where
  state : PipelineState
  tags : List String

def Scan.event (scan : Scan) (call : PersistCall) : Event := { call.event with tags := scan.tags }

abbrev Gate := PipelineState → Event → CompiledRule → Bool

/-- The turn of a rule. -/
def turn (call : PersistCall) (g : Gate) (scan : Scan) (rule : CompiledRule) :
    Scan × Option Bool :=
  if g scan.state (scan.event call) rule then
    let tags := addTags scan.tags rule.tags
    let r := runAction call rule (scan.state.count rule.id bumpMatched) call.event
    (⟨r.1, tags⟩, r.2)
  else (scan, none)

/-- The test of the code: the score, if the rule asks for one, and the compiled tests if it
does not. -/
def gate (now : Nat) : Gate := fun s event rule =>
  match rule.pidScoreMin with
  | some minScore => minScore ≤ eventScore s now event
  | none => rule.matches event

def forgetExited (s : PipelineState) (event : Event) : PipelineState :=
  if event.kind = "process.exit" then
    match event.pid with
    | some pid => { s with pidScores := s.pidScores.filter (·.1 ≠ pid) }
    | none => s
  else s

def firstScan (s : PipelineState) (call : PersistCall) : Scan :=
  ⟨forgetExited s call.event, call.event.tags⟩

def evaluation (p : EventPipeline) (call : PersistCall) : Scan × Option Bool :=
  loop (turn call (gate call.now)) p.rules (firstScan p.state call)

/-- `should_persist`: the pipeline and the event after the call, and its answer. -/
def shouldPersist (p : EventPipeline) (call : PersistCall) : EventPipeline × Event × Bool :=
  if !p.enabled || p.rules.isEmpty then (p, call.event, true)
  else
    let r := evaluation p call
    ({ p with state := r.1.state }, r.1.event call, r.2.getD true)

/-! ## What an action changes -/

section Action

variable (call : PersistCall) (rule : CompiledRule) (s : PipelineState) (event : Event)

theorem runAction_verdict : (runAction call rule s event).2 = rule.verdict s.sampleCounter := by
  unfold runAction CompiledRule.verdict
  cases rule.action <;> rfl

theorem isSome_verdict (sampleCounter : UInt64) :
    (rule.verdict sampleCounter).isSome = rule.action.isTerminal := by
  unfold CompiledRule.verdict
  cases rule.action <;> rfl

theorem runAction_counters_of_ne {id : String} (h : id ≠ rule.id) :
    (runAction call rule s event).1.counters id = s.counters id := by
  unfold runAction PipelineState.count
  cases rule.action with
  | scoreIncrement => cases event.pid <;> exact update_of_ne h _ _
  | _ => exact update_of_ne h _ _

theorem runAction_matched (id : String) :
    ((runAction call rule s event).1.counters id).matched = (s.counters id).matched := by
  by_cases h : id = rule.id
  · subst h
    unfold runAction PipelineState.count
    cases rule.action with
    | scoreIncrement => cases event.pid <;> simp [bumpEmitted]
    | sample => cases h : (shouldSample s.sampleCounter rule.sampleRate).2 <;>
        simp [h, bumpEmitted, bumpDropped]
    | _ => simp [bumpEmitted, bumpDropped]
  · rw [runAction_counters_of_ne call rule s event h]

theorem runAction_sampleCounter (h : (runAction call rule s event).2 = none) :
    (runAction call rule s event).1.sampleCounter = s.sampleCounter := by
  unfold runAction PipelineState.count at h ⊢
  cases haction : rule.action with
  | emit | forceEmit | drop => rfl
  | scoreIncrement => cases event.pid <;> rfl
  | sample => rw [haction] at h; nomatch h

end Action

theorem mem_addTags {tags new : List String} {tag : String} :
    tag ∈ addTags tags new ↔ tag ∈ tags ∨ tag ∈ new := by
  unfold addTags
  induction new generalizing tags with
  | nil => simp
  | cons t new ih =>
    rw [List.foldl_cons, ih]
    by_cases h : t ∈ tags
    · rw [if_pos h, List.mem_cons]
      constructor
      · exact Or.imp_right .inr
      · rintro (h' | rfl | h')
        · exact .inl h'
        · exact .inl h
        · exact .inr h'
    · rw [if_neg h]
      simp [or_assoc]

/-! ## What a turn changes -/

section Turn

variable {call : PersistCall} {g : Gate} {scan : Scan} {rule : CompiledRule}

theorem turn_of_gate (h : g scan.state (scan.event call) rule = true) :
    turn call g scan rule =
      let r := runAction call rule (scan.state.count rule.id bumpMatched) call.event
      (⟨r.1, addTags scan.tags rule.tags⟩, r.2) :=
  if_pos h

theorem turn_of_not_gate (h : g scan.state (scan.event call) rule = false) :
    turn call g scan rule = (scan, none) :=
  if_neg (by simp [h])

theorem turn_counters_of_ne {id : String} (hne : id ≠ rule.id) :
    (turn call g scan rule).1.state.counters id = scan.state.counters id := by
  cases h : g scan.state (scan.event call) rule with
  | false => rw [turn_of_not_gate h]
  | true =>
    rw [turn_of_gate h]
    exact (runAction_counters_of_ne _ _ _ _ hne).trans (update_of_ne hne _ _)

theorem turn_matched (h : g scan.state (scan.event call) rule = true) :
    ((turn call g scan rule).1.state.counters rule.id).matched =
      (scan.state.counters rule.id).matched + 1 := by
  rw [turn_of_gate h]
  refine (runAction_matched _ _ _ _ _).trans ?_
  simp [PipelineState.count, bumpMatched]

theorem turn_tags {tag : String} :
    tag ∈ (turn call g scan rule).1.tags ↔
      tag ∈ scan.tags ∨ (g scan.state (scan.event call) rule = true ∧ tag ∈ rule.tags) := by
  cases h : g scan.state (scan.event call) rule with
  | false => simp [turn_of_not_gate h]
  | true => simp [turn_of_gate h, mem_addTags]

theorem turn_verdict (h : g scan.state (scan.event call) rule = true) :
    (turn call g scan rule).2 = rule.verdict scan.state.sampleCounter := by
  rw [turn_of_gate h]
  exact runAction_verdict ..

theorem turn_sampleCounter (h : (turn call g scan rule).2 = none) :
    (turn call g scan rule).1.state.sampleCounter = scan.state.sampleCounter := by
  cases hgate : g scan.state (scan.event call) rule with
  | false => rw [turn_of_not_gate hgate]
  | true =>
    rw [turn_of_gate hgate] at h ⊢
    exact runAction_sampleCounter _ _ _ _ h

end Turn

theorem forgetExited_counters (s : PipelineState) (event : Event) :
    (forgetExited s event).counters = s.counters := by
  unfold forgetExited
  split
  · cases event.pid <;> rfl
  · rfl

theorem forgetExited_sampleCounter (s : PipelineState) (event : Event) :
    (forgetExited s event).sampleCounter = s.sampleCounter := by
  unfold forgetExited
  split
  · cases event.pid <;> rfl
  · rfl

end Innerwarden.Pipeline

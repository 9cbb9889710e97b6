import Innerwarden.Correlation.Soundness
import Innerwarden.Correlation.Loader

/-!
# Rules that end the correlation engine

The loader accepts a rule with no stage, and any window.  `observe` takes the first stage of
every rule, makes a duration of the window of a rule that matches, and adds it to the time of
the event.  Each of these can panic.  `observeChecked` is `observe` with the years `chrono`
ends at.

* `observeChecked_isSome_iff`: when one call returns.
* `checked_exec_iff`: when all calls of a run return.
-/

namespace Innerwarden.Correlation

open Override StateMachine List

/-! ## The calls with all their panics -/

/-- `DateTime::<Utc>::MIN_UTC`, the first instant of the year -262143. -/
def minUtc : DateTime := seconds (-8334601228800)

/-- `DateTime::<Utc>::MAX_UTC`, the last instant of the year 262142. -/
def maxUtc : DateTime := seconds 8210266876800 - 1

/-- An instant that can be represented.  `DateTime + Duration` panics on any other. -/
def Representable (t : DateTime) : Prop := minUtc ≤ t ∧ t ≤ maxUtc

instance (t : DateTime) : Decidable (Representable t) := inferInstanceAs (Decidable (_ ∧ _))

section Checked

variable (rules : List CorrelationRule)

/-- `observe`, where `none` is a panic. -/
def observeChecked (s : CorrelationEngine) (op : Observation) : Option CorrelationEngine :=
  -- the cooldown of a chain that is emitted
  if !(emission rules s op).2.isEmpty && !decide (Representable (op.event.ts + seconds 600)) then
    none
  -- the deadline of a chain that is started
  else if rules.all fun rule => (startChain op.event rule).join.all fun pc =>
      decide (Representable pc.expiresAt) then
    (observe rules s op).1
  else none

/-- An engine and the events it observes, up to a panic. -/
def checkedMachine : StateMachine (Option CorrelationEngine) Observation Unit where
  init := some .new
  step s op := (s.bind (observeChecked rules · op), ())

/-- The keys of all chains the observation completes are in the table. -/
def AllHeld (s : CorrelationEngine) (op : Observation) : Prop :=
  ∀ entry ∈ completions rules s op,
    ∃ expires, s.chainCooldowns entry.1 = some expires ∧ op.event.ts < expires

/-- The rule has a stage, and a chain that the event starts has a deadline. -/
def Starts (event : CorrelationEvent) (rule : CorrelationRule) : Prop :=
  ∃ first ∈ rule.stages.head?, matchesStage first event [] rule.id = true →
    ∃ window, windowDuration rule.windowSecs = some window ∧ Representable (event.ts + window)

end Checked

section Calls

variable {rules : List CorrelationRule}

theorem released_eq_nil_iff {cooldowns : String → Option DateTime} {expires : DateTime}
    {entries : List (String × PendingChain)} :
    released cooldowns expires entries = [] ↔ ∀ entry ∈ entries, (cooldowns entry.1).isSome := by
  induction entries with
  | nil => exact iff_of_true rfl fun _ h => by cases h
  | cons entry entries ih =>
    rw [released, forall_mem_cons]
    cases hkey : (cooldowns entry.1).isSome with
    | true => rw [if_pos rfl, ih, and_iff_right rfl]
    | false => exact iff_of_false (cons_ne_nil _ _) fun h => Bool.false_ne_true h.1

/-- Nothing is emitted exactly when all chains that are completed are held back. -/
theorem emission_eq_nil_iff (s : CorrelationEngine) (op : Observation) :
    (emission rules s op).2 = [] ↔ AllHeld rules s op := by
  rw [← length_eq_zero_iff, ← (emission_spec s op).length_eq, length_eq_zero_iff,
    released_eq_nil_iff]
  refine forall_congr' fun entry => imp_congr_right fun _ => ?_
  show ((s.chainCooldowns entry.1).filter (op.event.ts < ·)).isSome = true ↔ _
  cases s.chainCooldowns entry.1 <;> simp

theorem isSome_mapM_iff {α β : Type} {f : α → Option β} {l : List α} :
    (l.mapM f).isSome = true ↔ ∀ a ∈ l, (f a).isSome = true := by
  induction l with
  | nil => simp
  | cons a l ih =>
    rw [forall_mem_cons, ← ih, mapM_cons]
    cases f a <;> cases l.mapM f <;> simp

theorem starts_iff (event : CorrelationEvent) (rule : CorrelationRule) :
    ((startChain event rule).isSome = true ∧ (startChain event rule).join.all (fun pc =>
      decide (Representable pc.expiresAt)) = true) ↔ Starts event rule := by
  unfold startChain Starts
  cases rule.stages with
  | nil => simp
  | cons first rest =>
    dsimp only [head?_cons]
    cases hmatch : matchesStage first event [] rule.id with
    | false => simp [hmatch]
    | true =>
      cases windowDuration rule.windowSecs with
      | none => simp [hmatch]
      | some window => simp [hmatch, PendingChain.new]

/-- A call returns exactly when every rule starts its chain, and an emitted chain has a
cooldown. -/
theorem observeChecked_isSome_iff (s : CorrelationEngine) (op : Observation) :
    (observeChecked rules s op).isSome = true ↔
      (∀ rule ∈ rules, Starts op.event rule) ∧
        (AllHeld rules s op ∨ Representable (op.event.ts + seconds 600)) := by
  have hstarts : (∀ rule ∈ rules, Starts op.event rule) ↔
      (observe rules s op).1.isSome = true ∧
        (rules.all fun rule => (startChain op.event rule).join.all fun pc =>
          decide (Representable pc.expiresAt)) = true := by
    simp only [← starts_iff]
    rw [observe, Option.isSome_map, isSome_mapM_iff, all_eq_true, ← forall₂_and]
  rw [hstarts, ← emission_eq_nil_iff, ← List.isEmpty_iff, observeChecked]
  cases (emission rules s op).2.isEmpty <;>
    by_cases hcooldown : Representable (op.event.ts + seconds 600) <;>
    cases (rules.all fun rule => (startChain op.event rule).join.all fun pc =>
      decide (Representable pc.expiresAt)) <;>
    simp [hcooldown]

/-- A call that returns does what `observe` does. -/
theorem observe_of_checked {s t : CorrelationEngine} {op : Observation}
    (h : observeChecked rules s op = some t) : (observe rules s op).1 = some t := by
  unfold observeChecked at h
  split at h
  · cases h
  · split at h
    · exact h
    · cases h

theorem exec_of_checked {ops : List Observation} {s : Option CorrelationEngine}
    {t : CorrelationEngine} (h : (checkedMachine rules).exec s ops = some t) :
    (correlationMachine rules).exec s ops = some t := by
  induction ops using List.reverseRecOn generalizing t with
  | nil => exact h
  | append_singleton ops op ih =>
    rw [exec_append] at h ⊢
    cases hbefore : (checkedMachine rules).exec s ops with
    | none =>
      rw [hbefore] at h
      cases h
    | some s' =>
      rw [hbefore] at h
      rw [ih hbefore]
      exact observe_of_checked h

end Calls

/-! ## The rules of a directory -/

section Directory

variable (crates : LoaderCrates) (sources : RuleSources)

/-- The rules of the built-in file and the files on disk, the last one of each id. -/
def effectiveRules : List CorrelationRule :=
  mergeBy CorrelationRule.id ((sources.allDefinitions crates).filterMap (Definition.rule crates))

/-- No rule of the directory panics on the event, and neither does the cooldown of a chain that
is emitted. -/
def NoPanic (rules : List CorrelationRule) : Option CorrelationEngine → Observation → Prop
  | none, _ => True
  | some s, op =>
    (∀ rule ∈ effectiveRules crates sources, Starts op.event rule) ∧
      (AllHeld rules s op ∨ Representable (op.event.ts + seconds 600))

variable {crates sources}

/-- With the rules of a directory, the calls of a run all return exactly when none of the rules
panics on the event observed, and no cooldown is out of range. -/
theorem checked_exec_iff {order : List CorrelationRule → List CorrelationRule}
    {rules : List CorrelationRule} (horder : ∀ rules, (order rules).Perm rules)
    (hload : loadRulesDir crates sources order = .ok rules) (ops : List Observation) :
    let M := checkedMachine rules
    (M.exec M.init ops).isSome = true ↔ M.Meets (NoPanic crates sources rules) M.init ops := by
  intro M
  have hperm := loadRulesDir_perm horder hload
  refine (exec_iff_meets (P := fun s : Option CorrelationEngine => s.isSome = true)
    (fun s op => ?_) ops _).trans (and_iff_right rfl)
  cases s with
  | none => exact iff_of_false Bool.false_ne_true fun h => Bool.false_ne_true h.1
  | some s =>
    refine (observeChecked_isSome_iff s op).trans (Iff.trans ?_ (and_iff_right rfl).symm)
    refine and_congr_left fun _ => forall_congr' fun rule => ?_
    exact imp_congr_left hperm.mem_iff

end Directory

/-- A directory with one file, whose rule has the given stages. -/
def sampleLoader (stages : List RawStage) : LoaderCrates where
  parseRuleFile text :=
    .ok ⟨1, [],
      if text = "" then [] else [⟨"CL-900", "Local", "low", 60, 0x3f000000, stages, false⟩]⟩
  debugStr s := s

def sampleDirectory : RuleSources where
  builtinYaml := ""
  path := "rules"
  dir := some (.ok [⟨"10-local.yml", true, .ok "version: 1"⟩])

theorem checked_exec_iff_local :
    let crates := sampleLoader [⟨none, ["port_scan"], false⟩]
    let rules : List CorrelationRule :=
      [⟨"CL-900", "Local", [⟨none, ["port_scan"], false⟩], 60, 0x3f000000, .low⟩]
    let ops := [sampleObservation 0 .network "port_scan" "203.0.113.7"]
    let M := checkedMachine rules
    (∀ rules : List CorrelationRule, (id rules).Perm rules) ∧
      loadRulesDir crates sampleDirectory id = .ok rules ∧
      ((M.exec M.init ops).isSome = true ↔
        M.Meets (NoPanic crates sampleDirectory rules) M.init ops) := by
  intro crates rules ops M
  have hload : loadRulesDir crates sampleDirectory id = .ok rules := by rfl
  exact ⟨fun rules => .refl rules, hload, checked_exec_iff (fun rules => .refl rules) hload ops⟩

/-- The loader accepts a rule with no stage, and the first event ends the engine. -/
theorem empty_stages_panic :
    let M := checkedMachine [⟨"CL-900", "Local", [], 60, 0x3f000000, .low⟩]
    loadRulesDir (sampleLoader []) sampleDirectory id =
        .ok [⟨"CL-900", "Local", [], 60, 0x3f000000, .low⟩] ∧
      M.exec M.init [sampleObservation 0 .network "port_scan" "203.0.113.7"] = none :=
  ⟨rfl, rfl⟩

end Innerwarden.Correlation

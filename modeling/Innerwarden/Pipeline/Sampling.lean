import Mathlib.Data.Rat.Floor
import Innerwarden.Pipeline.MatchBlock

/-!
# Sampling

A sample rule of rate `1/n` is to keep one in `n` of the events it applies to.  `should_sample`
keeps those whose number is a multiple of `n`.  There is one counter for all sample rules, so a
rule whose events always get the wrong numbers keeps none of them.  `fair_iff` says when a rule
keeps one in `n`.

`exactPersist` is `shouldPersist` with a rational rate for each rule, and the same where the
`f64` of the rule samples as its rational does (`exactPersist_eq`).
-/

namespace Innerwarden.Pipeline

open EarlyReturn List

/-! ## Exact rates -/

/-- `(1.0 / rate) as u64` of an exact rate, which saturates. -/
def period (rate : ℚ) : UInt64 := UInt64.ofNat (min (1 / rate).floor.toNat 18446744073709551615)

/-- `should_sample` of an exact rate. -/
def exactSample (counter : UInt64) (rate : ℚ) : UInt64 × Bool :=
  if rate ≤ 0 then (counter, false)
  else if 1 ≤ rate then (counter, true)
  else (counter + 1, period rate = 0 || (counter + 1) % period rate = 0)

section Exact

variable (rates : CompiledRule → ℚ)

/-- `runAction` with exact rates. -/
def exactAction (call : PersistCall) (rule : CompiledRule) (s : PipelineState) (event : Event) :
    PipelineState × Option Bool :=
  match rule.action with
  | .sample =>
    let r := exactSample s.sampleCounter (rates rule)
    ({ s with sampleCounter := r.1 }.count rule.id (if r.2 then bumpEmitted else bumpDropped),
      some r.2)
  | _ => runAction call rule s event

/-- The turn of a rule, with exact rates. -/
def exactTurn (call : PersistCall) (scan : Scan) (rule : CompiledRule) : Scan × Option Bool :=
  if gate call.now scan.state (scan.event call) rule then
    let r := exactAction rates call rule (scan.state.count rule.id bumpMatched) call.event
    (⟨r.1, addTags scan.tags rule.tags⟩, r.2)
  else (scan, none)

/-- `should_persist` with exact rates. -/
def exactPersist (p : EventPipeline) (call : PersistCall) : EventPipeline × Event × Bool :=
  if !p.enabled || p.rules.isEmpty then (p, call.event, true)
  else
    let r := loop (exactTurn rates call) p.rules (firstScan p.state call)
    ({ p with state := r.1.state }, r.1.event call, r.2.getD true)

def exactTurns (p : EventPipeline) (call : PersistCall) : List (CompiledRule × Scan) :=
  turns (exactTurn rates call) p.inForce (firstScan p.state call)

def applies (call : PersistCall) (t : CompiledRule × Scan) : Bool :=
  gate call.now t.2.state (t.2.event call) t.1

/-- The `i`-th rule is applied to the event. -/
def Applied (p : EventPipeline) (call : PersistCall) (i : Nat) : Bool :=
  (exactTurns rates p call)[i]?.any (applies call)

def Counted (p : EventPipeline) (call : PersistCall) : Bool :=
  (exactTurns rates p call).any fun t =>
    applies call t && decide (t.1.action = .sample) && decide (0 < rates t.1 ∧ rates t.1 < 1)

/-! ## Runs -/

/-- The answers to the calls that the `i`-th rule is applied to. -/
def answers (i : Nat) : EventPipeline → List PersistCall → List Bool
  | _, [] => []
  | p, call :: calls =>
    let r := exactPersist rates p call
    (if Applied rates p call i then [r.2.2] else []) ++ answers i r.1 calls

/-- The numbers of the calls that the `i`-th rule is applied to, among all calls that a sample
rule is applied to, after `k` of them.  They are 64-bit numbers. -/
def ticks (i : Nat) : EventPipeline → Nat → List PersistCall → List Nat
  | _, _, [] => []
  | p, k, call :: calls =>
    (if Applied rates p call i then [(k + 1) % 2 ^ 64] else []) ++
      ticks i (exactPersist rates p call).1 (if Counted rates p call then k + 1 else k) calls

end Exact

/-- Among any `n` consecutive ones exactly one has the property. -/
def OneIn {α : Type*} (n : Nat) (p : α → Bool) (l : List α) : Prop :=
  ∀ window, window <:+: l → window.length = n → window.countP p = 1

theorem oneIn_map {α β : Type*} {n : Nat} {f : α → β} {q : β → Bool} {l : List α} :
    OneIn n q (l.map f) ↔ OneIn n (q ∘ f) l := by
  constructor
  · intro h window hwindow hlength
    rw [← countP_map]
    exact h _ (hwindow.map f) (by rw [length_map, hlength])
  · intro h window hwindow hlength
    obtain ⟨inner, hinner, rfl⟩ := infix_map_iff.mp hwindow
    rw [countP_map]
    exact h inner hinner (by rw [← hlength, length_map])

/-! ## One call -/

section Call

variable {rates : CompiledRule → ℚ} {p : EventPipeline} {call : PersistCall}

variable {rule : CompiledRule}

theorem exactAction_of_ne (h : rule.action ≠ .sample) (s : PipelineState) (event : Event) :
    exactAction rates call rule s event = runAction call rule s event := by
  unfold exactAction
  split
  · exact absurd ‹_› h
  · rfl

theorem exactTurn_of_ne {scan : Scan} (h : rule.action ≠ .sample) :
    exactTurn rates call scan rule = turn call (gate call.now) scan rule := by
  unfold exactTurn turn
  simp only [exactAction_of_ne h]

theorem exactTurn_of_sample (rates : CompiledRule → ℚ) {scan : Scan}
    (haction : rule.action = .sample) (happlies : applies call (rule, scan) = true) :
    (exactTurn rates call scan rule).2 =
        some (exactSample scan.state.sampleCounter (rates rule)).2 ∧
      (exactTurn rates call scan rule).1.state.sampleCounter =
        (exactSample scan.state.sampleCounter (rates rule)).1 := by
  have happlies : gate call.now scan.state (scan.event call) rule = true := happlies
  unfold exactTurn exactAction
  rw [if_pos happlies, haction]
  exact ⟨rfl, rfl⟩

theorem runAction_sampleCounter_of_ne (h : rule.action ≠ .sample) (s : PipelineState)
    (event : Event) : (runAction call rule s event).1.sampleCounter = s.sampleCounter := by
  unfold runAction PipelineState.count
  cases haction : rule.action with
  | sample => exact absurd haction h
  | scoreIncrement => cases event.pid <;> rfl
  | _ => rfl

theorem exactTurn_sampleCounter (rates : CompiledRule → ℚ) {scan : Scan}
    (h : rule.action = .sample → applies call (rule, scan) = false) :
    (exactTurn rates call scan rule).1.state.sampleCounter = scan.state.sampleCounter := by
  cases happlies : applies call (rule, scan) with
  | false =>
    have hgate : ¬ gate call.now scan.state (scan.event call) rule = true :=
      fun h => Bool.false_ne_true (happlies.symm.trans h)
    rw [exactTurn, if_neg hgate]
  | true =>
    have hne : rule.action ≠ .sample := by
      intro haction
      rw [h haction] at happlies
      cases happlies
    rw [exactTurn_of_ne hne, turn_of_gate happlies]
    exact runAction_sampleCounter_of_ne hne _ _

theorem sampleCounter_of_mem {t : CompiledRule × Scan} (h : t ∈ exactTurns rates p call) :
    t.2.state.sampleCounter = p.state.sampleCounter := by
  refine (mem_turns_iff.mp h).invariant (P := fun scan =>
    scan.state.sampleCounter = p.state.sampleCounter) (fun scan rule scan' hstep hscan => ?_)
    (forgetExited_sampleCounter _ _)
  have hquiet : rule.action = .sample → applies call (rule, scan) = false := by
    intro haction
    by_contra happlies
    have := (exactTurn_of_sample rates haction (Bool.eq_true_of_not_eq_false happlies)).1
    rw [hstep] at this
    cases this
  rw [← hscan, ← exactTurn_sampleCounter rates hquiet, hstep]

theorem exactPersist_of_inForce (h : p.inForce ≠ []) :
    exactPersist rates p call =
      let r := loop (exactTurn rates call) p.inForce (firstScan p.state call)
      ({ p with state := r.1.state }, r.1.event call, r.2.getD true) := by
  rw [exactPersist, if_neg (mt idle_iff.mp h), inForce_eq_rules h]

theorem exactPersist_of_inForce_nil (h : p.inForce = []) :
    exactPersist rates p call = (p, call.event, true) := by
  rw [exactPersist, if_pos (idle_iff.mpr h)]

/-- Where the rates of the rules sample as the exact ones do, so does the pipeline. -/
theorem exactPersist_eq
    (h : ∀ rule ∈ p.rules, ∀ counter,
      exactSample counter (rates rule) = shouldSample counter rule.sampleRate) :
    exactPersist rates p call = shouldPersist p call := by
  have hturn : ∀ rule scan, Turn (exactTurn rates call) p.rules (firstScan p.state call) rule scan →
      exactTurn rates call scan rule = turn call (gate call.now) scan rule := by
    intro rule scan hturn
    by_cases haction : rule.action = .sample
    · unfold exactTurn turn exactAction runAction
      simp only [haction, h rule hturn.mem]
    · exact exactTurn_of_ne haction
  unfold exactPersist shouldPersist evaluation
  rw [loop_congr hturn]

theorem exactPersist_of_sample {t : CompiledRule × Scan} (h : t ∈ exactTurns rates p call)
    (happlies : applies call t = true) (haction : t.1.action = .sample) :
    (exactPersist rates p call).2.2 = (exactSample p.state.sampleCounter (rates t.1)).2 ∧
      (exactPersist rates p call).1.state.sampleCounter =
        (exactSample p.state.sampleCounter (rates t.1)).1 := by
  obtain ⟨hverdict, hcounter⟩ := exactTurn_of_sample rates haction happlies
  rw [sampleCounter_of_mem h] at hverdict hcounter
  have hne : p.inForce ≠ [] := ne_nil_of_mem (mem_turns_iff.mp h).mem
  rw [exactPersist_of_inForce hne, (mem_turns_iff.mp h).loop_eq_of_some hverdict]
  exact ⟨rfl, hcounter⟩

theorem exists_of_applied {i : Nat} (h : Applied rates p call i = true) :
    ∃ t ∈ exactTurns rates p call, applies call t = true ∧ p.rules[i]? = some t.1 := by
  obtain ⟨t, ht, happlies⟩ := (Option.any_eq_true _ _).mp h
  have hmem : t ∈ exactTurns rates p call := mem_of_getElem? ht
  refine ⟨t, hmem, happlies, ?_⟩
  have hne : p.inForce ≠ [] := ne_nil_of_mem (mem_turns_iff.mp hmem).mem
  obtain ⟨hi, rfl⟩ := List.getElem?_eq_some_iff.mp ht
  have hprefix : (exactTurns rates p call).map Prod.fst <+: p.inForce := turns_isPrefix
  rw [← inForce_eq_rules hne,
    prefix_iff_getElem?.mp hprefix i (by rwa [length_map]), getElem_map]

/-- The counter counts the calls that a sample rule is applied to. -/
theorem exactPersist_sampleCounter :
    (exactPersist rates p call).1.state.sampleCounter =
      if Counted rates p call then p.state.sampleCounter + 1 else p.state.sampleCounter := by
  cases hcounted : Counted rates p call with
  | true =>
    obtain ⟨t, ht, hcounts⟩ := any_eq_true.mp hcounted
    simp only [Bool.and_eq_true, decide_eq_true_eq] at hcounts
    obtain ⟨⟨happlies, haction⟩, hpositive, hlt⟩ := hcounts
    rw [(exactPersist_of_sample ht happlies haction).2, if_pos rfl, exactSample,
      if_neg (not_le.mpr hpositive), if_neg (not_le.mpr hlt)]
  | false =>
    rw [if_neg Bool.false_ne_true]
    by_cases hne : p.inForce = []
    · rw [exactPersist_of_inForce_nil hne]
    rw [exactPersist_of_inForce hne]
    refine loop_invariant_of_turns (P := fun scan : Scan =>
      scan.state.sampleCounter = p.state.sampleCounter) (fun rule scan hturn hscan => ?_)
      (forgetExited_sampleCounter _ _)
    rw [← hscan]
    by_cases hquiet : rule.action = .sample → applies call (rule, scan) = false
    · exact exactTurn_sampleCounter rates hquiet
    obtain ⟨haction, happlies⟩ := Classical.not_imp.mp hquiet
    have happlies := Bool.eq_true_of_not_eq_false happlies
    -- the rate is not between 0 and 1, so the rule does not count
    have hrate : ¬ (0 < rates rule ∧ rates rule < 1) := by
      intro hrate
      refine any_eq_false.mp hcounted (rule, scan) (mem_turns_iff.mpr hturn) ?_
      simp [happlies, haction, hrate]
    rw [(exactTurn_of_sample rates haction happlies).2, exactSample]
    split
    · rfl
    next hpositive =>
      rw [if_pos]
      exact not_lt.mp fun hlt => hrate ⟨not_le.mp hpositive, hlt⟩

end Call

/-! ## The answers of a run -/

section Run

variable {rates : CompiledRule → ℚ} {n : Nat}

theorem exactPersist_rules (p : EventPipeline) (call : PersistCall) :
    (exactPersist rates p call).1.rules = p.rules := by
  unfold exactPersist
  split <;> rfl

/-- The period of a rate `1/n` is `n`, up to the greatest 64-bit number. -/
theorem toNat_period (n : Nat) :
    (period (1 / n)).toNat = min n 18446744073709551615 := by
  have hfloor : (1 / (1 / (n : ℚ))).floor.toNat = n := by
    rw [one_div_one_div, ← Int.cast_natCast, Rat.floor_intCast, Int.toNat_natCast]
  rw [period, hfloor, UInt64.toNat_ofNat', Nat.mod_eq_of_lt]
  exact lt_of_le_of_lt (Nat.min_le_right _ _) (by decide)

theorem rate_between (hn : 1 < n) : (0 : ℚ) < 1 / n ∧ (1 : ℚ) / n < 1 := by
  have hpositive : (0 : ℚ) < n := Nat.cast_pos.mpr (Nat.lt_of_succ_lt hn)
  refine ⟨one_div_pos.mpr hpositive, ?_⟩
  rw [div_lt_one hpositive]
  exact_mod_cast hn

/-- A rate `1/n` keeps the events whose number is a multiple of `n`. -/
theorem exactSample_iff (hn : 0 < n) (counter : UInt64) :
    (exactSample counter (1 / n)).2 =
      decide (min n 18446744073709551615 ∣ (counter.toNat + 1) % 2 ^ 64) := by
  rcases Nat.lt_or_ge 1 n with hlarge | hone
  · obtain ⟨hpositive, hlt⟩ := rate_between hlarge
    have hzero : period (1 / (n : ℚ)) ≠ 0 := by
      intro h
      have := toNat_period n
      rw [h] at this
      simp at this
      omega
    have hcounter : (counter + 1).toNat = (counter.toNat + 1) % 2 ^ 64 := UInt64.toNat_add _ _
    rw [exactSample, if_neg (not_le.mpr hpositive), if_neg (not_le.mpr hlt), Bool.eq_iff_iff]
    simp only [hzero, decide_false, Bool.false_or, decide_eq_true_eq]
    rw [← UInt64.toNat_inj, UInt64.toNat_mod, hcounter, toNat_period, Nat.dvd_iff_mod_eq_zero]
    rfl
  · obtain rfl : n = 1 := by omega
    rw [Nat.cast_one, div_one, exactSample, if_neg (not_le.mpr zero_lt_one), if_pos (le_refl 1)]
    simp

/-- The answers to the calls of a rule are decided by their numbers. -/
theorem answers_eq {i : Nat} {R : CompiledRule} (haction : R.action = .sample) (hn : 0 < n)
    (hrate : rates R = 1 / n) (calls : List PersistCall) {p : EventPipeline} {k : Nat}
    (hR : p.rules[i]? = some R) (hk : p.state.sampleCounter.toNat = k % 2 ^ 64) :
    answers rates i p calls =
      (ticks rates i p k calls).map fun tick => decide (min n 18446744073709551615 ∣ tick) := by
  induction calls generalizing p k with
  | nil => rfl
  | cons call calls ih =>
    rw [answers, ticks, map_append]
    congr 1
    · cases happlied : Applied rates p call i with
      | false => rfl
      | true =>
        obtain ⟨t, ht, happlies, hrule⟩ := exists_of_applied happlied
        cases hR.symm.trans hrule
        rw [if_pos rfl, if_pos rfl, (exactPersist_of_sample ht happlies haction).1, hrate,
          exactSample_iff hn, hk, map_singleton, Nat.mod_add_mod]
    · refine ih (by rw [exactPersist_rules, hR]) ?_
      rw [exactPersist_sampleCounter]
      cases Counted rates p call with
      | false => exact hk
      | true =>
        rw [if_pos rfl, if_pos rfl, UInt64.toNat_add, hk]
        exact Nat.mod_add_mod k (2 ^ 64) 1

end Run

/-- A sample rule of rate `1/n` keeps exactly one of any `n` consecutive events it is applied to
if and only if exactly one of them has a number that is a multiple of `n`, where the events of
all sample rules are numbered together. -/
theorem fair_iff (rates : CompiledRule → ℚ) (p : EventPipeline) (i : Nat) {R : CompiledRule}
    (hR : p.rules[i]? = some R) (haction : R.action = .sample) {n : Nat} (hn : 0 < n)
    (hrate : rates R = 1 / n) (calls : List PersistCall) :
    OneIn n id (answers rates i p calls) ↔
      OneIn n (fun tick => decide (min n 18446744073709551615 ∣ tick))
        (ticks rates i p p.state.sampleCounter.toNat calls) := by
  have hk : p.state.sampleCounter.toNat = p.state.sampleCounter.toNat % 2 ^ 64 :=
    (Nat.mod_eq_of_lt p.state.sampleCounter.toNat_lt).symm
  rw [answers_eq haction hn hrate calls hR hk, oneIn_map]
  rfl

def kindSample (id kind : String) : CompiledRule :=
  assembleRule { id := id, action := .sample } { kind := some kind } .sample none none none

/-- Two rules, each for a kind. -/
def twoSamples : EventPipeline where
  rules := [kindSample "sample-read" "file.read", kindSample "sample-write" "file.write"]
  enabled := true
  state := ⟨0, fun _ => {}, []⟩

def fileCall (kind : String) : PersistCall where
  event := ⟨0, "host", "ebpf", kind, .low, "", .obj [], [], []⟩
  now := 0
  shuffle entries := entries

/-- Reads in pairs are sampled fairly, though two writes come between the pairs. -/
theorem fair_iff_read :
    let calls := ["file.read", "file.read", "file.write", "file.write", "file.read",
      "file.read"].map fileCall
    answers (fun _ => 1 / 2) 0 twoSamples calls = [false, true, false, true] ∧
      OneIn 2 id (answers (fun _ => 1 / 2) 0 twoSamples calls) := by
  intro calls
  have hticks : ticks (fun _ => 1 / 2) 0 twoSamples 0 calls = [1, 2, 5, 6] := by decide +kernel
  refine ⟨by decide +kernel, (fair_iff (fun _ => 1 / 2) twoSamples 0
    (R := kindSample "sample-read" "file.read") rfl rfl Nat.two_pos rfl calls).mpr ?_⟩
  rw [show twoSamples.state.sampleCounter.toNat = 0 from rfl, hticks]
  intro window hwindow
  obtain ⟨tail, hinit, htail⟩ := infix_iff_prefix_suffix.mp hwindow
  have hall : ∀ tail ∈ [1, 2, 5, 6].tails, ∀ window ∈ tail.inits, window.length = 2 →
      window.countP (fun tick => decide (min 2 18446744073709551615 ∣ tick)) = 1 := by
    decide
  exact hall tail ((mem_tails ..).mpr htail) window ((mem_inits ..).mpr hinit)

/-- When reads and writes alternate, no read is ever kept. -/
theorem reads_starved :
    let calls := [fileCall "file.read", fileCall "file.write", fileCall "file.read",
      fileCall "file.write"]
    answers (fun _ => 1 / 2) 0 twoSamples calls = [false, false] ∧
      ¬ OneIn 2 id (answers (fun _ => 1 / 2) 0 twoSamples calls) := by
  intro calls
  have hanswers : answers (fun _ => 1 / 2) 0 twoSamples calls = [false, false] := by decide +kernel
  refine ⟨hanswers, fun hfair => ?_⟩
  rw [hanswers] at hfair
  exact absurd (hfair [false, false] infix_rfl rfl) (by decide)

end Innerwarden.Pipeline

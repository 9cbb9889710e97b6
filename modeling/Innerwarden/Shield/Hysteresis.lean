import Innerwarden.Shield.Escalation
import Mathlib.Data.List.ReduceOption

/-!
# Hysteresis of the escalation engine

The engine goes up at once and comes down slowly.  `calmCounter` counts the samples below the
level, once the level was held long enough.  A sample that is below the level but comes too
early neither advances nor resets it.  With instants in order it cannot come between two that
count.  `Counts` is that invariant, and `update_hysteresis` reads off what one more sample does.
-/

namespace Innerwarden

open List

/-- The number of drops per minute fits a machine word. -/
def DdosMetrics.Fits (m : DdosMetrics) : Prop := m.packetsDroppedPerSec.toNat * 60 < 2 ^ 64

instance DdosMetrics.decidableFits (m : DdosMetrics) : Decidable m.Fits :=
  inferInstanceAs (Decidable (_ < _))

/-- The level a number of drops per minute calls for, with no bound on the number. -/
def EscalationConfig.target (config : EscalationConfig) (m : DdosMetrics) : EscalationState :=
  let drops := m.packetsDroppedPerSec.toNat * 60
  if config.criticalDropsPerMin.toNat ≤ drops then .critical
  else if config.underAttackDropsPerMin.toNat ≤ drops then .underAttack
  else if config.elevatedDropsPerMin.toNat ≤ drops then .elevated
  else .normal

/-- A sample below the level, taken no sooner than the level may be left. -/
def EscalationConfig.Calm (config : EscalationConfig) (s : EscalationState) (entered : DateTime)
    (m : DdosMetrics) : Prop :=
  (config.target m).level < s.level ∧ entered + seconds config.minStateDurationSecs ≤ m.timestamp

def EscalationConfig.calmRun (config : EscalationConfig) : Nat :=
  max 1 config.calmSamplesRequired.toNat

theorem EscalationConfig.calmRun_pos (config : EscalationConfig) : 0 < config.calmRun :=
  Nat.lt_of_lt_of_le Nat.zero_lt_one (Nat.le_max_left _ _)

namespace EscalationState

theorem level_injective {s t : EscalationState} (h : s.level = t.level) : s = t := by
  cases s <;> cases t <;> first | rfl | cases h

theorem level_fromLevel_pred (s : EscalationState) :
    (fromLevel (s.level - 1)).level = s.level - 1 := by
  cases s <;> rfl

end EscalationState

namespace EscalationEngine

variable {config : EscalationConfig} {now : DateTime} {e : EscalationEngine} {m : DdosMetrics}

theorem targetState_eq (hfits : m.Fits) : e.targetState m.dropsPerMin = e.config.target m := by
  have hdrops : m.dropsPerMin.toNat = m.packetsDroppedPerSec.toNat * 60 := by
    rw [DdosMetrics.dropsPerMin, UInt64.toNat_mul]
    exact Nat.mod_eq_of_lt hfits
  simp only [targetState, EscalationConfig.target, UInt64.le_iff_toNat_le, hdrops]

/-! ## One sample -/

section Transition

variable (e) (s : EscalationState) (now : DateTime) (dpm : UInt64)

@[simp] theorem transitionTo_fields :
    (e.transitionTo s now dpm).state = s ∧ (e.transitionTo s now dpm).stateEnteredAt = now ∧
      (e.transitionTo s now dpm).calmCounter = 0 ∧
      (e.transitionTo s now dpm).config = e.config ∧
      (e.transitionTo s now dpm).minStateDuration = e.minStateDuration := by
  simp only [transitionTo, trackIncident]
  repeat' split
  all_goals exact ⟨rfl, rfl, rfl, rfl, rfl⟩

end Transition

/-- The sample moves the engine to another level. -/
structure Moves (e e' : EscalationEngine) (m : DdosMetrics) (out : Option StateTransition)
    (s : EscalationState) : Prop where
  state : e'.state = s
  entered : e'.stateEnteredAt = m.timestamp
  counter : e'.calmCounter = 0
  out : out = some ⟨e.state, s, m.timestamp, m.dropsPerMin⟩

/-- The sample leaves the engine where it is, with the counter at `n`. -/
structure Stays (e e' : EscalationEngine) (out : Option StateTransition) (n : UInt64) : Prop where
  state : e'.state = e.state
  entered : e'.stateEnteredAt = e.stateEnteredAt
  counter : e'.calmCounter = n
  out : out = none

/-- What a sample can do, with the level it calls for. -/
inductive Judged (e e' : EscalationEngine) (m : DdosMetrics) (out : Option StateTransition)
    (target : EscalationState) : Prop where
  | up (h : e.state.level < target.level) (moves : Moves e e' m out target)
  | down (h : target.level < e.state.level)
      (late : e.minStateDuration ≤ m.timestamp - e.stateEnteredAt)
      (enough : e.config.calmSamplesRequired ≤ e.calmCounter + 1)
      (moves : Moves e e' m out (.fromLevel (e.state.level - 1)))
  | counted (h : target.level < e.state.level)
      (late : e.minStateDuration ≤ m.timestamp - e.stateEnteredAt)
      (few : ¬ e.config.calmSamplesRequired ≤ e.calmCounter + 1)
      (stays : Stays e e' out (e.calmCounter + 1))
  | early (h : target.level < e.state.level)
      (early : ¬ e.minStateDuration ≤ m.timestamp - e.stateEnteredAt)
      (stays : Stays e e' out e.calmCounter)
  | same (h : target = e.state) (stays : Stays e e' out 0)

theorem judged_update (e : EscalationEngine) (m : DdosMetrics) :
    Judged e (e.update m).1 m (e.update m).2 (e.targetState m.dropsPerMin) := by
  simp only [update, assess, calmDown]
  split
  case isTrue hup => exact .up hup ⟨(transitionTo_fields ..).1, by simp, by simp, rfl⟩
  case isFalse hup =>
    split
    case isTrue hdown =>
      split
      case isTrue late =>
        split
        case isTrue enough =>
          exact .down hdown late enough ⟨(transitionTo_fields ..).1, by simp, by simp, rfl⟩
        case isFalse few => exact .counted hdown late few ⟨rfl, rfl, rfl, rfl⟩
      case isFalse early => exact .early hdown early ⟨rfl, rfl, rfl, rfl⟩
    case isFalse hdown =>
      refine .same (EscalationState.level_injective ?_) ⟨rfl, rfl, rfl, rfl⟩
      exact Nat.le_antisymm (Nat.not_lt.mp hup) (Nat.not_lt.mp hdown)

theorem config_update (e : EscalationEngine) (m : DdosMetrics) :
    (e.update m).1.config = e.config ∧ (e.update m).1.minStateDuration = e.minStateDuration := by
  simp only [update, assess, calmDown]
  repeat' split
  all_goals simp [recordMetrics, updateIncident]

/-! ## Runs -/

def fed (config : EscalationConfig) (now : DateTime) (samples : List DdosMetrics) :
    EscalationEngine :=
  (machine config now).exec (machine config now).init (samples.map .update)

/-- The instant the engine entered its level: that of the last transition the updates
returned, or its start. -/
def enteredAt (config : EscalationConfig) (now : DateTime) (samples : List DdosMetrics) :
    DateTime :=
  let returned := (machine config now).trace (machine config now).init (samples.map .update)
  (returned.reduceOption.getLast?.map StateTransition.time).getD now

theorem fed_concat (samples : List DdosMetrics) (m : DdosMetrics) :
    fed config now (samples ++ [m]) = ((fed config now samples).update m).1 := by
  rw [fed, map_append, StateMachine.exec_append]
  rfl

theorem enteredAt_concat (samples : List DdosMetrics) (m : DdosMetrics) :
    enteredAt config now (samples ++ [m]) =
      match ((fed config now samples).update m).2 with
      | some t => t.time
      | none => enteredAt config now samples := by
  have htrace : (machine config now).trace (machine config now).init
      ((samples ++ [m]).map .update) =
        (machine config now).trace (machine config now).init (samples.map .update) ++
          [((fed config now samples).update m).2] := by
    rw [map_append, StateMachine.trace_append]
    rfl
  rw [enteredAt, htrace]
  cases ((fed config now samples).update m).2 with
  | none => simp [reduceOption_append, enteredAt]
  | some t => simp [reduceOption_append]

/-- Samples in the order of their instants, none of them out of the range of a word. -/
structure InOrder (samples : List DdosMetrics) : Prop where
  sorted : samples.Pairwise fun m m' => m.timestamp ≤ m'.timestamp
  fits : ∀ m ∈ samples, m.Fits

instance (samples : List DdosMetrics) : Decidable (InOrder samples) :=
  decidable_of_iff
    ((samples.Pairwise fun m m' => m.timestamp ≤ m'.timestamp) ∧ ∀ m ∈ samples, m.Fits)
    ⟨fun h => ⟨h.1, h.2⟩, fun h => ⟨h.sorted, h.fits⟩⟩

theorem InOrder.init {samples : List DdosMetrics} (h : InOrder (samples ++ [m])) :
    InOrder samples :=
  ⟨(pairwise_append.mp h.sorted).1, fun s hs => h.fits s (mem_append_left _ hs)⟩

theorem InOrder.timestamp_le {samples : List DdosMetrics} (h : InOrder (samples ++ [m]))
    {s : DdosMetrics} (hs : s ∈ samples) : s.timestamp ≤ m.timestamp :=
  (pairwise_append.mp h.sorted).2.2 s hs m (mem_singleton_self m)

/-- The counter counts samples at the end of the history, all of them calm and fewer than
it takes to leave the level. -/
structure Counts (config : EscalationConfig) (now : DateTime) (samples : List DdosMetrics)
    (e : EscalationEngine) : Prop where
  configured : e.config = config
  duration : e.minStateDuration = seconds config.minStateDurationSecs
  entered : e.stateEnteredAt = enteredAt config now samples
  few : e.calmCounter.toNat < config.calmRun
  calm : ∃ recent, recent <:+ samples ∧ recent.length = e.calmCounter.toNat ∧
    ∀ s ∈ recent, config.Calm e.state (enteredAt config now samples) s

theorem counts_new : Counts config now [] (new config now) where
  configured := rfl
  duration := rfl
  entered := rfl
  few := config.calmRun_pos
  calm := ⟨[], nil_suffix, rfl, by simp⟩

section Step

variable {samples : List DdosMetrics}

section Counter

variable (h : Counts config now samples e)

include h

theorem Counts.toNat_calmCounter_succ :
    (e.calmCounter + 1).toNat = e.calmCounter.toNat + 1 := by
  have hfew := h.few
  have hcounter := e.calmCounter.toNat_lt
  have hrequired := config.calmSamplesRequired.toNat_lt
  rw [EscalationConfig.calmRun] at hfew
  rw [UInt64.toNat_add, UInt64.toNat_one]
  omega

theorem Counts.enough_iff :
    e.config.calmSamplesRequired ≤ e.calmCounter + 1 ↔
      e.calmCounter.toNat + 1 = config.calmRun := by
  have hfew := h.few
  rw [UInt64.le_iff_toNat_le, h.toNat_calmCounter_succ, h.configured]
  rw [EscalationConfig.calmRun] at hfew ⊢
  omega

theorem Counts.late_iff :
    e.minStateDuration ≤ m.timestamp - e.stateEnteredAt ↔
      enteredAt config now samples + seconds config.minStateDurationSecs ≤ m.timestamp := by
  rw [h.duration, h.entered]
  exact ⟨Int.add_le_of_le_sub_left, Int.le_sub_left_of_add_le⟩

theorem Counts.calm_concat (hcalm : config.Calm e.state (enteredAt config now samples) m) :
    ∃ recent, recent <:+ samples ++ [m] ∧ recent.length = e.calmCounter.toNat + 1 ∧
      ∀ s ∈ recent, config.Calm e.state (enteredAt config now samples) s := by
  obtain ⟨recent, ⟨older, rfl⟩, hlength, hall⟩ := h.calm
  refine ⟨recent ++ [m], ⟨older, (append_assoc older recent [m]).symm⟩, by simp [hlength], ?_⟩
  intro s hs
  rcases mem_append.mp hs with hs | hs
  · exact hall s hs
  · rwa [mem_singleton.mp hs]

theorem Counts.eq_zero_of_early (hordered : InOrder (samples ++ [m]))
    (hearly : ¬ e.minStateDuration ≤ m.timestamp - e.stateEnteredAt) :
    e.calmCounter = 0 := by
  rw [h.late_iff] at hearly
  obtain ⟨recent, hsuffix, hlength, hall⟩ := h.calm
  cases recent with
  | nil => exact UInt64.toNat_inj.mp hlength.symm
  | cons s recent =>
    have hlate := (hall s (mem_cons_self ..)).2
    have hle := hordered.timestamp_le (hsuffix.mem (mem_cons_self ..))
    exact absurd (Int.le_trans hlate hle) hearly

end Counter

theorem calm_of_eq_zero {s : EscalationState} {t : DateTime} {samples : List DdosMetrics}
    {n : UInt64} (hn : n = 0) :
    ∃ recent, recent <:+ samples ∧ recent.length = n.toNat ∧ ∀ s' ∈ recent, config.Calm s t s' :=
  ⟨[], nil_suffix, by rw [hn]; rfl, by simp⟩

variable (h : Counts config now samples (fed config now samples))

include h

theorem Counts.moved {s : EscalationState}
    (moves : Moves (fed config now samples) ((fed config now samples).update m).1 m
      ((fed config now samples).update m).2 s) :
    Counts config now (samples ++ [m]) (fed config now (samples ++ [m])) := by
  have hconfig := config_update (fed config now samples) m
  rw [fed_concat]
  refine ⟨hconfig.1.trans h.configured, hconfig.2.trans h.duration, ?_, ?_,
    calm_of_eq_zero moves.counter⟩
  · rw [moves.entered, enteredAt_concat, moves.out]
  · rw [moves.counter]
    exact config.calmRun_pos

theorem Counts.stayed {n : UInt64}
    (stays : Stays (fed config now samples) ((fed config now samples).update m).1
      ((fed config now samples).update m).2 n)
    (hfew : n.toNat < config.calmRun)
    (hcalm : ∃ recent, recent <:+ samples ++ [m] ∧ recent.length = n.toNat ∧
      ∀ s ∈ recent, config.Calm (fed config now samples).state (enteredAt config now samples) s) :
    Counts config now (samples ++ [m]) (fed config now (samples ++ [m])) := by
  have hconfig := config_update (fed config now samples) m
  have hentered : enteredAt config now (samples ++ [m]) = enteredAt config now samples := by
    rw [enteredAt_concat, stays.out]
  rw [fed_concat]
  refine ⟨hconfig.1.trans h.configured, hconfig.2.trans h.duration, ?_, ?_, ?_⟩
  · rw [stays.entered, hentered, h.entered]
  · rwa [stays.counter]
  · rwa [stays.state, stays.counter, hentered]

theorem Counts.judged (hordered : InOrder (samples ++ [m])) :
    Judged (fed config now samples) ((fed config now samples).update m).1 m
      ((fed config now samples).update m).2 (config.target m) := by
  have hfits := hordered.fits m (mem_append_right _ (mem_singleton_self m))
  have hjudged := judged_update (fed config now samples) m
  rwa [targetState_eq hfits, h.configured] at hjudged

theorem Counts.update (hordered : InOrder (samples ++ [m])) :
    Counts config now (samples ++ [m]) (fed config now (samples ++ [m])) := by
  cases h.judged hordered with
  | up _ moves => exact h.moved moves
  | down _ _ _ moves => exact h.moved moves
  | counted hlt late few stays =>
    have hcalm := h.calm_concat ⟨hlt, h.late_iff.mp late⟩
    rw [← h.toNat_calmCounter_succ] at hcalm
    refine h.stayed stays ?_ hcalm
    rw [h.toNat_calmCounter_succ]
    exact Nat.lt_of_le_of_ne h.few fun heq => few (h.enough_iff.mpr heq)
  | early hlt early stays =>
    have hzero := h.eq_zero_of_early hordered early
    exact h.stayed stays h.few (calm_of_eq_zero hzero)
  | same _ stays => exact h.stayed stays config.calmRun_pos (calm_of_eq_zero rfl)

end Step

theorem counts_fed {samples : List DdosMetrics} (hordered : InOrder samples) :
    Counts config now samples (fed config now samples) := by
  induction samples using List.reverseRecOn with
  | nil => exact counts_new
  | append_singleton samples m ih => exact (ih hordered.init).update hordered

/-- A sample above the level moves the engine to the level it calls for.  The engine goes
down one level at a time, and only when the last samples, as many as are required, were
calm.  Otherwise it does not move. -/
theorem update_hysteresis (config : EscalationConfig) (now : DateTime)
    (samples : List DdosMetrics) (m : DdosMetrics) (hordered : InOrder (samples ++ [m])) :
    let e := fed config now samples
    let e' := (e.update m).1
    let calm := ∃ recent, recent <:+ samples ++ [m] ∧ recent.length = config.calmRun ∧
      ∀ s ∈ recent, config.Calm e.state (enteredAt config now samples) s
    (e.state.level < (config.target m).level → e'.state = config.target m) ∧
      (e'.state.level < e.state.level → e'.state.level + 1 = e.state.level ∧ calm) ∧
      (¬ e.state.level < (config.target m).level → ¬ e'.state.level < e.state.level →
        e'.state = e.state) := by
  intro e e' calm
  have h : Counts config now samples e := counts_fed hordered.init
  cases h.judged hordered with
  | up hlt moves =>
    have hstate : e'.state = config.target m := moves.state
    refine ⟨fun _ => hstate, fun hdown => ?_, fun hle _ => absurd hlt hle⟩
    rw [hstate] at hdown
    exact absurd hdown (Nat.lt_asymm hlt)
  | down hlt late enough moves =>
    have hstate : e'.state = .fromLevel (e.state.level - 1) := moves.state
    have hcalm : calm := by
      obtain ⟨recent, hsuffix, hlength, hall⟩ := h.calm_concat ⟨hlt, h.late_iff.mp late⟩
      exact ⟨recent, hsuffix, hlength.trans (h.enough_iff.mp enough), hall⟩
    have hdown : e'.state.level + 1 = e.state.level := by
      rw [hstate, EscalationState.level_fromLevel_pred]
      exact Nat.sub_add_cancel (Nat.one_le_of_lt hlt)
    exact ⟨fun hup => absurd hup (Nat.lt_asymm hlt), fun _ => ⟨hdown, hcalm⟩,
      fun _ hnot => absurd (Nat.lt_of_succ_le (Nat.le_of_eq hdown)) hnot⟩
  | counted hlt _ _ stays | early hlt _ stays =>
    have hstate : e'.state = e.state := stays.state
    refine ⟨fun hup => absurd hup (Nat.lt_asymm hlt), fun hdown => ?_, fun _ _ => hstate⟩
    rw [hstate] at hdown
    exact absurd hdown (Nat.lt_irrefl _)
  | same heq stays =>
    have hstate : e'.state = e.state := stays.state
    refine ⟨fun _ => hstate.trans heq.symm, fun hdown => ?_, fun _ _ => hstate⟩
    rw [hstate] at hdown
    exact absurd hdown (Nat.lt_irrefl _)

/-- An attack and two calm samples five minutes later: the second takes the engine down. -/
theorem update_hysteresis_second_calm :
    let config : EscalationConfig := { calmSamplesRequired := 2 }
    let samples := [sampleMetrics 1 (seconds 10), sampleMetrics 0 (seconds 310)]
    let m := sampleMetrics 0 (seconds 320)
    InOrder (samples ++ [m]) ∧ (fed config 0 samples).state = .elevated ∧
      ((fed config 0 samples).update m).1.state = .normal ∧
      ∃ recent, recent <:+ samples ++ [m] ∧ recent.length = config.calmRun ∧
        ∀ s ∈ recent, config.Calm .elevated (seconds 10) s := by
  intro config samples m
  have hordered : InOrder (samples ++ [m]) := by decide
  have h := update_hysteresis config 0 samples m hordered
  exact ⟨hordered, by decide, by decide, (h.2.1 (by decide)).2⟩

end EscalationEngine

end Innerwarden

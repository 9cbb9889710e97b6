import Innerwarden.Lib.StateMachine
import Innerwarden.Time

/-!
# The escalation engine

`shield/src/escalation.rs`.  A sample of metrics above the level the engine is in moves it up at
once.  Samples below move it one level down, when the level was held long enough and enough of
them came in.  An *incident* opens when the engine leaves `Normal` and closes when it returns.

* `transitionTo`: the new level, and with it the incident opened, closed or raised.
* `update`: one sample.
* `restart`: a fresh engine that is given back the level, the instant it was entered and the
  closed incidents.

The open incident and the counter behind the ids are not given back, which are the only two ways
the bookkeeping breaks (`coherent_iff_coherentStep`).  The counters are machine words.
`Duration::seconds` panics outside the range of `chrono`, which is not modelled.
-/

namespace Innerwarden

/-! ## Levels -/

/-- The states, from calm to worst. -/
inductive EscalationState where
  | normal
  | elevated
  | underAttack
  | critical
deriving DecidableEq

namespace EscalationState

def level : EscalationState → Nat
  | normal => 0
  | elevated => 1
  | underAttack => 2
  | critical => 3

def fromLevel : Nat → EscalationState
  | 0 => normal
  | 1 => elevated
  | 2 => underAttack
  | _ => critical

theorem level_pos {s : EscalationState} : 0 < s.level ↔ s ≠ normal := by
  cases s <;> simp [level]

end EscalationState

/-! ## Data -/

/-- A sample of metrics.  The CPU impact, a constant nothing reads, is left out. -/
structure DdosMetrics where
  timestamp : DateTime
  packetsDroppedPerSec : UInt64
  uniqueAttackers : UInt64
  synFloodActive : Bool
  udpFloodActive : Bool
  httpFloodActive : Bool
  totalDropped : UInt64
  totalAllowed : UInt64
  peakPps : UInt64
  attackDurationSecs : UInt64
deriving DecidableEq

def DdosMetrics.dropsPerMin (m : DdosMetrics) : UInt64 := m.packetsDroppedPerSec * 60

/-- A change of state. -/
structure StateTransition where
  fromState : EscalationState
  toState : EscalationState
  time : DateTime
  triggerDropsPerMin : UInt64

/-- The thresholds, with their defaults. -/
structure EscalationConfig where
  elevatedDropsPerMin : UInt64 := 50
  underAttackDropsPerMin : UInt64 := 500
  criticalDropsPerMin : UInt64 := 5000
  minStateDurationSecs : Int := 300
  calmSamplesRequired : UInt64 := 6

/-- An attack, from its start to its end. -/
structure DdosIncident where
  id : String
  started : DateTime
  ended : Option DateTime
  peakState : EscalationState
  peakPps : UInt64
  totalDropped : UInt64
  peakAttackers : UInt64
  attackType : String

/-- The incident brought up to date. -/
def DdosIncident.followed (inc : DdosIncident) (m : DdosMetrics) : DdosIncident :=
  { inc with
    peakPps := if inc.peakPps < m.peakPps then m.peakPps else inc.peakPps
    totalDropped := m.totalDropped
    peakAttackers :=
      if inc.peakAttackers < m.uniqueAttackers then m.uniqueAttackers else inc.peakAttackers }

/-- The state of the engine, the samples it keeps and the attacks it has seen. -/
structure EscalationEngine where
  state : EscalationState
  stateEnteredAt : DateTime
  metricsHistory : List DdosMetrics
  config : EscalationConfig
  minStateDuration : Int
  calmCounter : UInt64
  transitions : List StateTransition
  currentIncident : Option DdosIncident
  incidents : List DdosIncident
  incidentCounter : UInt64

/-- The id of the incident opened when the counter reads `n`. -/
def ddosId (n : UInt64) : String := "ddos-" ++ toString n.toNat

namespace EscalationEngine

/-! ## The engine -/

/-- `EscalationEngine::new`, `now` being `Utc::now()`. -/
def new (config : EscalationConfig) (now : DateTime) : EscalationEngine where
  state := .normal
  stateEnteredAt := now
  metricsHistory := []
  config := config
  minStateDuration := seconds config.minStateDurationSecs
  calmCounter := 0
  transitions := []
  currentIncident := none
  incidents := []
  incidentCounter := 0

/-- What the rate calls for. -/
def targetState (e : EscalationEngine) (dropsPerMin : UInt64) : EscalationState :=
  if e.config.criticalDropsPerMin ≤ dropsPerMin then .critical
  else if e.config.underAttackDropsPerMin ≤ dropsPerMin then .underAttack
  else if e.config.elevatedDropsPerMin ≤ dropsPerMin then .elevated
  else .normal

/-- The incident part of `transition_to`. -/
def trackIncident (e : EscalationEngine) (newState : EscalationState) (now : DateTime) :
    EscalationEngine :=
  if newState = .normal then
    match e.currentIncident with
    | some inc =>
      { e with
        currentIncident := none
        incidents := e.incidents ++ [{ inc with ended := some now }] }
    | none => e
  else
    match e.currentIncident with
    | none =>
      { e with
        incidentCounter := e.incidentCounter + 1
        currentIncident := some
          { id := ddosId (e.incidentCounter + 1)
            started := now
            ended := none
            peakState := newState
            peakPps := 0
            totalDropped := 0
            peakAttackers := 0
            attackType := "unknown" } }
    | some inc =>
      if inc.peakState.level < newState.level then
        { e with currentIncident := some { inc with peakState := newState } }
      else e

def transitionTo (e : EscalationEngine) (newState : EscalationState) (now : DateTime)
    (dpm : UInt64) : EscalationEngine :=
  trackIncident
    { e with
      state := newState
      stateEnteredAt := now
      calmCounter := 0
      transitions := e.transitions ++ [⟨e.state, newState, now, dpm⟩] }
    newState now

/-- The sample is kept, and the oldest of more than 200. -/
def recordMetrics (e : EscalationEngine) (m : DdosMetrics) : EscalationEngine :=
  let history := e.metricsHistory ++ [m]
  { e with metricsHistory := if 200 < history.length then history.drop 1 else history }

/-- The open incident follows the sample. -/
def updateIncident (e : EscalationEngine) (m : DdosMetrics) : EscalationEngine :=
  { e with currentIncident := e.currentIncident.map (·.followed m) }

/-- A sample below the level, which was held long enough: one more calm sample, and with
enough of them one level down. -/
def calmDown (e : EscalationEngine) (m : DdosMetrics) :
    EscalationEngine × Option StateTransition :=
  let e := { e with calmCounter := e.calmCounter + 1 }
  if e.config.calmSamplesRequired ≤ e.calmCounter then
    let newState := EscalationState.fromLevel (e.state.level - 1)
    (e.transitionTo newState m.timestamp m.dropsPerMin,
      some ⟨e.state, newState, m.timestamp, m.dropsPerMin⟩)
  else (e.updateIncident m, none)

/-- `update` after the sample is kept. -/
def assess (e : EscalationEngine) (m : DdosMetrics) :
    EscalationEngine × Option StateTransition :=
  let target := e.targetState m.dropsPerMin
  if e.state.level < target.level then
    (e.transitionTo target m.timestamp m.dropsPerMin,
      some ⟨e.state, target, m.timestamp, m.dropsPerMin⟩)
  else if target.level < e.state.level then
    if e.minStateDuration ≤ m.timestamp - e.stateEnteredAt then e.calmDown m
    else (e.updateIncident m, none)
  else ({ e with calmCounter := 0 }.updateIncident m, none)

def update (e : EscalationEngine) (m : DdosMetrics) :
    EscalationEngine × Option StateTransition :=
  (e.recordMetrics m).assess m

def restore (e : EscalationEngine) (state : EscalationState) (enteredAt : DateTime)
    (incidents : List DdosIncident) : EscalationEngine :=
  { e with state := state, stateEnteredAt := enteredAt, incidents := incidents }

/-- The engine of the next process, started at `now` with what this one persists. -/
def restart (e : EscalationEngine) (config : EscalationConfig) (now : DateTime) :
    EscalationEngine :=
  (new config now).restore e.state e.stateEnteredAt e.incidents

/-! ## Incidents -/

/-- The ids of all incidents, the open one last. -/
def incidentIds (e : EscalationEngine) : List String :=
  e.incidents.map DdosIncident.id ++ (e.currentIncident.map DdosIncident.id).toList

/-- An incident is open exactly outside `Normal`, and no two incidents share an id. -/
structure Coherent (e : EscalationEngine) : Prop where
  isOpen : e.currentIncident.isSome ↔ e.state ≠ .normal
  nodup : e.incidentIds.Nodup

theorem Coherent.currentIncident_eq_none {e : EscalationEngine} (h : e.Coherent)
    (hstate : e.state = .normal) : e.currentIncident = none := by
  cases hcur : e.currentIncident with
  | none => rfl
  | some inc => exact absurd hstate (h.isOpen.mp (by rw [hcur]; rfl))

theorem Coherent.exists_currentIncident {e : EscalationEngine} (h : e.Coherent)
    (hstate : e.state ≠ .normal) : ∃ inc, e.currentIncident = some inc :=
  Option.isSome_iff_exists.mp (h.isOpen.mpr hstate)

theorem Coherent.congr {e e' : EscalationEngine} (h : e.Coherent)
    (hopen : e'.currentIncident.isSome ↔ e'.state ≠ .normal)
    (hids : e'.incidentIds = e.incidentIds) : e'.Coherent :=
  ⟨hopen, hids ▸ h.nodup⟩

variable {e : EscalationEngine} {s : EscalationState} {now : DateTime} {dpm : UInt64}

/-! ### What a transition does to the incidents -/

theorem coherent_transitionTo_normal (h : e.Coherent) (hstate : e.state ≠ .normal) :
    (e.transitionTo .normal now dpm).Coherent := by
  obtain ⟨inc, hcur⟩ := h.exists_currentIncident hstate
  refine h.congr ?_ ?_
  · simp [transitionTo, trackIncident, hcur]
  · simp [transitionTo, trackIncident, incidentIds, hcur]

theorem coherent_transitionTo_raised (h : e.Coherent) (hstate : e.state ≠ .normal)
    (hs : s ≠ .normal) : (e.transitionTo s now dpm).Coherent := by
  obtain ⟨inc, hcur⟩ := h.exists_currentIncident hstate
  simp only [transitionTo, trackIncident, hcur, hs, if_false]
  split
  all_goals exact h.congr (by simp [hs]) (by simp [incidentIds, hcur])

/-- From `Normal` an incident opens, under the next id of the counter. -/
theorem coherent_transitionTo_opened (h : e.Coherent) (hstate : e.state = .normal)
    (hs : s ≠ .normal) :
    (e.transitionTo s now dpm).Coherent ↔
      ddosId (e.incidentCounter + 1) ∉ e.incidents.map DdosIncident.id := by
  have hcur := h.currentIncident_eq_none hstate
  have hclosed : e.incidentIds = e.incidents.map DdosIncident.id := by simp [incidentIds, hcur]
  have hopen : (e.transitionTo s now dpm).currentIncident.isSome ↔
      (e.transitionTo s now dpm).state ≠ .normal := by
    simp [transitionTo, trackIncident, hcur, hs]
  have hids : (e.transitionTo s now dpm).incidentIds =
      e.incidents.map DdosIncident.id ++ [ddosId (e.incidentCounter + 1)] := by
    simp [transitionTo, trackIncident, incidentIds, hcur, hs]
  have hnodup : (e.transitionTo s now dpm).incidentIds.Nodup ↔
      ddosId (e.incidentCounter + 1) ∉ e.incidents.map DdosIncident.id := by
    rw [hids, (List.perm_append_singleton _ _).nodup_iff, List.nodup_cons, ← hclosed]
    exact and_iff_left h.nodup
  exact ⟨fun h' => hnodup.mp h'.nodup, fun hfresh => ⟨hopen, hnodup.mpr hfresh⟩⟩

/-! ## One step -/

/-- What happens to an engine: a sample, or a restart with a configuration. -/
inductive Op where
  | update (m : DdosMetrics)
  | restart (config : EscalationConfig) (now : DateTime)

/-- The engine over a run, from `EscalationEngine::new`. -/
def machine (config : EscalationConfig) (now : DateTime) :
    StateMachine EscalationEngine Op (Option StateTransition) where
  init := new config now
  step e
    | .update m => e.update m
    | .restart config now => (e.restart config now, none)

/-- A restart comes in `Normal`.  A sample that opens an incident opens it under an id no
closed incident has. -/
def CoherentStep (e : EscalationEngine) : Op → Prop
  | .update m =>
    e.state = .normal → e.targetState m.dropsPerMin ≠ .normal →
      ddosId (e.incidentCounter + 1) ∉ e.incidents.map DdosIncident.id
  | .restart _ _ => e.state = .normal

theorem Coherent.updateIncident (h : e.Coherent) (m : DdosMetrics) :
    (e.updateIncident m).Coherent := by
  refine h.congr ?_ ?_
  · simpa [EscalationEngine.updateIncident] using h.isOpen
  · simp [EscalationEngine.updateIncident, DdosIncident.followed, incidentIds, Function.comp_def]

theorem Coherent.calmDown (h : e.Coherent) (hstate : e.state ≠ .normal) (m : DdosMetrics) :
    (e.calmDown m).1.Coherent := by
  have hcalm : { e with calmCounter := e.calmCounter + 1 }.Coherent := ⟨h.isOpen, h.nodup⟩
  rw [EscalationEngine.calmDown]
  split
  · -- An incident is open, and only `Normal` closes it.
    by_cases hs : EscalationState.fromLevel (e.state.level - 1) = .normal
    · simp only [hs]
      exact coherent_transitionTo_normal hcalm hstate
    · exact coherent_transitionTo_raised hcalm hstate hs
  · exact hcalm.updateIncident m

theorem Coherent.assess_of_le {m : DdosMetrics} (h : e.Coherent)
    (hle : (e.targetState m.dropsPerMin).level ≤ e.state.level) : (e.assess m).1.Coherent := by
  rw [assess, if_neg (Nat.not_lt.mpr hle)]
  split
  case isTrue hlt =>
    have hstate : e.state ≠ .normal :=
      EscalationState.level_pos.mp (Nat.lt_of_le_of_lt (Nat.zero_le _) hlt)
    split
    · exact h.calmDown hstate m
    · exact h.updateIncident m
  case isFalse =>
    have hcalm : { e with calmCounter := 0 }.Coherent := ⟨h.isOpen, h.nodup⟩
    exact hcalm.updateIncident m

theorem coherent_assess {m : DdosMetrics} (h : e.Coherent) :
    (e.assess m).1.Coherent ↔ e.CoherentStep (.update m) := by
  rcases Nat.lt_or_ge e.state.level (e.targetState m.dropsPerMin).level with hlt | hle
  · have htarget : e.targetState m.dropsPerMin ≠ .normal :=
      EscalationState.level_pos.mp (Nat.lt_of_le_of_lt (Nat.zero_le _) hlt)
    rw [assess, if_pos hlt]
    by_cases hstate : e.state = .normal
    · rw [coherent_transitionTo_opened h hstate htarget]
      exact ⟨fun hfresh _ _ => hfresh, fun hstep => hstep hstate htarget⟩
    · refine iff_of_true (coherent_transitionTo_raised h hstate htarget) ?_
      intro hnormal
      exact absurd hnormal hstate
  · refine iff_of_true (h.assess_of_le hle) ?_
    intro hnormal htarget
    rw [hnormal] at hle
    exact absurd (EscalationState.level_pos.mpr htarget) (Nat.not_lt.mpr hle)

theorem coherent_update {m : DdosMetrics} (h : e.Coherent) :
    (e.update m).1.Coherent ↔ e.CoherentStep (.update m) := by
  have hrec : (e.recordMetrics m).Coherent := ⟨h.isOpen, h.nodup⟩
  exact coherent_assess hrec

theorem coherent_restart {config : EscalationConfig} (h : e.Coherent) :
    (e.restart config now).Coherent ↔ e.state = .normal := by
  have hsub : (e.restart config now).incidentIds.Sublist e.incidentIds := by
    simp [restart, restore, new, incidentIds]
  constructor
  · intro h'
    have hclosed : ¬ (e.restart config now).currentIncident.isSome := by
      simp [restart, restore, new]
    exact not_not.mp fun hstate => hclosed (h'.isOpen.mpr hstate)
  · intro hstate
    refine ⟨?_, h.nodup.sublist hsub⟩
    simp [restart, restore, new, hstate]

theorem coherent_new (config : EscalationConfig) (now : DateTime) : (new config now).Coherent :=
  ⟨by simp [new], by simp [new, incidentIds]⟩

/-! ## Runs -/

/-- The bookkeeping is right at every point of a run exactly if every restart comes in
`Normal` and every incident opens under an id no closed incident has. -/
theorem coherent_iff_coherentStep (config : EscalationConfig) (now : DateTime) (ops : List Op) :
    (∀ pre, pre <+: ops →
        ((machine config now).exec (machine config now).init pre).Coherent) ↔
      (machine config now).Meets CoherentStep (machine config now).init ops := by
  refine StateMachine.forall_exec_iff_meets (I := fun _ => True) (fun _ _ _ => trivial) ?_ ops
    trivial (coherent_new config now)
  intro e op _ h
  cases op with
  | update m => exact coherent_update h
  | restart config now => exact coherent_restart h

/-- A sample with `drops` dropped packets per second. -/
def sampleMetrics (drops : UInt64) (timestamp : DateTime) : DdosMetrics where
  timestamp := timestamp
  packetsDroppedPerSec := drops
  uniqueAttackers := 5
  synFloodActive := false
  udpFloodActive := false
  httpFloodActive := false
  totalDropped := 1000
  totalAllowed := 5000
  peakPps := drops
  attackDurationSecs := 0

/-- A restart during an attack has no open incident in a raised level.  After an attack that
ended, a restart and a second attack, both incidents are `ddos-1`. -/
theorem restart_breaks_incidents :
    let config : EscalationConfig := { minStateDurationSecs := 0, calmSamplesRequired := 1 }
    let attack : Op := .update (sampleMetrics 1 (seconds 10))
    let calm : Op := .update (sampleMetrics 0 (seconds 20))
    let again : Op := .update (sampleMetrics 1 (seconds 40))
    let reboot : Op := .restart config (seconds 30)
    let engine := (machine config 0).exec (machine config 0).init
    (engine [attack, reboot]).state = .elevated ∧
      (engine [attack, reboot]).currentIncident = none ∧
      (engine [attack, calm, reboot, again]).incidentIds = ["ddos-1", "ddos-1"] := by
  decide

end EscalationEngine

end Innerwarden

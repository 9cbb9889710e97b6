import Innerwarden.Store.Incidents

/-!
# The gates before the AI

`crates/agent/src/incident_flow.rs`.  `evaluate_pre_ai_flow` collects what the allowlists, the
severity gate, the cooldowns and the block lifecycle say of an incident, and
`decide_pre_ai_guard` decides whether the AI is asked.  The last gate is the number of calls of
the tick (`decidePreAiGuard_eq_budget`).
-/

namespace Innerwarden

open Text

/-- The answers the guard is given. -/
structure PreAiGuardInputs where
  isPipelineTest : Bool
  isAdvisoryDetector : Bool
  aiEnabled : Bool
  isAllowlisted : Bool
  passesAiGate : Bool
  belowSeverityThreshold : Bool
  inDecisionCooldown : Bool
  aiCallsThisTick : Nat
  maxAiCallsPerTick : Nat
  skipFase3 : Bool
  alreadyActivelyBlocked : Bool

/-- Which gate stopped an incident. -/
inductive PreAiGuardDecision where
  | proceed
  | pipelineTestHandled
  | skipAdvisoryDetector
  | skipAiDisabled
  | skipAllowlisted
  | skipBelowSeverity
  | skipPrivateOrBlocked
  | skipDecisionCooldown
  | skipAiCallBudget
  | skipAlreadyBlocked
deriving DecidableEq

/-- What the loop does with it. -/
inductive PreAiFlowDecision where
  | proceed
  | skipHandled
  | skipAllowlisted
  | pipelineTestHandled
  | skipBelowSeverity
deriving DecidableEq

def matchesSkipFase3 (incidentId : String) (skipList : List String) : Bool :=
  skipList.any fun entry =>
    entry ≠ "" && (incidentId = entry || startsWith incidentId (entry ++ ":"))

def blockMitigatedDetectors : List String :=
  ["threat_intel", "proto_anomaly", "port_scan", "web_scan", "scanner_ua", "user_agent_scanner",
   "nmap_scan", "wordlist_scan", "ssh_bruteforce", "distributed_ssh", "credential_stuffing"]

def firstPart (incidentId : String) : String := (split ':' incidentId).headD ""

def isBlockMitigatedDetector (incidentId : String) : Bool :=
  let detector := firstPart incidentId
  blockMitigatedDetectors.contains ((stripPrefix detector "graph_").getD detector)

def PreAiGuardInputs.budgetSpent (inputs : PreAiGuardInputs) : Bool :=
  0 < inputs.maxAiCallsPerTick && inputs.maxAiCallsPerTick ≤ inputs.aiCallsThisTick

/-- The gates of `decide_pre_ai_guard` that come before the budget. -/
def PreAiGuardInputs.gates (inputs : PreAiGuardInputs) (rest : PreAiGuardDecision) :
    PreAiGuardDecision :=
  if inputs.isPipelineTest then .pipelineTestHandled
  else if inputs.isAdvisoryDetector then .skipAdvisoryDetector
  else if !inputs.aiEnabled then .skipAiDisabled
  else if inputs.isAllowlisted then .skipAllowlisted
  else if inputs.alreadyActivelyBlocked then .skipAlreadyBlocked
  else if !inputs.skipFase3 && !inputs.passesAiGate then
    if inputs.belowSeverityThreshold then .skipBelowSeverity else .skipPrivateOrBlocked
  else if !inputs.skipFase3 && inputs.inDecisionCooldown then .skipDecisionCooldown
  else rest

def decidePreAiGuard (inputs : PreAiGuardInputs) : PreAiGuardDecision :=
  inputs.gates (if inputs.budgetSpent then .skipAiCallBudget else .proceed)

/-- What the rest of the agent says of an incident. -/
structure PreAiAnswers where
  /-- `has_decision_for_incident`. -/
  hasDecision : Bool
  /-- `is_ip_actively_blocked`. -/
  ipActivelyBlocked : String → Bool
  /-- `is_ip_allowlisted`, by the configuration or the file. -/
  ipAllowlisted : String → Bool
  /-- `is_user_allowlisted`, by the configuration or the file. -/
  userAllowlisted : String → Bool
  /-- `should_invoke_ai`. -/
  shouldInvokeAi : Bool
  /-- `is_below_severity_threshold`. -/
  belowSeverityThreshold : Bool
  /-- Some cooldown of the incident is younger than an hour. -/
  inDecisionCooldown : Bool

/-- The settings the flow reads. -/
structure PreAiConfig where
  maxAiCallsPerTick : Nat
  detectorsSkipFase3 : List String

section Flow

variable (cfg : PreAiConfig) (answers : PreAiAnswers) (aiEnabled : Bool) (incident : Incident)

def Incident.firstEntity (i : Incident) (type : EntityType) : Option String :=
  (i.entities.find? fun e => e.type = type).map EntityRef.value

/-- The inputs of the guard. -/
def preAiGuardInputs (aiCallsThisTick : Nat) : PreAiGuardInputs :=
  let detector := firstPart incident.incidentId
  let allowlisted := (incident.firstEntity .ip).any answers.ipAllowlisted ||
    (incident.firstEntity .user).any answers.userAllowlisted
  let asked := aiEnabled && !allowlisted
  { isPipelineTest := incident.tags.contains "pipeline-test"
    isAdvisoryDetector := detector = "neural_anomaly" || detector = "host_drift"
    aiEnabled := aiEnabled
    isAllowlisted := aiEnabled && allowlisted
    passesAiGate := if asked then answers.shouldInvokeAi else true
    belowSeverityThreshold := asked && answers.belowSeverityThreshold
    inDecisionCooldown := asked && answers.shouldInvokeAi && answers.inDecisionCooldown
    aiCallsThisTick := aiCallsThisTick
    maxAiCallsPerTick := cfg.maxAiCallsPerTick
    skipFase3 := matchesSkipFase3 incident.incidentId cfg.detectorsSkipFase3
    alreadyActivelyBlocked := isBlockMitigatedDetector incident.incidentId &&
      (incident.firstEntity .ip).any answers.ipActivelyBlocked }

/-- What the guard answers, if it is asked: the first decision of an incident stands. -/
def preAiGuard (aiCallsThisTick : Nat) : Option PreAiGuardDecision :=
  if answers.hasDecision then none
  else some (decidePreAiGuard (preAiGuardInputs cfg answers aiEnabled incident aiCallsThisTick))

/-- What the flow makes of an answer. -/
def PreAiGuardDecision.flow : PreAiGuardDecision → PreAiFlowDecision
  | .pipelineTestHandled => .pipelineTestHandled
  | .skipAdvisoryDetector => .skipHandled
  | .skipAiDisabled => .skipHandled
  | .skipAllowlisted => .skipAllowlisted
  | .skipBelowSeverity => .skipBelowSeverity
  | .skipPrivateOrBlocked => .skipHandled
  | .skipAlreadyBlocked => .skipHandled
  | .skipDecisionCooldown => .skipHandled
  | .skipAiCallBudget => .skipHandled
  | .proceed => .proceed

def evaluatePreAiFlow (aiCallsThisTick : Nat) : PreAiFlowDecision :=
  match preAiGuard cfg answers aiEnabled incident aiCallsThisTick with
  | none => .skipHandled
  | some decision => decision.flow

end Flow

/-! ## The budget -/

variable (inputs : PreAiGuardInputs)

/-- The gates let everything pass, or they give an answer of their own. -/
theorem PreAiGuardInputs.gates_cases :
    (∀ rest, inputs.gates rest = rest) ∨
      ∃ own, own ≠ .proceed ∧ own ≠ .skipAiCallBudget ∧ ∀ rest, inputs.gates rest = own := by
  simp only [gates]
  cases inputs.isPipelineTest with
  | true => exact .inr ⟨.pipelineTestHandled, by decide, by decide, fun _ => rfl⟩
  | false =>
  cases inputs.isAdvisoryDetector with
  | true => exact .inr ⟨.skipAdvisoryDetector, by decide, by decide, fun _ => rfl⟩
  | false =>
  cases inputs.aiEnabled with
  | false => exact .inr ⟨.skipAiDisabled, by decide, by decide, fun _ => rfl⟩
  | true =>
  cases inputs.isAllowlisted with
  | true => exact .inr ⟨.skipAllowlisted, by decide, by decide, fun _ => rfl⟩
  | false =>
  cases inputs.alreadyActivelyBlocked with
  | true => exact .inr ⟨.skipAlreadyBlocked, by decide, by decide, fun _ => rfl⟩
  | false =>
  cases !inputs.skipFase3 && !inputs.passesAiGate with
  | true =>
    cases inputs.belowSeverityThreshold with
    | true => exact .inr ⟨.skipBelowSeverity, by decide, by decide, fun _ => rfl⟩
    | false => exact .inr ⟨.skipPrivateOrBlocked, by decide, by decide, fun _ => rfl⟩
  | false =>
  cases !inputs.skipFase3 && inputs.inDecisionCooldown with
  | true => exact .inr ⟨.skipDecisionCooldown, by decide, by decide, fun _ => rfl⟩
  | false => exact .inl fun _ => rfl

/-- An input that passes the gates is deferred or proceeds, by the budget. -/
theorem decidePreAiGuard_iff :
    (decidePreAiGuard inputs = .skipAiCallBudget ↔
        inputs.gates .proceed = .proceed ∧ inputs.budgetSpent = true) ∧
      (decidePreAiGuard inputs = .proceed ↔
        inputs.gates .proceed = .proceed ∧ ¬ inputs.budgetSpent = true) := by
  rw [decidePreAiGuard]
  rcases inputs.gates_cases with hpass | ⟨own, hproceed, hbudget, hown⟩
  · rw [hpass, hpass]
    cases inputs.budgetSpent <;> simp
  · rw [hown, hown]
    exact ⟨iff_of_false hbudget fun h => hproceed h.1, iff_of_false hproceed fun h => hproceed h.1⟩

theorem PreAiGuardDecision.flow_eq_proceed (d : PreAiGuardDecision) :
    d.flow = .proceed ↔ d = .proceed := by
  cases d <;> simp [flow]

end Innerwarden

import Innerwarden.Correlation.Engine
import Innerwarden.Response.BlockRuns

/-!
# The callers of the block decision

Three callers decide to block without asking a model: the rules of
`crates/agent/src/incident_auto_rules.rs`, and in `crates/agent/src/correlation_response.rs`
the completed chains and the addresses that several detectors have reported.  Each has guards,
executes the decision, and records what has become of it by the text of the answer: all that
does not begin with `skipped` counts as a block.

`Honest` says that the records tell the truth, and `honest_run_iff` when they do: `Conclusive`
excludes the three ends of a decision that its answer does not tell apart from a block.

Each address of `check_multi_technique` is a call of its own here.  Left out: the audit entry,
the Telegram report and the score of a reputation.
-/

namespace Innerwarden

open Text

/-! ## What a caller reads and records -/

/-- The places at which a caller reads the clock. -/
inductive CallerRead where
  | cooldownGate
  | incident
  | ingest
  | reputation
  | cooldownSet
deriving DecidableEq

/-- What the outside answers to a caller. -/
structure CallerWorld where
  /-- The answers during the execution of the decision. -/
  block : World
  clock : CallerRead → DateTime
  /-- The name of the host, from the environment or its file. -/
  hostname : String
  /-- `confidence >= 0.90`. -/
  isHighConfidence : UInt32 → Bool
  /-- The confidence and the reason after `apply_kg_decide_modifier`. -/
  kgModifier : Incident → AiDecision → UInt32 × String

/-- What a call comes to: the state, whether the incident is reported as handled, and the
executions with their targets. -/
structure CallerRun where
  state : AgentState
  handled : Bool := false
  executions : List (String × Execution) := []

def LocalIpReputation.new (now : DateTime) : LocalIpReputation := ⟨0, 0, now, now⟩

def LocalIpReputation.recordIncident (rep : LocalIpReputation) (now : DateTime) :
    LocalIpReputation :=
  { rep with totalIncidents := rep.totalIncidents + 1, lastSeen := now }

def LocalIpReputation.recordBlock (rep : LocalIpReputation) (now : DateTime) : LocalIpReputation :=
  { rep with totalBlocks := rep.totalBlocks + 1, lastSeen := now }

def AgentState.totalBlocks (s : AgentState) (ip : String) : Nat :=
  ((s.ipReputations.lookup ip).map LocalIpReputation.totalBlocks).getD 0

/-- The reputation of an address after a decision. -/
def AgentState.updateReputation (s : AgentState) (ip : String) (now : DateTime)
    (countIncident blocked : Bool) : AgentState :=
  let rep := (s.ipReputations.lookup ip).getD (.new now)
  let rep := if countIncident then rep.recordIncident now else rep
  let rep := if blocked then rep.recordBlock now else rep
  { s with ipReputations := s.ipReputations.insert ip rep }

/-- `get_cooldown(..).is_some_and(|ts| ts > cutoff)`. -/
def AgentState.inCooldown (s : AgentState) (key : String) (cutoff : DateTime) : Bool :=
  (s.cooldowns.lookup key).any fun ts => decide (cutoff < ts)

/-- `set_cooldown`: instants are kept in milliseconds. -/
def AgentState.setCooldown (s : AgentState) (key : String) (ts : DateTime) : AgentState :=
  { s with cooldowns := s.cooldowns.insert key (ts / 1000000 * 1000000) }

/-- `ingest_decision` on a block. -/
def AgentState.ingestDecision (s : AgentState) (incidentId ip : String) (confidence : UInt32)
    (reason : String) (autoExecuted : Bool) (ts : DateTime) : AgentState :=
  { s with
      graphDecisions := s.graphDecisions ++
        [⟨incidentId, "block_ip", some ip, confidence, reason, autoExecuted, ts⟩] }

def isInternalIp (ip : String) : Bool :=
  match IpAddr.fromStr ip with
  | none => false
  | some (.v4 bits) =>
    match IpAddr.octets bits with
    | a :: b :: _ =>
      a = 10 || (a = 172 && 16 ≤ b && b ≤ 31) || (a = 192 && b = 168) || a = 127 ||
        (a = 169 && b = 254)
    | _ => false
  | some (.v6 bits) =>
    bits = 1#128 || bits >>> 118 = 0x3fa#128 || bits >>> 121 = 0x7e#128

/-- The operator's allowlist, as configured and as extended at run time. -/
def AgentState.trusts (s : AgentState) (cfg : AgentConfig) (ip : String) : Bool :=
  isIpAllowlisted ip cfg.trustedIps || isIpAllowlisted ip s.dynamicTrustedIps

/-! ## The decision to block -/

/-- A decision to block that has passed the guards of a caller. -/
structure BlockAttempt where
  ip : String
  incident : Incident
  /-- The bit pattern of an `f32`. -/
  confidence : UInt32
  reason : String
  estimatedThreat : String
  cooldownKey : String

def AgentConfig.blockSkillId (cfg : AgentConfig) : String := "block-ip-" ++ cfg.blockBackend

def BlockAttempt.decision (a : BlockAttempt) (cfg : AgentConfig) : AiDecision :=
  ⟨.blockIp a.ip cfg.blockSkillId, a.confidence, true, a.reason, [], a.estimatedThreat⟩

def BlockAttempt.applyKgDecideModifier (a : BlockAttempt) (o : CallerWorld) (cfg : AgentConfig) :
    BlockAttempt :=
  { a with
      confidence := (o.kgModifier a.incident (a.decision cfg)).1
      reason := (o.kgModifier a.incident (a.decision cfg)).2 }

def Execution.readsAsBlock (e : Execution) : Bool := !startsWith e.message "skipped"

section Callers

variable (o : CallerWorld) (cfg : AgentConfig) (dataDir : String)

/-- The execution of a decision.  It is one to block, so the other actions play no part. -/
def BlockAttempt.execute (a : BlockAttempt) (s : AgentState) : Execution :=
  executeDecision o.block cfg dataDir (a.decision cfg) a.incident
    (fun _ => { message := "", cloudflarePushed := false, state := s }) s

/-- The execution with the records of the first two callers. -/
def BlockAttempt.runAndIngest (a : BlockAttempt) (s : AgentState) : CallerRun :=
  let e := a.execute o cfg dataDir s
  { state := ((e.state.ingestDecision a.incident.incidentId a.ip a.confidence a.reason
        e.readsAsBlock (o.clock .ingest)).updateReputation a.ip
        (o.clock .reputation) true e.readsAsBlock).setCooldown a.cooldownKey (o.clock .cooldownSet)
    executions := [(a.ip, e)] }

/-! ### Rules without a model -/

/-- A built-in rule of response. -/
structure AutoRule where
  detector : String
  durationLabel : String

def autoRules : List AutoRule :=
  [⟨"ssh_bruteforce", "24h"⟩, ⟨"credential_stuffing", "24h"⟩, ⟨"port_scan", "12h"⟩,
   ⟨"web_scan", "12h"⟩]

def matchingAutoRule (detector : String) : Option AutoRule :=
  autoRules.find? fun rule => rule.detector = detector

def primaryIncidentIp (incident : Incident) : Option String :=
  (incident.entities.find? fun e => e.type = .ip).map (·.value)

def decisionCooldownSecs : Int := 3600

/-- The guards of `try_handle_auto_rule` and the decision after them. -/
def autoRuleAttempt (incident : Incident) (s : AgentState) : Option BlockAttempt :=
  if cfg.responderEnabled = false then none
  else if cfg.autoRulesEnabled = false then none
  else
    let detector := incidentDetector incident.incidentId
    match matchingAutoRule detector, primaryIncidentIp incident with
    | some rule, some ip =>
      let key := "auto-rule:block_ip:" ++ ip
      if isInternalIp ip then none
      else if s.trusts cfg ip then none
      else if ip ∈ s.operatorIps then none
      else if s.inCooldown key (o.clock .cooldownGate - seconds decisionCooldownSecs) then none
      else
        some {
          ip := ip
          incident := incident
          confidence := 0x3f733333
          reason := "Auto-blocked: " ++ detector ++ " from " ++ ip ++
            " (rule-based, no AI needed, block " ++ rule.durationLabel ++ ")"
          estimatedThreat := "high"
          cooldownKey := key }
    | _, _ => none

def tryHandleAutoRule (incident : Incident) (s : AgentState) : CallerRun :=
  match autoRuleAttempt o cfg incident s with
  | none => { state := s }
  | some a =>
    { a.runAndIngest o cfg dataDir s with
        handled := (a.execute o cfg dataDir s).readsAsBlock }

/-! ### Completed chains -/

open Correlation (AttackChain Layer)

def layerName : Layer → String
  | .firmware => "Firmware"
  | .hypervisor => "Hypervisor"
  | .kernel => "Kernel"
  | .userspace => "Userspace"
  | .network => "Network"
  | .honeypot => "Honeypot"

def chainPrimaryIp (chain : AttackChain) : Option String :=
  ((chain.events.flatMap (·.entities)).find? fun e => e.type = .ip).map (·.value)

/-- The incident that stands for a chain. -/
def chainIncident (chain : AttackChain) (ip : String) : Incident where
  ts := chain.lastTs
  host := o.hostname
  incidentId := "correlation:" ++ chain.chainId ++ ":" ++ ip
  severity := chain.severity
  title := "Attack chain: " ++ chain.ruleName
  summary := chain.summary
  evidence := .obj [("chain_id", .str chain.chainId),
    ("layers", .arr (chain.layersInvolved.map fun l => .str (layerName l))),
    ("rule_id", .str chain.ruleId), ("stages_matched", .int chain.stagesMatched),
    ("stages_total", .int chain.stagesTotal)]
  recommendedChecks := []
  tags := ["correlation", chain.ruleId]
  entities := [⟨.ip, ip⟩]

/-- The reason given for a chain. -/
def chainReason (chain : AttackChain) : String :=
  let label := if o.isHighConfidence chain.confidence then "48h" else "24h"
  "Correlation chain: " ++ chain.ruleName ++ " (" ++ toString chain.stagesMatched ++ " stages, " ++
    o.block.formatPercent chain.confidence ++ "% confidence, block " ++ label ++ ")"

/-- The guards of `handle_completed_chain` behind the safelist, and the decision. -/
def chainAttempt (chain : AttackChain) (ip : String) (s : AgentState) : Option BlockAttempt :=
  let key := "chain:" ++ chain.ruleId ++ ":" ++ ip
  if s.trusts cfg ip then none
  else if ip ∈ s.operatorIps then none
  else if s.inCooldown key (o.clock .cooldownGate - seconds 600) then none
  else
    let a : BlockAttempt :=
      { ip := ip
        incident := chainIncident o chain ip
        confidence := chain.confidence
        reason := chainReason o chain
        estimatedThreat := chain.severity.text
        cooldownKey := key }
    some (a.applyKgDecideModifier o cfg)

def handleCompletedChain (chain : AttackChain) (s : AgentState) : CallerRun :=
  match chainPrimaryIp chain with
  | none => { state := s }
  | some ip =>
    if isInternalIp ip then { state := s }
    else if (safelistLabel ip).isSome then
      { state := { s with ipReputations := s.ipReputations.erase ip } }
    else
      match chainAttempt o cfg chain ip s with
      | none => { state := s }
      | some a => a.runAndIngest o cfg dataDir s

/-! ### Several detectors -/

/-- The incident that stands for an address several detectors have reported. -/
def multiTechniqueIncident (ip : String) (detectors : List String) : Incident where
  ts := o.clock .incident
  host := o.hostname
  incidentId := "multi-technique:" ++ ip ++ ":" ++ toString (o.clock .incident / 1000000000)
  severity := .high
  title := "Multi-technique attack from " ++ ip
  summary := "IP " ++ ip ++ " triggered " ++ toString detectors.length ++ " distinct detectors: " ++
    ", ".intercalate detectors ++ ". Escalating."
  evidence := .obj [("detectors", .arr (detectors.map .str))]
  recommendedChecks := []
  tags := ["multi-technique"]
  entities := [⟨.ip, ip⟩]

/-- The guards of `check_multi_technique` for an address, and the decision after them. -/
def multiTechniqueAttempt (ip : String) (detectors : List String) (s : AgentState) :
    Option BlockAttempt :=
  let key := "multi-technique:" ++ ip
  if isSingleIpBlockTarget ip = false then none
  else if s.inCooldown key (o.clock .cooldownGate - seconds 3600) then none
  else if isInternalIp ip then none
  else if s.trusts cfg ip then none
  else if ip ∈ s.operatorIps then none
  else
    let a : BlockAttempt :=
      { ip := ip
        incident := multiTechniqueIncident o ip detectors
        confidence := 0x3f6b851f
        reason := "Multi-technique: " ++ ip ++ " triggered " ++ toString detectors.length ++
          " detectors (" ++ ", ".intercalate detectors ++ ") — block 48h"
        estimatedThreat := "high"
        cooldownKey := key }
    some (a.applyKgDecideModifier o cfg)

/-- One round of the loop of `check_multi_technique`.  It does not ingest the decision and
counts no incident. -/
def checkMultiTechniqueRound (ip : String) (detectors : List String) (s : AgentState) : CallerRun :=
  match multiTechniqueAttempt o cfg ip detectors s with
  | none => { state := s }
  | some a =>
    let e := a.execute o cfg dataDir s
    { state := (e.state.updateReputation a.ip (o.clock .reputation) false
        e.readsAsBlock).setCooldown a.cooldownKey (o.clock .cooldownSet)
      executions := [(a.ip, e)] }

/-! ### Calls -/

/-- A call of one of the three. -/
inductive BlockCall where
  | autoRule (incident : Incident)
  | completedChain (chain : AttackChain)
  /-- A round for one address.  The whole loop is a run of these. -/
  | multiTechnique (ip : String) (detectors : List String)

/-- The decision to block a call makes, if it makes one. -/
def BlockCall.attempt (call : BlockCall) (s : AgentState) : Option BlockAttempt :=
  match call with
  | .autoRule incident => autoRuleAttempt o cfg incident s
  | .completedChain chain =>
    match chainPrimaryIp chain with
    | none => none
    | some ip =>
      if isInternalIp ip then none
      else if (safelistLabel ip).isSome then none
      else chainAttempt o cfg chain ip s
  | .multiTechnique ip detectors => multiTechniqueAttempt o cfg ip detectors s

/-- What a call does. -/
def BlockCall.run (call : BlockCall) (s : AgentState) : CallerRun :=
  match call with
  | .autoRule incident => tryHandleAutoRule o cfg dataDir incident s
  | .completedChain chain => handleCompletedChain o cfg dataDir chain s
  | .multiTechnique ip detectors => checkMultiTechniqueRound o cfg dataDir ip detectors s

end Callers

/-- The agent as its callers see it.  Each call has its own answers from the outside. -/
def blockCalls (cfg : AgentConfig) (dataDir : String) (init : AgentState) :
    StateMachine AgentState (CallerWorld × BlockCall) CallerRun where
  init := init
  step := fun s (o, call) =>
    let run := call.run o cfg dataDir s
    (run.state, run)

/-! ## Honest records -/

/-- A layer has been applied, or a live rule verified. -/
def Execution.Enforced (e : Execution) : Prop := e.layersApplied ≠ [] ∨ e.liveRule = true

/-- The second result says whether a rule has been pushed to Cloudflare. -/
def Execution.PushReported (e : Execution) : Prop :=
  e.cloudflarePushed = true ↔ ∃ target ruleId, .cloudflareRulePushed target ruleId ∈ e.effects

/-- A block is counted, ingested as executed or reported as handled only if an execution of
the call has enforced it, and each execution reports its push. -/
structure Honest (s : AgentState) (run : CallerRun) : Prop where
  counted : ∀ ip, s.totalBlocks ip < run.state.totalBlocks ip →
    ∃ e, (ip, e) ∈ run.executions ∧ e.Enforced
  ingested : ∀ d ∈ run.state.graphDecisions.drop s.graphDecisions.length, d.autoExecuted = true →
    ∃ ip e, d.targetIp = some ip ∧ (ip, e) ∈ run.executions ∧ e.Enforced
  handled : run.handled = true → ∃ ip e, (ip, e) ∈ run.executions ∧ e.Enforced
  pushReported : ∀ ip e, (ip, e) ∈ run.executions → e.PushReported

/-- The decision does not end in one of the three ways whose answer misleads a caller: the
downgrade for a managed agent, the rate limit, and the rule that is live already. -/
structure Conclusive (w : World) (cfg : AgentConfig) (ip : String) (incident : Incident)
    (s : AgentState) : Prop where
  notManaged : managedAgentDowngrade w incident s = none
  notRateLimited : ¬ BreakerTripped w cfg s → eligibility w ip s ≠ .error .rateLimited
  notLive : ¬ BreakerTripped w cfg s → eligibility w ip s = .ok () →
    ¬ LiveBlock w ip cfg.blockSkillId s

/-- An answer that tells a block from its absence. -/
structure Execution.Truthful (e : Execution) : Prop where
  block : e.readsAsBlock = true → e.Enforced
  push : e.PushReported

section Truthful

variable {w : World} {cfg : AgentConfig} {ip dataDir : String} {decision : AiDecision}
  {incident : Incident} {s : AgentState} {e : Execution}

theorem startsWith_of_tripped {reason : String}
    (h : (consultCircuitBreaker w cfg s).1 = some reason) : startsWith reason "skipped" = true := by
  unfold consultCircuitBreaker at h
  split at h
  · cases h
  · simp only at h
    split at h
    · cases h
    · rw [← Option.some.inj h, String.append_assoc, startsWith_append_of_le (by decide)]
      decide

/-- Of the reasons only the rate limit does not say that the decision was skipped. -/
theorem startsWith_ineligible (ip : String) (reason : Ineligible) :
    startsWith (reason.text ip) "skipped" = !decide (reason = .rateLimited) := by
  cases reason with
  | emptyIp =>
    show startsWith "skipped: block decision has empty IP" "skipped" = true
    decide
  | invalidIp | operatorSession =>
    show startsWith ("skipped: " ++ ip ++ _) "skipped" = true
    rw [String.append_assoc, startsWith_append_of_le (by decide)]
    decide
  | cloudProvider provider =>
    show startsWith ("skipped: " ++ ip ++ " is in cloud provider safelist (" ++ provider ++ ")")
      "skipped" = true
    rw [String.append_assoc, String.append_assoc, String.append_assoc,
      startsWith_append_of_le (by decide)]
    decide
  | rateLimited =>
    show startsWith ("rate-limited: " ++ ip ++ " (>" ++ toString maxBlocksPerMinute ++
      " blocks/min)") "skipped" = false
    rw [String.append_assoc, String.append_assoc, String.append_assoc,
      startsWith_append_of_le (by decide)]
    decide

theorem truthful_iff_of_bare (heffects : e.effects = []) (hpush : e.cloudflarePushed = false)
    (hlayers : e.layersApplied = []) (hlive : e.liveRule = false) :
    e.Truthful ↔ e.readsAsBlock = false := by
  have henforced : ¬ e.Enforced := by simp [Execution.Enforced, hlayers, hlive]
  constructor
  · intro h
    cases hreads : e.readsAsBlock with
    | false => rfl
    | true => exact absurd (h.block hreads) henforced
  · intro h
    exact ⟨by simp [h], by simp [Execution.PushReported, heffects, hpush]⟩

theorem truthful_conclude (ttlSecs : Int) {enforced : LayerRun}
    (hlayers : ∀ e ∈ enforced.effects, e.IsLayer) :
    (conclude w cfg ip decision incident ttlSecs enforced).Truthful := by
  by_cases hnil : enforced.layers = []
  · rw [conclude_of_nil hnil]
    refine ⟨fun hreads => ?_, ?_⟩
    · rw [Execution.readsAsBlock, startsWith_append_of_le (by decide)] at hreads
      exact absurd hreads (by decide)
    · simp only [Execution.PushReported, Bool.false_eq_true, false_iff, not_exists]
      exact fun target ruleId hmem => hlayers _ hmem
  · rw [conclude_of_ne_nil hnil]
    refine ⟨fun _ => .inl hnil, ?_⟩
    rw [Execution.PushReported, afterBlock_cloudflarePushed,
      cloudflareRulePushed_mem_afterBlock_iff _ _ _ _ _ _ hlayers]

theorem BlockRun.truthful_iff
    (hrun : BlockRun w cfg ip cfg.blockSkillId dataDir decision incident s e) :
    e.Truthful ↔ Conclusive w cfg ip incident s := by
  cases hrun with
  | downgraded agentId name hmanaged =>
    rw [truthful_iff_of_bare rfl rfl rfl rfl]
    refine iff_of_false ?_ fun h => ?_
    · simp only [Execution.readsAsBlock, String.append_assoc]
      rw [startsWith_append_of_le (by decide)]
      decide
    · simp [h.notManaged] at hmanaged
  | tripped reason hmanaged htripped =>
    rw [truthful_iff_of_bare rfl rfl rfl rfl]
    have hopen : BreakerTripped w cfg s := by
      by_contra hnot
      simp [consultCircuitBreaker_eq_none_iff.2 hnot] at htripped
    refine iff_of_true ?_ ⟨hmanaged, fun h => absurd hopen h, fun h => absurd hopen h⟩
    simp [Execution.readsAsBlock, startsWith_of_tripped htripped]
  | ineligible reason hmanaged htripped helig =>
    rw [truthful_iff_of_bare rfl rfl rfl rfl]
    have hclosed := consultCircuitBreaker_eq_none_iff.1 htripped
    have hreads : startsWith (reason.text ip) "skipped" = true ↔ reason ≠ .rateLimited := by
      simp [startsWith_ineligible]
    simp only [Execution.readsAsBlock, Bool.not_eq_false', hreads]
    constructor
    · intro hne
      exact ⟨hmanaged, fun _ h => hne (Except.error.inj (helig.symm.trans h)),
        fun _ h => by simp [helig] at h⟩
    · rintro h rfl
      exact h.notRateLimited hclosed helig
  | live hmanaged htripped helig hlive =>
    have hclosed := consultCircuitBreaker_eq_none_iff.1 htripped
    refine iff_of_false ?_ fun h => h.notLive hclosed helig hlive
    intro h
    simpa using h.push.1 rfl
  | layers hpasses =>
    refine iff_of_true ?_ ⟨hpasses.notManaged, ?_, ?_⟩
    · exact truthful_conclude _ fun e => enforce_isLayer_of_mem
    · simp [hpasses.eligible]
    · exact fun _ _ => hpasses.notLive

theorem isAddressChar_of_isSingleIpBlockTarget (h : isSingleIpBlockTarget ip = true) :
    ∀ c ∈ ip.toList, IpAddr.IsAddressChar c := by
  unfold isSingleIpBlockTarget at h
  split at h
  · cases h
  · next hslash =>
    have hnone : splitOnce '/' ip = none :=
      splitOnce_eq_none (notMem_of_contains_singleton (by simpa using hslash))
    unfold isValidBlockTarget at h
    split at h
    · cases h
    · rw [hnone] at h
      obtain ⟨a, ha⟩ := Option.isSome_iff_exists.1 h
      exact IpAddr.isAddressChar_of_fromStr ha

theorem not_contains_rateLimited (h : isSingleIpBlockTarget ip = true) :
    contains (Ineligible.text ip .rateLimited) "cloud provider safelist" = false := by
  have hip : 'v' ∉ ip.toList := by
    intro hv
    exact absurd (isAddressChar_of_isSingleIpBlockTarget h 'v' hv) (by decide)
  have htext : 'v' ∉ (Ineligible.text ip .rateLimited).toList := by
    show 'v' ∉ ("rate-limited: " ++ ip ++ " (>" ++ toString maxBlocksPerMinute ++
      " blocks/min)").toList
    simp only [String.toList_append, List.mem_append, hip, or_false, not_or]
    decide
  exact contains_eq_false_of_notMem (by decide) htext

/-- An execution leaves the ingested decisions and the reputations, or it says that it was
skipped and takes the reputation of its target away. -/
theorem BlockRun.records (hsingle : isSingleIpBlockTarget ip = true)
    (hrun : BlockRun w cfg ip cfg.blockSkillId dataDir decision incident s e) :
    e.state.graphDecisions = s.graphDecisions ∧
      (e.state.ipReputations = s.ipReputations ∨
        e.readsAsBlock = false ∧ e.state.ipReputations = s.ipReputations.erase ip) := by
  obtain ⟨store, hentering⟩ := entering_eq w cfg s
  cases hrun with
  | downgraded agentId name hmanaged => exact ⟨rfl, .inl rfl⟩
  | tripped reason hmanaged htripped | live hmanaged htripped helig hlive =>
    rw [hentering]
    exact ⟨rfl, .inl rfl⟩
  | ineligible reason hmanaged htripped helig =>
    rw [hentering]
    by_cases hreason : reason = .rateLimited
    · subst hreason
      rw [not_contains_rateLimited hsingle]
      exact ⟨rfl, .inl rfl⟩
    · split
      · refine ⟨rfl, .inr ⟨?_, rfl⟩⟩
        simp [Execution.readsAsBlock, startsWith_ineligible, hreason]
      · exact ⟨rfl, .inl rfl⟩
  | layers hpasses =>
    rw [applyLayers, conclude_frame.1, conclude_frame.2.1, enforce_sameRecords.ipReputations,
      enforce_sameRecords.graphDecisions, hentering]
    exact ⟨rfl, .inl rfl⟩

end Truthful

/-! ## One call -/

section Calls

variable (o : CallerWorld) (cfg : AgentConfig) (dataDir : String) (a : BlockAttempt)
  (s : AgentState)

theorem BlockAttempt.execute_of_not_single (h : isSingleIpBlockTarget a.ip = false) :
    (a.execute o cfg dataDir s).Truthful ∧ (a.execute o cfg dataDir s).state = s := by
  simp only [BlockAttempt.execute, executeDecision, BlockAttempt.decision, h, if_true]
  refine ⟨?_, trivial⟩
  rw [truthful_iff_of_bare rfl rfl rfl rfl]
  simp only [Execution.readsAsBlock]
  rw [String.append_assoc, startsWith_append_of_le (by decide)]
  decide

/-- Any other attempt is a run of the block decision. -/
theorem BlockAttempt.execute_run (h : isSingleIpBlockTarget a.ip = true) :
    BlockRun o.block cfg a.ip cfg.blockSkillId dataDir (a.decision cfg) a.incident s
      (a.execute o cfg dataDir s) := by
  have heq : a.execute o cfg dataDir s = executeBlockIpDecision o.block cfg a.ip cfg.blockSkillId
      dataDir (a.decision cfg) a.incident s := by
    simp [BlockAttempt.execute, executeDecision, BlockAttempt.decision, h]
  rw [heq]
  exact executeBlockIpDecision_run ..

/-- The answer to an attempt is truthful if and only if the decision is conclusive. -/
theorem BlockAttempt.truthful_iff :
    (a.execute o cfg dataDir s).Truthful ↔
      (isSingleIpBlockTarget a.ip = true → Conclusive o.block cfg a.ip a.incident s) := by
  cases hsingle : isSingleIpBlockTarget a.ip with
  | false => simp [(a.execute_of_not_single o cfg dataDir s hsingle).1]
  | true => simp [(a.execute_run o cfg dataDir s hsingle).truthful_iff]

theorem BlockAttempt.execute_records :
    (a.execute o cfg dataDir s).state.graphDecisions = s.graphDecisions ∧
      ((a.execute o cfg dataDir s).state.ipReputations = s.ipReputations ∨
        (a.execute o cfg dataDir s).readsAsBlock = false ∧
          (a.execute o cfg dataDir s).state.ipReputations = s.ipReputations.erase a.ip) := by
  cases hsingle : isSingleIpBlockTarget a.ip with
  | false =>
    rw [(a.execute_of_not_single o cfg dataDir s hsingle).2]
    exact ⟨rfl, .inl rfl⟩
  | true => exact (a.execute_run o cfg dataDir s hsingle).records hsingle

variable {o cfg dataDir a s}

theorem totalBlocks_erase_le {s' : AgentState} {ip : String}
    (h : s'.ipReputations = s.ipReputations.erase ip) (x : String) :
    s'.totalBlocks x ≤ s.totalBlocks x := by
  rw [AgentState.totalBlocks, h]
  by_cases hx : x = ip
  · subst hx
    simp
  · simp [AgentState.totalBlocks, Finmap.lookup_erase_ne hx]

@[simp] theorem totalBlocks_setCooldown (key : String) (ts : DateTime) (x : String) :
    (s.setCooldown key ts).totalBlocks x = s.totalBlocks x := rfl

@[simp] theorem totalBlocks_ingestDecision (incidentId ip : String) (confidence : UInt32)
    (reason : String) (autoExecuted : Bool) (ts : DateTime) (x : String) :
    (s.ingestDecision incidentId ip confidence reason autoExecuted ts).totalBlocks x =
      s.totalBlocks x := rfl

theorem totalBlocks_updateReputation (ip : String) (now : DateTime) (countIncident blocked : Bool)
    (x : String) :
    (s.updateReputation ip now countIncident blocked).totalBlocks x =
      if x = ip ∧ blocked = true then s.totalBlocks x + 1 else s.totalBlocks x := by
  simp only [AgentState.totalBlocks, AgentState.updateReputation]
  by_cases hx : x = ip
  · subst hx
    cases hrep : s.ipReputations.lookup x <;> cases countIncident <;> cases blocked <;>
      simp [LocalIpReputation.new, LocalIpReputation.recordIncident, LocalIpReputation.recordBlock]
  · simp [hx, Finmap.lookup_insert_of_ne]

/-- A call with one execution whose records follow the answer is honest if and only if the
answer is truthful. -/
theorem honest_iff_truthful {run : CallerRun}
    (hexec : run.executions = [(a.ip, a.execute o cfg dataDir s)])
    (hcount : ∀ x, run.state.totalBlocks x =
      if x = a.ip ∧ (a.execute o cfg dataDir s).readsAsBlock = true then
        (a.execute o cfg dataDir s).state.totalBlocks x + 1
      else (a.execute o cfg dataDir s).state.totalBlocks x)
    (hingest : ∀ d ∈ run.state.graphDecisions.drop s.graphDecisions.length,
      d.targetIp = some a.ip ∧ d.autoExecuted = (a.execute o cfg dataDir s).readsAsBlock)
    (hhandled : run.handled = true → (a.execute o cfg dataDir s).readsAsBlock = true) :
    Honest s run ↔ (a.execute o cfg dataDir s).Truthful := by
  have hrep := (a.execute_records o cfg dataDir s).2
  generalize a.execute o cfg dataDir s = e at *
  constructor
  · intro h
    refine ⟨fun hreads => ?_, h.pushReported a.ip e (by simp [hexec])⟩
    have hsame : e.state.ipReputations = s.ipReputations := by simpa [hreads] using hrep
    have hlt : s.totalBlocks a.ip < run.state.totalBlocks a.ip := by
      rw [hcount]
      simp [hreads, AgentState.totalBlocks, hsame]
    obtain ⟨e', hmem, henforced⟩ := h.counted a.ip hlt
    simp only [hexec, List.mem_singleton, Prod.mk.injEq, true_and] at hmem
    exact hmem ▸ henforced
  · intro h
    have hmem : (a.ip, e) ∈ run.executions := by simp [hexec]
    have hle : ∀ x, e.state.totalBlocks x ≤ s.totalBlocks x := by
      intro x
      rcases hrep with hsame | ⟨-, herase⟩
      · simp [AgentState.totalBlocks, hsame]
      · exact totalBlocks_erase_le herase x
    refine ⟨?_, ?_, ?_, ?_⟩
    · intro x hlt
      rw [hcount] at hlt
      split at hlt
      · next hx => exact ⟨e, hx.1 ▸ hmem, h.block hx.2⟩
      · exact absurd hlt (Nat.not_lt.2 (hle x))
    · intro d hd hauto
      obtain ⟨htarget, hreads⟩ := hingest d hd
      exact ⟨a.ip, e, htarget, hmem, h.block (hreads ▸ hauto)⟩
    · exact fun hh => ⟨a.ip, e, hmem, h.block (hhandled hh)⟩
    · intro ip e' he'
      simp only [hexec, List.mem_singleton, Prod.mk.injEq] at he'
      exact he'.2 ▸ h.push

theorem honest_of_no_execution {run : CallerRun} (hexec : run.executions = [])
    (hhandled : run.handled = false) (hgraph : run.state.graphDecisions = s.graphDecisions)
    (hrep : run.state.ipReputations = s.ipReputations ∨
      ∃ ip, run.state.ipReputations = s.ipReputations.erase ip) : Honest s run := by
  refine ⟨?_, ?_, ?_, ?_⟩
  · intro x hlt
    rcases hrep with hsame | ⟨ip, herase⟩
    · simp [AgentState.totalBlocks, hsame] at hlt
    · exact absurd hlt (Nat.not_lt.2 (totalBlocks_erase_le herase x))
  · simp [hgraph]
  · simp [hhandled]
  · simp [hexec]

theorem honest_runAndIngest_iff {handled : Bool}
    (hhandled : handled = true → (a.execute o cfg dataDir s).readsAsBlock = true) :
    Honest s { a.runAndIngest o cfg dataDir s with handled := handled } ↔
      (isSingleIpBlockTarget a.ip = true → Conclusive o.block cfg a.ip a.incident s) := by
  rw [← a.truthful_iff o cfg dataDir s]
  have hgraph := (a.execute_records o cfg dataDir s).1
  refine honest_iff_truthful rfl (fun x => ?_) (fun d hd => ?_) hhandled
  · simp only [BlockAttempt.runAndIngest, totalBlocks_setCooldown, totalBlocks_updateReputation,
      totalBlocks_ingestDecision]
  · simp only [BlockAttempt.runAndIngest, AgentState.setCooldown, AgentState.updateReputation,
      AgentState.ingestDecision, hgraph, List.drop_left, List.mem_singleton] at hd
    rw [hd]
    exact ⟨rfl, rfl⟩

theorem honest_multiTechnique_iff (now ts : DateTime) :
    Honest s
        { state := ((a.execute o cfg dataDir s).state.updateReputation a.ip now false
            (a.execute o cfg dataDir s).readsAsBlock).setCooldown a.cooldownKey ts
          executions := [(a.ip, a.execute o cfg dataDir s)] } ↔
      (isSingleIpBlockTarget a.ip = true → Conclusive o.block cfg a.ip a.incident s) := by
  rw [← a.truthful_iff o cfg dataDir s]
  have hgraph := (a.execute_records o cfg dataDir s).1
  refine honest_iff_truthful rfl (fun x => ?_) (fun d hd => ?_) (fun h => by cases h)
  · simp only [totalBlocks_setCooldown, totalBlocks_updateReputation]
  · simp [AgentState.setCooldown, AgentState.updateReputation, hgraph] at hd

/-- A call is honest if and only if the decision it makes, if it makes one, is conclusive. -/
theorem BlockCall.honest_iff (call : BlockCall) :
    Honest s (call.run o cfg dataDir s) ↔
      ∀ a, call.attempt o cfg s = some a → isSingleIpBlockTarget a.ip = true →
        Conclusive o.block cfg a.ip a.incident s := by
  have hnothing : Honest s { state := s } := honest_of_no_execution rfl rfl rfl (.inl rfl)
  cases call with
  | autoRule incident =>
    simp only [BlockCall.run, BlockCall.attempt, tryHandleAutoRule]
    cases autoRuleAttempt o cfg incident s with
    | none => simpa using hnothing
    | some a =>
      simp only [Option.some.injEq, forall_eq']
      exact honest_runAndIngest_iff id
  | completedChain chain =>
    simp only [BlockCall.run, BlockCall.attempt, handleCompletedChain]
    cases chainPrimaryIp chain with
    | none => simpa using hnothing
    | some ip =>
      simp only
      split
      · simpa using hnothing
      · split
        · have herased :
              Honest s { state := { s with ipReputations := s.ipReputations.erase ip } } :=
            honest_of_no_execution rfl rfl rfl (.inr ⟨ip, rfl⟩)
          simpa using herased
        · cases chainAttempt o cfg chain ip s with
          | none => simpa using hnothing
          | some a =>
            simp only [Option.some.injEq, forall_eq']
            exact honest_runAndIngest_iff (fun h : false = true => by cases h)
  | multiTechnique ip detectors =>
    simp only [BlockCall.run, BlockCall.attempt, checkMultiTechniqueRound]
    cases multiTechniqueAttempt o cfg ip detectors s with
    | none => simpa using hnothing
    | some a =>
      simp only [Option.some.injEq, forall_eq']
      exact honest_multiTechnique_iff _ _

end Calls

/-! ## Runs -/

/-- Every call of a run is honest if and only if every decision to block that the run makes
is conclusive, in the state in which it is made. -/
theorem honest_run_iff (cfg : AgentConfig) (dataDir : String) (s : AgentState)
    (calls : List (CallerWorld × BlockCall)) :
    (blockCalls cfg dataDir s).Meets
        (fun s (o, call) => Honest s (call.run o cfg dataDir s)) s calls ↔
      (blockCalls cfg dataDir s).Meets
        (fun s (o, call) => ∀ a, call.attempt o cfg s = some a →
          isSingleIpBlockTarget a.ip = true → Conclusive o.block cfg a.ip a.incident s) s calls :=
  (blockCalls cfg dataDir s).meets_congr (fun _ (_, call) => call.honest_iff) s calls

/-! ### The rate limit -/

/-- An incident of a rule, from one address. -/
def bruteforceIncident : Incident :=
  { bareIncident with
      incidentId := "ssh_bruteforce:2001:db8::9"
      entities := [⟨.ip, "2001:db8::9"⟩] }

def busyState : AgentState := { freshState with recentBlocks := List.replicate 20 0 }

def readyCallerWorld : CallerWorld where
  block := readyWorld
  clock := fun _ => 0
  hostname := "host"
  isHighConfidence := fun _ => true
  kgModifier := fun _ d => (d.confidence, d.reason)

/-- The rule reports the incident as handled and counts a block, and nothing was blocked. -/
theorem rate_limited_counts_block :
    (tryHandleAutoRule readyCallerWorld trustingConfig "/var/lib/innerwarden" bruteforceIncident
        busyState).handled = true ∧
      ¬ Honest busyState (tryHandleAutoRule readyCallerWorld trustingConfig "/var/lib/innerwarden"
        bruteforceIncident busyState) := by
  refine ⟨by decide +kernel, ?_⟩
  have hip : (autoRuleAttempt readyCallerWorld trustingConfig bruteforceIncident busyState).map
      (·.ip) = some "2001:db8::9" := by decide +kernel
  obtain ⟨a, ha, hip⟩ := Option.map_eq_some_iff.1 hip
  intro h
  have hconclusive := (BlockCall.honest_iff (.autoRule bruteforceIncident)).1 h a ha
  rw [hip] at hconclusive
  exact (hconclusive (by decide +kernel)).notRateLimited
    (by simp [BreakerTripped, busyState, freshState]) (by decide +kernel)

end Innerwarden

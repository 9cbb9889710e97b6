import Innerwarden.Lib.FiniteMap
import Innerwarden.Response.BlockGate
import Innerwarden.Response.BlockTarget
import Innerwarden.Response.Lifecycle

/-!
# The block decision

`crates/agent/src/decision_block_ip.rs`: `executeBlockIpDecision` carries out a decision to
block an address.  It first passes a row of gates, each of which can end the call: a managed
agent as the source, the circuit breaker, the eligibility of the target, and a rule that is live
already.  What is left goes through the layers.

1. XDP, through the shield, or else through the skill `block-ip-xdp`.
2. The firewall skill of the configured backend.
3. When one of these has succeeded: the in-memory blocklist, the response lifecycle, the
   file of the sensor, the mesh, Cloudflare and the AbuseIPDB queue.

An execution is the answer to the caller, the state afterwards and the effects outside in their
order.  What the outside answers is a parameter, `World`.  `xdp_availability` is one number,
`xdpSkipUntil`.  Left out: copies in SQLite that only the next start reads, the score of a
reputation, and log lines.
-/

namespace Innerwarden

open Text

/-! ## Configuration and state -/

/-- The settings the block path reads. -/
structure AgentConfig where
  responderEnabled : Bool
  dryRun : Bool
  autoRulesEnabled : Bool
  blockBackend : String
  allowedSkills : List String
  maxBlocksPerHour : Nat
  circuitBreakerMode : String
  cloudflareEnabled : Bool
  cloudflareAutoPushBlocks : Bool
  abuseipdbEnabled : Bool
  abuseipdbReportBlocks : Bool
  trustedIps : List String

/-- What the agent remembers of an address. -/
structure LocalIpReputation where
  totalIncidents : Nat
  totalBlocks : Nat
  firstSeen : DateTime
  lastSeen : DateTime

/-- An address the shield blocks. -/
structure BlocklistEntry where
  ip : String
  addedAt : DateTime
  reason : String

/-- The shield and its block list. -/
structure XdpManager where
  bpfPath : String
  bpftoolBin : String
  blocklist : List BlocklistEntry
  dryRun : Bool

/-- The access to Cloudflare. -/
structure CloudflareClient where
  zoneId : String
  apiToken : String
  notesPrefix : String

/-- The entries of the circuit breaker in the key-value store, by hour. -/
structure BreakerStore where
  blockRate : FiniteMap String Nat
  trippedAt : FiniteMap String DateTime

/-- An entry of the AbuseIPDB queue. -/
structure AbuseReport where
  ip : String
  comment : String
  categories : String
  queuedAt : DateTime

/-- A decision ingested into the knowledge graph. -/
structure GraphDecision where
  incidentId : String
  actionType : String
  targetIp : Option String
  /-- The bit pattern of an `f32`. -/
  confidence : UInt32
  reason : String
  autoExecuted : Bool
  ts : DateTime

/-- The part of `AgentState` the block path uses. -/
structure AgentState where
  recentBlocks : List DateTime
  operatorIps : List String
  dynamicTrustedIps : List String
  ipReputations : FiniteMap String LocalIpReputation
  responseLifecycle : ResponseLifecycle
  blocklist : Finset String
  shield : Option XdpManager
  xdpBlockTimes : FiniteMap String (DateTime × Int)
  xdpSkipUntil : Int
  skillRegistry : SkillRegistry
  mesh : Bool
  cloudflareClient : Option CloudflareClient
  abuseipdbReportQueue : List AbuseReport
  sqliteStore : Option BreakerStore
  cooldowns : FiniteMap String DateTime
  graphDecisions : List GraphDecision

/-! ## Decisions -/

/-- What a decision asks for. -/
inductive AiAction where
  | blockIp (ip skillId : String)
  | monitor (ip : String)
  | honeypot (ip : String)
  | suspendUserSudo (user : String) (durationSecs : Nat)
  | killProcess (user : String) (durationSecs : Nat)
  | blockContainer (containerId action : String)
  | requestConfirmation (summary : String)
  | killChainResponse (reason : String)
  | ignore (reason : String)
  | dismiss (reason : String)

/-- A decision of the model or of a rule. -/
structure AiDecision where
  action : AiAction
  /-- The bit pattern of an `f32`. -/
  confidence : UInt32
  autoExecute : Bool
  reason : String
  alternatives : List String
  estimatedThreat : String

/-! ## The outside -/

/-- The places at which a call reads the clock. -/
inductive ClockRead where
  | start
  | breaker
  | xdpGate
  | xdpFailed
  | shieldEntry
  | xdpBlocked
  | register (backend : ResponseBackend)
  | report
deriving DecidableEq

/-- What the outside answers during a call. -/
structure World where
  clock : ClockRead → DateTime
  /-- The hour an instant is in, as the breaker writes it. -/
  formatHour : DateTime → String
  /-- The registry of agents is locked by another task. -/
  registryBusy : Bool
  /-- `verify_managed_agent_self_activity` on a process, its name, the path it has read and
  whether the destination is known to be bad. -/
  verifyManaged : Nat → String → Option String → Bool → Option (String × String)
  /-- How a command of the shield ends. -/
  bpftool : String → List String → CommandOutcome
  /-- The output of a status command under `sudo`, if it succeeds. -/
  firewallStatus : String → List String → Option String
  /-- The rule Cloudflare creates for an address with these notes. -/
  cloudflareApi : CloudflareClient → String → String → Option String
  /-- `{:.0}` of a confidence in percent. -/
  formatPercent : UInt32 → String

/-- An effect on the outside. -/
inductive BlockEffect where
  | skillExecuted (id : String) (ctx : SkillContext) (dryRun : Bool)
  | bpfEntryAdded (ip : String)
  | blockedIpAppended (ip : String)
  | meshBroadcast (ip detector : String) (confidence : UInt32) (evidence : String) (ttlSecs : Int)
  | cloudflareRulePushed (ip ruleId : String)

/-- What an execution comes to.  `layersApplied` are the enforcement layers that reported
success, and `liveRule` says that the firewall was found to have a rule. -/
structure Execution where
  message : String
  cloudflarePushed : Bool
  state : AgentState
  effects : List BlockEffect := []
  layersApplied : List String := []
  liveRule : Bool := false

/-! ## The gates -/

def maxBlocksPerMinute : Nat := 20

def isSingleIpBlockTarget (ip : String) : Bool :=
  if contains ip "/" then false else isValidBlockTarget ip

def incidentDetector (incidentId : String) : String := (split ':' incidentId).headD "unknown"

/-- `retain` on the blocks of the last minute. -/
def AgentState.pruneRecentBlocks (s : AgentState) (now : DateTime) : AgentState :=
  { s with recentBlocks := s.recentBlocks.filter fun ts => decide (now - seconds 60 < ts) }

def incidentSourceIdentity (incident : Incident) : Option (Nat × String × Option String) := do
  let ev ← match incident.evidence with
    | .arr items => items.head?
    | .obj members => some (.obj members)
    | _ => none
  let pid ← (ev.get "pid").bind Json.asU64
  let comm := ((ev.get "comm").bind Json.asStr).getD ""
  let readPath := (ev.get "sensitive_file").bind Json.asStr
  return (pid % 2 ^ 32, comm, readPath)

def dstKnownBadFrom (entities : List EntityRef)
    (reputations : FiniteMap String LocalIpReputation) : Bool :=
  entities.any fun e =>
    decide (e.type = .ip) && ((reputations.lookup e.value).any fun r => decide (0 < r.totalBlocks))

def managedAgentDowngrade (w : World) (incident : Incident) (s : AgentState) :
    Option (String × String) :=
  if w.registryBusy then none
  else
    match incidentSourceIdentity incident with
    | none => none
    | some (pid, comm, readPath) =>
      w.verifyManaged pid comm readPath (dstKnownBadFrom incident.entities s.ipReputations)

/-- `Mode` of the circuit breaker. -/
inductive BreakerMode where
  | pause
  | logOnly
  | dryRun
deriving DecidableEq

/-- `to_ascii_lowercase`. -/
def asciiLowercase (s : String) : String :=
  String.ofList (s.toList.map fun c => if 'A' ≤ c ∧ c ≤ 'Z' then Char.ofNat (c.toNat + 32) else c)

def BreakerMode.fromStrOrDefault (value : String) : BreakerMode :=
  let value := asciiLowercase (trim value)
  if value = "pause" then .pause
  else if value ∈ ["dry_run", "dry-run", "dryrun"] then .dryRun
  else if value ∈ ["log_only", "log-only", "logonly"] then .logOnly
  else .pause

/-- `check_and_record`: whether the block may proceed, and the store with the attempt
counted.  A count at the largest `u64` stays there. -/
def checkAndRecord (w : World) (limit : Nat) (mode : BreakerMode) (store : BreakerStore) :
    Bool × BreakerStore :=
  let now := w.clock .breaker
  let hour := w.formatHour now
  let count := min ((store.blockRate.lookup hour).getD 0 + 1) (2 ^ 64 - 1)
  let counted := { store with blockRate := store.blockRate.insert hour count }
  if mode = .logOnly then (true, counted)
  else if (store.trippedAt.lookup hour).isSome then (false, counted)
  else if limit < count then
    (false, { counted with trippedAt := counted.trippedAt.insert hour now })
  else (true, counted)

/-- `consult_circuit_breaker`, when there is a store. -/
def consultCircuitBreaker (w : World) (cfg : AgentConfig) (s : AgentState) :
    Option String × AgentState :=
  match s.sqliteStore with
  | none => (none, s)
  | some store =>
    match checkAndRecord w cfg.maxBlocksPerHour
        (BreakerMode.fromStrOrDefault cfg.circuitBreakerMode) store with
    | (allowed, store) =>
      (if allowed then none
        else some ("skipped: circuit breaker tripped (blocks this hour exceed " ++
          toString cfg.maxBlocksPerHour ++ ")"),
        { s with sqliteStore := some store })

/-- Why a target is not eligible. -/
inductive Ineligible where
  | emptyIp
  | invalidIp
  | cloudProvider (provider : String)
  | operatorSession
  | rateLimited
deriving DecidableEq

/-- The text of the reason. -/
def Ineligible.text (ip : String) : Ineligible → String
  | .emptyIp => "skipped: block decision has empty IP"
  | .invalidIp => s!"skipped: {ip} is not a valid IP address"
  | .cloudProvider provider => s!"skipped: {ip} is in cloud provider safelist ({provider})"
  | .operatorSession => s!"skipped: {ip} is an active operator session"
  | .rateLimited => s!"rate-limited: {ip} (>{maxBlocksPerMinute} blocks/min)"

/-- `check_block_eligibility_with_safelist`. -/
def checkBlockEligibility (ip : String) (operatorIps : List String) (recentBlocks : Nat) :
    Except Ineligible Unit :=
  if ip = "" then .error .emptyIp
  else if isValidBlockTarget ip = false then .error .invalidIp
  else
    match safelistLabel ip with
    | some provider => .error (.cloudProvider provider)
    | none =>
      if ip ∈ operatorIps then .error .operatorSession
      else if maxBlocksPerMinute ≤ recentBlocks then .error .rateLimited
      else .ok ()

def ResponseLifecycle.isIpActivelyBlocked (lc : ResponseLifecycle) (ip : String)
    (now : DateTime) : Bool :=
  lc.active.any fun r => decide (r.responseType = .blockIp) && decide (r.target = ip) &&
    decide (r.state = .active) && decide (now < r.expiresAt)

def ResponseLifecycle.isTracked (lc : ResponseLifecycle) (target : String)
    (backend : ResponseBackend) : Bool :=
  lc.active.any fun r => decide (r.target = target) && decide (r.backend = backend)

def backendStatusCmd (skillId : String) : Option (String × List String) :=
  if contains skillId "ufw" then some ("ufw", ["status"])
  else if contains skillId "nft" then some ("nft", ["list", "ruleset"])
  else if contains skillId "iptables" then some ("iptables", ["-S"])
  else if contains skillId "firewalld" then some ("firewall-cmd", ["--list-all"])
  else none

def isIpLiveBlocked (w : World) (ip skillId : String) : Bool :=
  match backendStatusCmd skillId with
  | none => false
  | some (prog, args) =>
    match w.firewallStatus prog args with
    | none => false
    | some output => rulePresentIn output ip

/-! ## The layers -/

def adaptiveBlockTtlSecs (totalBlocks : Nat) : Int :=
  if totalBlocks ≤ 1 then 3600
  else if totalBlocks = 2 then 14400
  else if totalBlocks = 3 then 86400
  else 604800

def AgentState.blockTtlSecs (s : AgentState) (ip : String) : Int :=
  adaptiveBlockTtlSecs (((s.ipReputations.lookup ip).map (·.totalBlocks)).getD 0)

/-- The context the skills run on. -/
def blockContext (ip dataDir : String) (incident : Incident) (ttlSecs : Int) : SkillContext where
  incident := incident
  targetIp := some ip
  targetUser := none
  targetContainer := none
  durationSecs := some ttlSecs.toNat
  host := incident.host
  dataDir := dataDir

def hexByte (n : Nat) : String :=
  "0x" ++ String.ofList [Nat.digitChar (n / 16 % 16), Nat.digitChar (n % 16)]

def ipToBpfMapAndKey (ip : String) : Except String (String × String) :=
  match IpAddr.fromStr ip with
  | some (.v4 bits) => .ok ("blocklist", " ".intercalate ((IpAddr.octets bits).map hexByte))
  | some (.v6 bits) =>
    .ok ("blocklist_v6", " ".intercalate
      ((IpAddr.groups bits).flatMap fun g => [hexByte (g / 256), hexByte (g % 256)]))
  | none => .error s!"invalid IP address: {ip}"

/-- The command of `add_to_blocklist` and how it ends. -/
def XdpManager.updateMap (w : World) (m : XdpManager) (ip : String) : Except String Unit :=
  match ipToBpfMapAndKey ip with
  | .error e => .error e
  | .ok (mapName, keyHex) =>
    let pinned := m.bpfPath ++ "/" ++ mapName
    match w.bpftool m.bpftoolBin
        ["map", "update", "pinned", pinned, "key", keyHex, "value", "0x01", "0x00", "0x00",
         "0x00"] with
    | .succeeded => .ok ()
    | .failed stderr => .error s!"bpftool map update failed for {ip}: {stderr}"
    | .notSpawned _ => .error "Failed to execute bpftool map update"

def XdpManager.isBlocked (m : XdpManager) (ip : String) : Bool :=
  m.blocklist.any fun e => decide (e.ip = ip)

def XdpManager.addToBlocklist (w : World) (m : XdpManager) (ip reason : String) :
    Except String (XdpManager × List BlockEffect) :=
  let entry : BlocklistEntry := ⟨ip, w.clock .shieldEntry, reason⟩
  let added := { m with blocklist := m.blocklist ++ [entry] }
  if m.isBlocked ip then .ok (m, [])
  else if m.dryRun then .ok (added, [])
  else
    match m.updateMap w ip with
    | .error e => .error e
    | .ok () => .ok (added, [.bpfEntryAdded ip])

/-- The state after a layer, the layer if it succeeded, and the effects. -/
structure LayerRun where
  state : AgentState
  layers : List String := []
  effects : List BlockEffect := []

def shouldAttemptXdp (w : World) (s : AgentState) : Bool :=
  decide (s.xdpSkipUntil ≤ w.clock .xdpGate / 1000000000)

/-- `mark_failed`. -/
def AgentState.markXdpFailed (s : AgentState) (w : World) : AgentState :=
  { s with xdpSkipUntil := w.clock .xdpFailed / 1000000000 + 300 }

/-- What follows a success of XDP: `mark_succeeded` and the block time. -/
def AgentState.markXdpBlocked (s : AgentState) (w : World) (ip : String) (ttlSecs : Int) :
    AgentState :=
  { s with
      xdpSkipUntil := 0
      xdpBlockTimes := s.xdpBlockTimes.insert ip (w.clock .xdpBlocked, ttlSecs) }

/-- The shield's attempt: `none` without a shield, else the shield with the address on its
list, or the error. -/
def shieldAttempt (w : World) (ip : String) (incident : Incident) (s : AgentState) :
    Option (Except String (XdpManager × List BlockEffect)) :=
  s.shield.map fun m => m.addToBlocklist w ip ("agent:block:" ++ incident.incidentId)

/-- The attempt with the skill `block-ip-xdp`.  A failure of the shield before it counts
only when the skill is not there. -/
def standaloneXdp (w : World) (cfg : AgentConfig) (ip : String) (ctx : SkillContext)
    (ttlSecs : Int) (shieldFailed : Bool) (s : AgentState) : LayerRun :=
  match s.skillRegistry.get "block-ip-xdp" with
  | none => { state := if shieldFailed then s.markXdpFailed w else s }
  | some skill =>
    let effects := [.skillExecuted skill.id ctx cfg.dryRun]
    if (skill.execute ctx cfg.dryRun).result.success then
      { state := s.markXdpBlocked w ip ttlSecs
        layers := ["XDP"]
        effects := effects }
    else { state := s.markXdpFailed w, effects := effects }

/-- Layer 1. -/
def xdpLayer (w : World) (cfg : AgentConfig) (ip : String) (incident : Incident)
    (ctx : SkillContext) (ttlSecs : Int) (s : AgentState) : LayerRun :=
  if shouldAttemptXdp w s = false then { state := s }
  else
    match shieldAttempt w ip incident s with
    | some (.ok (m, effects)) =>
      { state := { s with shield := some m }.markXdpBlocked w ip ttlSecs
        layers := ["XDP"]
        effects := effects }
    | some (.error _) => standaloneXdp w cfg ip ctx ttlSecs true s
    | none => standaloneXdp w cfg ip ctx ttlSecs false s

def effectiveId (cfg : AgentConfig) (skillId : String) : String :=
  if skillId ∈ cfg.allowedSkills then skillId else "block-ip-" ++ cfg.blockBackend

/-- The firewall skill of layer 2, if there is one to run. -/
def firewallSkillFor (cfg : AgentConfig) (skillId : String) (registry : SkillRegistry) :
    Option ResponseSkill :=
  if effectiveId cfg skillId = "block-ip-xdp" then none
  else (registry.get (effectiveId cfg skillId)).or (registry.blockSkillForBackend cfg.blockBackend)

def firewallLayerName (backend : String) : String :=
  if backend = "iptables" then "iptables"
  else if backend = "nftables" then "nftables"
  else "ufw"

/-- Layer 2. -/
def firewallLayer (cfg : AgentConfig) (skillId : String) (ctx : SkillContext) (s : AgentState) :
    LayerRun :=
  match firewallSkillFor cfg skillId s.skillRegistry with
  | none => { state := s }
  | some skill =>
    { state := s
      layers :=
        if (skill.execute ctx cfg.dryRun).result.success then [firewallLayerName cfg.blockBackend]
        else []
      effects := [.skillExecuted skill.id ctx cfg.dryRun] }

def layerBackend (layer : String) : Option ResponseBackend :=
  if layer = "ufw" then some .ufw
  else if layer = "iptables" then some .iptables
  else if layer = "nftables" then some .nftables
  else if layer = "XDP" then some .xdp
  else none

/-- The response of one layer, unless it is tracked already. -/
def registerLayer (w : World) (ip incidentId : String) (ttlSecs : Int) (lc : ResponseLifecycle)
    (layer : String) : ResponseLifecycle :=
  match layerBackend layer with
  | none => lc
  | some backend =>
    if lc.isTracked ip backend then lc
    else
      (lc.register (w.clock (.register backend)) .blockIp backend ip incidentId ttlSecs none).1

/-- The records of a successful block. -/
def AgentState.recordBlocked (s : AgentState) (w : World) (ip incidentId : String) (ttlSecs : Int)
    (layers : List String) : AgentState :=
  { s with
      blocklist := insert ip s.blocklist
      responseLifecycle :=
        layers.foldl (registerLayer w ip incidentId ttlSecs) s.responseLifecycle }

/-- Layer 2.5. -/
def meshLayer (ip : String) (decision : AiDecision) (incident : Incident) (ttlSecs : Int)
    (s : AgentState) : LayerRun :=
  if s.mesh then
    { state := s
      layers := ["Mesh"]
      effects := [.meshBroadcast ip (incidentDetector incident.incidentId) decision.confidence
        decision.reason ttlSecs] }
  else { state := s }

def cloudflareTargetIsValid (target : String) : Bool :=
  let trimmed := trim target
  if trimmed = "" then false
  else
    match splitOnce '/' trimmed with
    | none => (IpAddr.fromStr trimmed).isSome
    | some (host, prefixStr) =>
      match parseU8 prefixStr, IpAddr.fromStr host with
      | some p, some (.v4 _) => decide (p ∈ [16, 24, 32])
      | some p, some (.v6 _) => decide (p ∈ [32, 48, 64])
      | _, _ => false

/-- `push_block`: the id of the rule. -/
def CloudflareClient.pushBlock (w : World) (cf : CloudflareClient) (ip reason : String) :
    Option String :=
  if cf.zoneId = "" ∨ cf.apiToken = "" then none
  else if cloudflareTargetIsValid ip = false then none
  else w.cloudflareApi cf ip (cf.notesPrefix ++ ": " ++ reason)

/-- The rule layer 3 pushes. -/
def cloudflareRule (w : World) (cfg : AgentConfig) (ip : String) (decision : AiDecision)
    (incident : Incident) (s : AgentState) : Option String :=
  if cfg.cloudflareEnabled && cfg.cloudflareAutoPushBlocks then
    s.cloudflareClient.bind fun cf =>
      cf.pushBlock w ip (incident.incidentId ++ ": " ++ decision.reason)
  else none

/-- Layer 3. -/
def cloudflareLayer (w : World) (cfg : AgentConfig) (ip : String) (decision : AiDecision)
    (incident : Incident) (s : AgentState) : LayerRun :=
  match cloudflareRule w cfg ip decision incident s with
  | some ruleId =>
    { state := s, layers := ["Cloudflare"], effects := [.cloudflareRulePushed ip ruleId] }
  | none => { state := s }

def detectorToCategories (detector : String) : String :=
  if contains detector "ssh_bruteforce" then "18,22"
  else if contains detector "credential_stuffing" then "18,22"
  else if contains detector "port_scan" then "14"
  else if contains detector "web_scan" || contains detector "scanner_ua" then "21"
  else if contains detector "search_abuse" then "21"
  else "15"

/-- Layer 4. -/
def abuseipdbLayer (w : World) (cfg : AgentConfig) (ip : String) (decision : AiDecision)
    (incident : Incident) (s : AgentState) : LayerRun :=
  if cfg.abuseipdbEnabled && cfg.abuseipdbReportBlocks then
    let comment := "InnerWarden auto-block: " ++ decision.reason ++ " (confidence " ++
      w.formatPercent decision.confidence ++ "%)"
    let report : AbuseReport := ⟨ip, comment,
      detectorToCategories (incidentDetector incident.incidentId), w.clock .report⟩
    { state := { s with abuseipdbReportQueue := s.abuseipdbReportQueue ++ [report] }
      layers := ["AbuseIPDB(queued)"] }
  else { state := s }

/-- The two enforcement layers. -/
def enforce (w : World) (cfg : AgentConfig) (ip skillId dataDir : String) (incident : Incident)
    (s : AgentState) : LayerRun :=
  let ttl := s.blockTtlSecs ip
  let ctx := blockContext ip dataDir incident ttl
  let xdp := xdpLayer w cfg ip incident ctx ttl s
  let fw := firewallLayer cfg skillId ctx xdp.state
  { state := fw.state
    layers := xdp.layers ++ fw.layers
    effects := xdp.effects ++ fw.effects }

/-- What follows when an enforcement layer has succeeded. -/
def afterBlock (w : World) (cfg : AgentConfig) (ip : String) (decision : AiDecision)
    (incident : Incident) (ttlSecs : Int) (enforced : LayerRun) : Execution :=
  let s := enforced.state.recordBlocked w ip incident.incidentId ttlSecs enforced.layers
  let mesh := meshLayer ip decision incident ttlSecs s
  let cloudflare := cloudflareLayer w cfg ip decision incident mesh.state
  let abuse := abuseipdbLayer w cfg ip decision incident cloudflare.state
  let layers := enforced.layers ++ mesh.layers ++ cloudflare.layers ++ abuse.layers
  { message := "Blocked " ++ ip ++ " via " ++ " + ".intercalate layers
    cloudflarePushed := !cloudflare.layers.isEmpty
    state := abuse.state
    effects := enforced.effects ++ [.blockedIpAppended ip] ++ mesh.effects ++ cloudflare.effects
    layersApplied := enforced.layers }

/-- The end of a call: without an enforcement layer nothing has been blocked. -/
def conclude (w : World) (cfg : AgentConfig) (ip : String) (decision : AiDecision)
    (incident : Incident) (ttlSecs : Int) (enforced : LayerRun) : Execution :=
  if enforced.layers.isEmpty then
    { message := "skipped: no block skill available for " ++ ip
      cloudflarePushed := false
      state := enforced.state
      effects := enforced.effects }
  else afterBlock w cfg ip decision incident ttlSecs enforced

/-- The part of `execute_block_ip_decision` after its gates. -/
def applyLayers (w : World) (cfg : AgentConfig) (ip skillId dataDir : String)
    (decision : AiDecision) (incident : Incident) (s : AgentState) : Execution :=
  let s := { s with recentBlocks := s.recentBlocks ++ [w.clock .start] }
  conclude w cfg ip decision incident (s.blockTtlSecs ip)
    (enforce w cfg ip skillId dataDir incident s)

/-- A block, from the checks to the layers and the records. -/
def executeBlockIpDecision (w : World) (cfg : AgentConfig) (ip skillId dataDir : String)
    (decision : AiDecision) (incident : Incident) (s : AgentState) : Execution :=
  let s := s.pruneRecentBlocks (w.clock .start)
  match managedAgentDowngrade w incident s with
  | some (agentId, name) =>
    { message := "downgraded to monitor: source is managed agent " ++ agentId ++ " (" ++ name ++
        ") on its own services — destination IP " ++ ip ++ " not blocked (spec 081)"
      cloudflarePushed := false
      state := s }
  | none =>
    match consultCircuitBreaker w cfg s with
    | (some reason, s) => { message := reason, cloudflarePushed := false, state := s }
    | (none, s) =>
      match checkBlockEligibility ip s.operatorIps s.recentBlocks.length with
      | .error reason =>
        { message := reason.text ip
          cloudflarePushed := false
          -- A safelisted address loses the reputation it should not have.
          state := if contains (reason.text ip) "cloud provider safelist" then
              { s with ipReputations := s.ipReputations.erase ip }
            else s }
      | .ok () =>
        if s.responseLifecycle.isIpActivelyBlocked ip (w.clock .start) &&
            isIpLiveBlocked w ip skillId then
          { message := "already blocked: live firewall rule verified active for this IP"
            cloudflarePushed := true
            state := s
            liveRule := true }
        else applyLayers w cfg ip skillId dataDir decision incident s

/-- `execute_decision` on a decision to block.  The other actions are not modelled, so they
answer what they are given. -/
def executeDecision (w : World) (cfg : AgentConfig) (dataDir : String) (decision : AiDecision)
    (incident : Incident) (other : AiAction → Execution) (s : AgentState) : Execution :=
  match decision.action with
  | .blockIp ip skillId =>
    if isSingleIpBlockTarget ip = false then
      { message := "skipped: AI router emitted BlockIp on invalid or CIDR target " ++ ip ++
          " — refused at execute_decision boundary"
        cloudflarePushed := false
        state := s }
    else executeBlockIpDecision w cfg ip skillId dataDir decision incident s
  | action => other action

/-! ## A small agent -/

def bareIncident : Incident :=
  ⟨0, "host", "ssh_bruteforce:2001:db8::7", .high, "", "", .null, [], [], []⟩

/-- A configuration that trusts one address. -/
def trustingConfig : AgentConfig where
  responderEnabled := true
  dryRun := false
  autoRulesEnabled := true
  blockBackend := "ufw"
  allowedSkills := ["block-ip-ufw"]
  maxBlocksPerHour := 100
  circuitBreakerMode := "pause"
  cloudflareEnabled := false
  cloudflareAutoPushBlocks := false
  abuseipdbEnabled := false
  abuseipdbReportBlocks := false
  trustedIps := ["2001:db8::7"]

/-- An outside on which every command succeeds. -/
def readyWorld : World where
  clock := fun _ => 0
  formatHour := fun _ => "1970-01-01T00"
  registryBusy := false
  verifyManaged := fun _ _ _ _ => none
  bpftool := fun _ _ => .succeeded
  firewallStatus := fun _ _ => none
  cloudflareApi := fun _ _ _ => none
  formatPercent := fun _ => ""

/-- A fresh state with the built-in block skills. -/
def freshState : AgentState where
  recentBlocks := []
  operatorIps := []
  dynamicTrustedIps := []
  ipReputations := ∅
  responseLifecycle := .new
  blocklist := ∅
  shield := none
  xdpBlockTimes := ∅
  xdpSkipUntil := 0
  skillRegistry := blockSkills ⟨fun _ => .succeeded, fun _ => true⟩
  mesh := false
  cloudflareClient := none
  abuseipdbReportQueue := []
  sqliteStore := none
  cooldowns := ∅
  graphDecisions := []

end Innerwarden

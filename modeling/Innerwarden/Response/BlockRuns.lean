import Innerwarden.Response.BlockDecision

/-!
# The ways a block decision ends

`BlockRun` lists the ways in which a block decision ends: one for each gate that can stop it,
and the layers.  `XdpRun` does the same for the first enforcement layer.

* A gate that ends the call does nothing (`Quiet`).
* `Applies` and `ShieldWrites`: what the enforcement layers do.  They leave all other records
  (`SameRecords`).
* `afterBlock_effects` and `afterBlock_state`: what follows a success.
-/

namespace Innerwarden

open Text

/-! ## The ways a decision ends -/

section Runs

variable (w : World) (cfg : AgentConfig) (ip skillId dataDir : String) (decision : AiDecision)
  (incident : Incident) (s : AgentState)

def AgentState.entering : AgentState :=
  (consultCircuitBreaker w cfg (s.pruneRecentBlocks (w.clock .start))).2

def eligibility : Except Ineligible Unit :=
  checkBlockEligibility ip s.operatorIps (s.pruneRecentBlocks (w.clock .start)).recentBlocks.length

/-- The lifecycle has an active block of the address, and the firewall has its rule. -/
def LiveBlock : Prop :=
  s.responseLifecycle.isIpActivelyBlocked ip (w.clock .start) = true ∧
    isIpLiveBlocked w ip skillId = true

instance : Decidable (LiveBlock w ip skillId s) := inferInstanceAs (Decidable (_ ∧ _))

/-- The circuit breaker does not let another block through: it has tripped in this hour, or
this block is one too many. -/
def BreakerTripped : Prop :=
  BreakerMode.fromStrOrDefault cfg.circuitBreakerMode ≠ .logOnly ∧
    ∃ store, s.sqliteStore = some store ∧
      ((store.trippedAt.lookup (w.formatHour (w.clock .breaker))).isSome = true ∨
        cfg.maxBlocksPerHour <
          min ((store.blockRate.lookup (w.formatHour (w.clock .breaker))).getD 0 + 1) (2 ^ 64 - 1))

/-- The decision passes every gate. -/
structure PassesGates : Prop where
  notManaged : managedAgentDowngrade w incident s = none
  notTripped : ¬ BreakerTripped w cfg s
  eligible : eligibility w ip s = .ok ()
  notLive : ¬ LiveBlock w ip skillId s

theorem valid_of_checkBlockEligibility {ip : String} {operatorIps : List String}
    {recentBlocks : Nat} (h : checkBlockEligibility ip operatorIps recentBlocks = .ok ()) :
    isValidBlockTarget ip = true ∧ safelistLabel ip = none := by
  unfold checkBlockEligibility at h
  split at h
  · cases h
  · split at h
    · cases h
    · next hvalid =>
      split at h
      · cases h
      · next hlabel => exact ⟨by simpa using hvalid, hlabel⟩

/-- The ways in which a decision ends. -/
inductive BlockRun : Execution → Prop where
  | downgraded (agentId name : String)
      (hmanaged : managedAgentDowngrade w incident s = some (agentId, name)) :
      BlockRun
        { message := "downgraded to monitor: source is managed agent " ++ agentId ++ " (" ++
            name ++ ") on its own services — destination IP " ++ ip ++ " not blocked (spec 081)"
          cloudflarePushed := false
          state := s.pruneRecentBlocks (w.clock .start) }
  | tripped (reason : String) (hmanaged : managedAgentDowngrade w incident s = none)
      (htripped : (consultCircuitBreaker w cfg s).1 = some reason) :
      BlockRun { message := reason, cloudflarePushed := false, state := s.entering w cfg }
  | ineligible (reason : Ineligible) (hmanaged : managedAgentDowngrade w incident s = none)
      (htripped : (consultCircuitBreaker w cfg s).1 = none)
      (helig : eligibility w ip s = .error reason) :
      BlockRun
        { message := reason.text ip
          cloudflarePushed := false
          state := if contains (reason.text ip) "cloud provider safelist" then
              { s.entering w cfg with
                  ipReputations := (s.entering w cfg).ipReputations.erase ip }
            else s.entering w cfg }
  | live (hmanaged : managedAgentDowngrade w incident s = none)
      (htripped : (consultCircuitBreaker w cfg s).1 = none)
      (helig : eligibility w ip s = .ok ()) (hlive : LiveBlock w ip skillId s) :
      BlockRun
        { message := "already blocked: live firewall rule verified active for this IP"
          cloudflarePushed := true
          state := s.entering w cfg
          liveRule := true }
  | layers (hpasses : PassesGates w cfg ip skillId incident s) :
      BlockRun (applyLayers w cfg ip skillId dataDir decision incident (s.entering w cfg))

variable {w cfg s} in
theorem consultCircuitBreaker_eq_none_iff :
    (consultCircuitBreaker w cfg s).1 = none ↔ ¬ BreakerTripped w cfg s := by
  unfold consultCircuitBreaker BreakerTripped
  cases s.sqliteStore with
  | none => simp
  | some store =>
    simp only [checkAndRecord]
    split_ifs <;> simp_all

/-- The breaker changes nothing but its counters. -/
theorem consultCircuitBreaker_snd :
    ∃ store, (consultCircuitBreaker w cfg s).2 = { s with sqliteStore := store } := by
  unfold consultCircuitBreaker
  split
  · exact ⟨s.sqliteStore, rfl⟩
  · exact ⟨_, rfl⟩

/-- The breaker reads nothing but its counters. -/
theorem consultCircuitBreaker_fst_pruneRecentBlocks (now : DateTime) :
    (consultCircuitBreaker w cfg (s.pruneRecentBlocks now)).1 =
      (consultCircuitBreaker w cfg s).1 := by
  unfold consultCircuitBreaker
  simp only [AgentState.pruneRecentBlocks]
  split <;> rfl

theorem entering_eq : ∃ store, s.entering w cfg =
    { s.pruneRecentBlocks (w.clock .start) with sqliteStore := store } :=
  consultCircuitBreaker_snd w cfg _

theorem executeBlockIpDecision_run :
    BlockRun w cfg ip skillId dataDir decision incident s
      (executeBlockIpDecision w cfg ip skillId dataDir decision incident s) := by
  obtain ⟨store, hentering⟩ := entering_eq w cfg s
  have htripped := consultCircuitBreaker_fst_pruneRecentBlocks w cfg s (w.clock .start)
  simp only [executeBlockIpDecision]
  split
  · next agentId name hmanaged => exact .downgraded agentId name hmanaged
  · next hmanaged =>
    split
    · next reason s' hbreaker =>
      have hstate : s' = s.entering w cfg := by rw [AgentState.entering, hbreaker]
      rw [hbreaker] at htripped
      subst hstate
      exact .tripped reason hmanaged htripped.symm
    · next s' hbreaker =>
      have hstate : s' = s.entering w cfg := by rw [AgentState.entering, hbreaker]
      rw [hbreaker] at htripped
      have helig : checkBlockEligibility ip s'.operatorIps s'.recentBlocks.length =
          eligibility w ip s := by rw [hstate, hentering]; rfl
      have hcycle : s'.responseLifecycle = s.responseLifecycle := by rw [hstate, hentering]; rfl
      subst hstate
      rw [helig]
      split
      · next reason hreason => exact .ineligible reason hmanaged htripped.symm hreason
      · next hok =>
        split
        · next hlive =>
          rw [hcycle, Bool.and_eq_true] at hlive
          exact .live hmanaged htripped.symm hok hlive
        · next hlive =>
          rw [hcycle, Bool.and_eq_true] at hlive
          exact .layers ⟨hmanaged, consultCircuitBreaker_eq_none_iff.1 htripped.symm, hok,
            hlive⟩

/-- Nothing has been done outside, and the lists of blocks and reports are as before. -/
structure Quiet (s : AgentState) (e : Execution) : Prop where
  effects : e.effects = []
  shield : e.state.shield = s.shield
  blocklist : e.state.blocklist = s.blocklist
  lifecycle : e.state.responseLifecycle = s.responseLifecycle
  queue : e.state.abuseipdbReportQueue = s.abuseipdbReportQueue

variable {w cfg ip skillId dataDir decision incident s}

theorem BlockRun.quiet_of_not_passes {e : Execution}
    (hrun : BlockRun w cfg ip skillId dataDir decision incident s e)
    (hnot : ¬ PassesGates w cfg ip skillId incident s) : Quiet s e := by
  obtain ⟨store, hentering⟩ := entering_eq w cfg s
  cases hrun with
  | downgraded agentId name hmanaged => exact ⟨rfl, rfl, rfl, rfl, rfl⟩
  | tripped reason hmanaged htripped | live hmanaged htripped helig hlive =>
    rw [hentering]; exact ⟨rfl, rfl, rfl, rfl, rfl⟩
  | ineligible reason hmanaged htripped helig =>
    rw [hentering]
    split <;> exact ⟨rfl, rfl, rfl, rfl, rfl⟩
  | layers hpasses => exact absurd hpasses hnot

theorem BlockRun.eq_applyLayers {e : Execution}
    (hrun : BlockRun w cfg ip skillId dataDir decision incident s e)
    (hpasses : PassesGates w cfg ip skillId incident s) :
    e = applyLayers w cfg ip skillId dataDir decision incident (s.entering w cfg) := by
  cases hrun with
  | downgraded agentId name hmanaged => simp [hpasses.notManaged] at hmanaged
  | tripped reason hmanaged htripped =>
    simp [consultCircuitBreaker_eq_none_iff.2 hpasses.notTripped] at htripped
  | ineligible reason hmanaged htripped helig => simp [hpasses.eligible] at helig
  | live hmanaged htripped helig hlive => exact absurd hlive hpasses.notLive
  | layers => rfl

end Runs

/-! ## The enforcement layers -/

section Layers

variable (w : World) (cfg : AgentConfig) (ip : String) (incident : Incident) (ctx : SkillContext)
  (ttlSecs : Int) (s : AgentState)

/-- The shield takes the address: it has it already, it is itself in a dry run, or the map
is updated. -/
def ShieldAccepts : Prop :=
  ∃ m, s.shield = some m ∧
    (m.isBlocked ip = true ∨ m.dryRun = true ∨ m.updateMap w ip = .ok ())

/-- The shield writes a new entry into the map of the kernel. -/
def ShieldWrites : Prop :=
  shouldAttemptXdp w s = true ∧ ∃ m, s.shield = some m ∧
    m.isBlocked ip = false ∧ m.dryRun = false ∧ m.updateMap w ip = .ok ()

variable {w ip s} in
theorem not_shieldWrites (hrefuses : ¬ ShieldAccepts w ip s) : ¬ ShieldWrites w ip s := by
  rintro ⟨-, m, hm, -, -, hupdate⟩
  exact hrefuses ⟨m, hm, .inr (.inr hupdate)⟩

/-- The ways in which the first layer ends. -/
inductive XdpRun : LayerRun → Prop where
  | skipped (hskip : shouldAttemptXdp w s = false) : XdpRun { state := s }
  | listed (m : XdpManager) (htry : shouldAttemptXdp w s = true) (hm : s.shield = some m)
      (hlisted : m.isBlocked ip = true) :
      XdpRun { state := s.markXdpBlocked w ip ttlSecs, layers := ["XDP"] }
  | added (m : XdpManager) (entry : BlocklistEntry) (effects : List BlockEffect)
      (htry : shouldAttemptXdp w s = true) (hm : s.shield = some m)
      (hnew : m.isBlocked ip = false)
      (hadd : m.dryRun = true ∧ effects = [] ∨
        m.dryRun = false ∧ m.updateMap w ip = .ok () ∧ effects = [.bpfEntryAdded ip]) :
      XdpRun
        { state := { s with shield := some { m with blocklist := m.blocklist ++ [entry] } }
            |>.markXdpBlocked w ip ttlSecs
          layers := ["XDP"]
          effects := effects }
  | unavailable (state : AgentState) (htry : shouldAttemptXdp w s = true)
      (hrefuses : ¬ ShieldAccepts w ip s) (hget : s.skillRegistry.get "block-ip-xdp" = none)
      (hstate : state = s ∨ state = s.markXdpFailed w) : XdpRun { state := state }
  | ranSucceeded (skill : ResponseSkill) (htry : shouldAttemptXdp w s = true)
      (hrefuses : ¬ ShieldAccepts w ip s)
      (hget : s.skillRegistry.get "block-ip-xdp" = some skill)
      (hresult : (skill.execute ctx cfg.dryRun).result.success = true) :
      XdpRun
        { state := s.markXdpBlocked w ip ttlSecs
          layers := ["XDP"]
          effects := [.skillExecuted skill.id ctx cfg.dryRun] }
  | ranFailed (skill : ResponseSkill) (htry : shouldAttemptXdp w s = true)
      (hrefuses : ¬ ShieldAccepts w ip s)
      (hget : s.skillRegistry.get "block-ip-xdp" = some skill)
      (hresult : (skill.execute ctx cfg.dryRun).result.success = false) :
      XdpRun
        { state := s.markXdpFailed w
          effects := [.skillExecuted skill.id ctx cfg.dryRun] }

theorem standaloneXdp_run (shieldFailed : Bool) (htry : shouldAttemptXdp w s = true)
    (hrefuses : ¬ ShieldAccepts w ip s) :
    XdpRun w cfg ip ctx ttlSecs s (standaloneXdp w cfg ip ctx ttlSecs shieldFailed s) := by
  simp only [standaloneXdp]
  split
  · next hget =>
    refine .unavailable _ htry hrefuses hget ?_
    cases shieldFailed with
    | true => exact .inr rfl
    | false => exact .inl rfl
  · next skill hget =>
    split
    · next hresult => exact .ranSucceeded skill htry hrefuses hget hresult
    · next hresult => exact .ranFailed skill htry hrefuses hget (by simpa using hresult)

theorem xdpLayer_run :
    XdpRun w cfg ip ctx ttlSecs s (xdpLayer w cfg ip incident ctx ttlSecs s) := by
  simp only [xdpLayer]
  split
  · next hskip => exact .skipped hskip
  · next htry =>
    rw [Bool.not_eq_false] at htry
    cases hshield : s.shield with
    | none =>
      have hattempt : shieldAttempt w ip incident s = none := by simp [shieldAttempt, hshield]
      simp only [hattempt]
      exact standaloneXdp_run w cfg ip ctx ttlSecs s false htry (by simp [ShieldAccepts, hshield])
    | some m =>
      have hattempt : shieldAttempt w ip incident s =
          some (m.addToBlocklist w ip ("agent:block:" ++ incident.incidentId)) := by
        simp [shieldAttempt, hshield]
      cases hlisted : m.isBlocked ip with
      | true =>
        simp only [hattempt, XdpManager.addToBlocklist, hlisted, if_true]
        rw [show { s with shield := some m } = s by rw [← hshield]]
        exact .listed m htry hshield hlisted
      | false =>
        cases hdry : m.dryRun with
        | true =>
          simp only [hattempt, XdpManager.addToBlocklist, hlisted, hdry, Bool.false_eq_true,
            if_true, if_false]
          exact hdry ▸ .added m _ _ htry hshield hlisted (.inl ⟨hdry, rfl⟩)
        | false =>
          cases hupdate : m.updateMap w ip with
          | ok u =>
            simp only [hattempt, XdpManager.addToBlocklist, hlisted, hdry, hupdate,
              Bool.false_eq_true, if_false]
            exact hdry ▸ .added m _ _ htry hshield hlisted (.inr ⟨hdry, hupdate, rfl⟩)
          | error e =>
            simp only [hattempt, XdpManager.addToBlocklist, hlisted, hdry, hupdate,
              Bool.false_eq_true, if_false]
            refine standaloneXdp_run w cfg ip ctx ttlSecs s true htry ?_
            simp [ShieldAccepts, hshield, hlisted, hdry, hupdate]

/-- The parts of a state that an enforcement layer does not touch. -/
structure SameRecords (s s' : AgentState) : Prop where
  ipReputations : s'.ipReputations = s.ipReputations
  responseLifecycle : s'.responseLifecycle = s.responseLifecycle
  blocklist : s'.blocklist = s.blocklist
  skillRegistry : s'.skillRegistry = s.skillRegistry
  mesh : s'.mesh = s.mesh
  cloudflareClient : s'.cloudflareClient = s.cloudflareClient
  abuseipdbReportQueue : s'.abuseipdbReportQueue = s.abuseipdbReportQueue
  graphDecisions : s'.graphDecisions = s.graphDecisions

variable {w cfg ip ctx ttlSecs s}

variable {run : LayerRun}

theorem XdpRun.sameRecords (h : XdpRun w cfg ip ctx ttlSecs s run) : SameRecords s run.state := by
  cases h with
  | unavailable state htry hrefuses hget hstate =>
    rcases hstate with rfl | rfl <;> exact ⟨rfl, rfl, rfl, rfl, rfl, rfl, rfl, rfl⟩
  | skipped hskip | listed m htry hm hlisted | added m entry effects htry hm hnew hadd
  | ranSucceeded skill htry hrefuses hget hresult | ranFailed skill htry hrefuses hget hresult =>
    exact ⟨rfl, rfl, rfl, rfl, rfl, rfl, rfl, rfl⟩

/-- The first layer has the address dropped. -/
def XdpApplies (w : World) (cfg : AgentConfig) (ip : String) (ctx : SkillContext)
    (s : AgentState) : Prop :=
  shouldAttemptXdp w s = true ∧
    (ShieldAccepts w ip s ∨ ∃ skill, s.skillRegistry.get "block-ip-xdp" = some skill ∧
      (skill.execute ctx cfg.dryRun).result.success = true)

theorem XdpRun.layers_eq_nil_iff (h : XdpRun w cfg ip ctx ttlSecs s run) :
    run.layers = [] ↔ ¬ XdpApplies w cfg ip ctx s := by
  cases h with
  | skipped hskip => simp [XdpApplies, hskip]
  | listed m htry hm hlisted => simp [XdpApplies, htry, ShieldAccepts, hm, hlisted]
  | added m entry effects htry hm hnew hadd =>
    have haccepts : ShieldAccepts w ip s := by
      rcases hadd with ⟨hdry, -⟩ | ⟨-, hupdate, -⟩
      · exact ⟨m, hm, .inr (.inl hdry)⟩
      · exact ⟨m, hm, .inr (.inr hupdate)⟩
    simp [XdpApplies, htry, haccepts]
  | unavailable state htry hrefuses hget hstate => simp [XdpApplies, hrefuses, hget]
  | ranSucceeded skill htry hrefuses hget hresult => simp [XdpApplies, htry, hget, hresult]
  | ranFailed skill htry hrefuses hget hresult => simp [XdpApplies, hrefuses, hget, hresult]

/-- A new entry of the map comes from the shield. -/
theorem XdpRun.bpfEntryAdded_mem_iff (h : XdpRun w cfg ip ctx ttlSecs s run) :
    (∃ target, .bpfEntryAdded target ∈ run.effects) ↔ ShieldWrites w ip s := by
  cases h with
  | skipped hskip => simp [ShieldWrites, hskip]
  | listed m htry hm hlisted => simp [ShieldWrites, hm, hlisted]
  | added m entry effects htry hm hnew hadd =>
    rcases hadd with ⟨hdry, rfl⟩ | ⟨hdry, hupdate, rfl⟩
    · simp [ShieldWrites, hm, hdry]
    · simp [ShieldWrites, htry, hm, hnew, hdry, hupdate]
  | unavailable state htry hrefuses hget hstate | ranSucceeded skill htry hrefuses hget hresult
  | ranFailed skill htry hrefuses hget hresult =>
    exact iff_of_false (by simp) (not_shieldWrites hrefuses)

/-- An effect of an enforcement layer. -/
def BlockEffect.IsLayer : BlockEffect → Prop
  | .skillExecuted _ _ _ => True
  | .bpfEntryAdded _ => True
  | _ => False

theorem XdpRun.mem_effects (h : XdpRun w cfg ip ctx ttlSecs s run) {e : BlockEffect}
    (hmem : e ∈ run.effects) :
    (∃ id c, e = .skillExecuted id c cfg.dryRun) ∨ ∃ target, e = .bpfEntryAdded target := by
  cases h with
  | skipped hskip | listed m htry hm hlisted | unavailable state htry hrefuses hget hstate =>
    cases hmem
  | added m entry effects htry hm hnew hadd =>
    rcases hadd with ⟨-, rfl⟩ | ⟨-, -, rfl⟩
    · cases hmem
    · exact .inr ⟨ip, List.mem_singleton.1 hmem⟩
  | ranSucceeded skill htry hrefuses hget hresult | ranFailed skill htry hrefuses hget hresult =>
    exact .inl ⟨_, _, List.mem_singleton.1 hmem⟩

end Layers

section Enforce

variable (w : World) (cfg : AgentConfig) (ip skillId dataDir : String) (decision : AiDecision)
  (incident : Incident) (s : AgentState)

/-- The firewall has a rule for the address after the second layer. -/
def FirewallApplies (ctx : SkillContext) : Prop :=
  ∃ skill, firewallSkillFor cfg skillId s.skillRegistry = some skill ∧
    (skill.execute ctx cfg.dryRun).result.success = true

/-- An enforcement layer succeeds. -/
def Applies : Prop :=
  XdpApplies w cfg ip (blockContext ip dataDir incident (s.blockTtlSecs ip)) s ∨
    FirewallApplies cfg skillId s (blockContext ip dataDir incident (s.blockTtlSecs ip))

/-- The first layer as `enforce` runs it. -/
def enforceXdp : LayerRun :=
  xdpLayer w cfg ip incident (blockContext ip dataDir incident (s.blockTtlSecs ip))
    (s.blockTtlSecs ip) s

theorem enforceXdp_run :
    XdpRun w cfg ip (blockContext ip dataDir incident (s.blockTtlSecs ip)) (s.blockTtlSecs ip) s
      (enforceXdp w cfg ip dataDir incident s) :=
  xdpLayer_run w cfg ip incident _ _ s

variable {w cfg ip skillId dataDir incident s}

theorem enforce_of_none (hfw : firewallSkillFor cfg skillId s.skillRegistry = none) :
    enforce w cfg ip skillId dataDir incident s = enforceXdp w cfg ip dataDir incident s := by
  simp only [enforce, firewallLayer]
  rw [(xdpLayer_run ..).sameRecords.skillRegistry, hfw]
  simp [enforceXdp]

theorem enforce_of_some {skill : ResponseSkill}
    (hfw : firewallSkillFor cfg skillId s.skillRegistry = some skill) :
    let ctx := blockContext ip dataDir incident (s.blockTtlSecs ip)
    let xdp := enforceXdp w cfg ip dataDir incident s
    enforce w cfg ip skillId dataDir incident s =
      { state := xdp.state
        layers := xdp.layers ++
          if (skill.execute ctx cfg.dryRun).result.success then [firewallLayerName cfg.blockBackend]
          else []
        effects := xdp.effects ++ [.skillExecuted skill.id ctx cfg.dryRun] } := by
  simp only [enforce, firewallLayer]
  rw [(xdpLayer_run ..).sameRecords.skillRegistry, hfw]
  rfl

theorem enforce_sameRecords :
    SameRecords s (enforce w cfg ip skillId dataDir incident s).state := by
  cases hfw : firewallSkillFor cfg skillId s.skillRegistry with
  | none => rw [enforce_of_none hfw]; exact (enforceXdp_run ..).sameRecords
  | some skill => rw [enforce_of_some hfw]; exact (enforceXdp_run ..).sameRecords

theorem enforce_layers_eq_nil_iff :
    (enforce w cfg ip skillId dataDir incident s).layers = [] ↔
      ¬ Applies w cfg ip skillId dataDir incident s := by
  rw [Applies, not_or, ← (enforceXdp_run ..).layers_eq_nil_iff]
  cases hfw : firewallSkillFor cfg skillId s.skillRegistry with
  | none =>
    rw [enforce_of_none hfw]
    simp [FirewallApplies, hfw]
  | some skill =>
    rw [enforce_of_some hfw]
    simp [FirewallApplies, hfw]

variable (w cfg ip skillId dataDir incident s) in
theorem enforce_bpfEntryAdded_mem_iff :
    (∃ target, .bpfEntryAdded target ∈ (enforce w cfg ip skillId dataDir incident s).effects) ↔
      ShieldWrites w ip s := by
  rw [← (enforceXdp_run w cfg ip dataDir incident s).bpfEntryAdded_mem_iff]
  cases hfw : firewallSkillFor cfg skillId s.skillRegistry with
  | none => rw [enforce_of_none hfw]
  | some skill =>
    rw [enforce_of_some hfw]
    simp

theorem mem_enforce_effects {e : BlockEffect}
    (hmem : e ∈ (enforce w cfg ip skillId dataDir incident s).effects) :
    (∃ id c, e = .skillExecuted id c cfg.dryRun) ∨ ∃ target, e = .bpfEntryAdded target := by
  cases hfw : firewallSkillFor cfg skillId s.skillRegistry with
  | none =>
    rw [enforce_of_none hfw] at hmem
    exact (enforceXdp_run ..).mem_effects hmem
  | some skill =>
    rw [enforce_of_some hfw] at hmem
    rcases List.mem_append.1 hmem with hmem | hmem
    · exact (enforceXdp_run ..).mem_effects hmem
    · exact .inl ⟨_, _, List.mem_singleton.1 hmem⟩

theorem enforce_dryRun_of_mem {id : String} {c : SkillContext} {dryRun : Bool}
    (hmem : .skillExecuted id c dryRun ∈ (enforce w cfg ip skillId dataDir incident s).effects) :
    dryRun = cfg.dryRun := by
  rcases mem_enforce_effects hmem with ⟨id', c', heq⟩ | ⟨target, heq⟩
  · cases heq
    rfl
  · cases heq

theorem enforce_isLayer_of_mem {e : BlockEffect}
    (hmem : e ∈ (enforce w cfg ip skillId dataDir incident s).effects) : e.IsLayer := by
  rcases mem_enforce_effects hmem with ⟨id, c, rfl⟩ | ⟨target, rfl⟩ <;> trivial

end Enforce

/-! ## The end of a call -/

section Conclude

variable {w : World} {cfg : AgentConfig} {ip : String} {decision : AiDecision}
  {incident : Incident} {ttlSecs : Int} {s : AgentState} {enforced : LayerRun}

@[simp] theorem meshLayer_state : (meshLayer ip decision incident ttlSecs s).state = s := by
  unfold meshLayer
  split <;> rfl

@[simp] theorem cloudflareLayer_state :
    (cloudflareLayer w cfg ip decision incident s).state = s := by
  unfold cloudflareLayer
  split <;> rfl

theorem abuseipdbLayer_state :
    (abuseipdbLayer w cfg ip decision incident s).state =
      { s with
          abuseipdbReportQueue :=
            (abuseipdbLayer w cfg ip decision incident s).state.abuseipdbReportQueue } := by
  unfold abuseipdbLayer
  split <;> rfl

theorem afterBlock_state :
    (afterBlock w cfg ip decision incident ttlSecs enforced).state =
      { enforced.state.recordBlocked w ip incident.incidentId ttlSecs enforced.layers with
          abuseipdbReportQueue :=
            (afterBlock w cfg ip decision incident ttlSecs
              enforced).state.abuseipdbReportQueue } := by
  simp only [afterBlock, meshLayer_state, cloudflareLayer_state]
  exact abuseipdbLayer_state

theorem conclude_of_nil (h : enforced.layers = []) :
    conclude w cfg ip decision incident ttlSecs enforced =
      { message := "skipped: no block skill available for " ++ ip
        cloudflarePushed := false
        state := enforced.state
        effects := enforced.effects } := by
  simp [conclude, h]

theorem conclude_of_ne_nil (h : enforced.layers ≠ []) :
    conclude w cfg ip decision incident ttlSecs enforced =
      afterBlock w cfg ip decision incident ttlSecs enforced := by
  simp [conclude, h]

theorem mem_effects_conclude {e : BlockEffect} (h : e ∈ enforced.effects) :
    e ∈ (conclude w cfg ip decision incident ttlSecs enforced).effects := by
  by_cases hlayers : enforced.layers = []
  · rw [conclude_of_nil hlayers]
    exact h
  · rw [conclude_of_ne_nil hlayers]
    simp [afterBlock, h]

theorem meshLayer_effects :
    (meshLayer ip decision incident ttlSecs s).effects =
      if s.mesh then [.meshBroadcast ip (incidentDetector incident.incidentId) decision.confidence
        decision.reason ttlSecs] else [] := by
  unfold meshLayer
  split <;> rfl

theorem cloudflareLayer_effects :
    (cloudflareLayer w cfg ip decision incident s).effects =
      (cloudflareRule w cfg ip decision incident s).toList.map (.cloudflareRulePushed ip) := by
  unfold cloudflareLayer
  split
  · next ruleId hrule => rw [hrule]; rfl
  · next hrule => rw [hrule]; rfl

theorem afterBlock_effects :
    (afterBlock w cfg ip decision incident ttlSecs enforced).effects =
      enforced.effects ++ [.blockedIpAppended ip] ++
        (if enforced.state.mesh then [.meshBroadcast ip (incidentDetector incident.incidentId)
          decision.confidence decision.reason ttlSecs] else []) ++
        (cloudflareRule w cfg ip decision incident enforced.state).toList.map
          (.cloudflareRulePushed ip) := by
  simp only [afterBlock, meshLayer_state, meshLayer_effects, cloudflareLayer_effects]
  rfl

theorem afterBlock_cloudflarePushed :
    (afterBlock w cfg ip decision incident ttlSecs enforced).cloudflarePushed =
      (cloudflareRule w cfg ip decision incident enforced.state).isSome := by
  simp only [afterBlock, meshLayer_state, cloudflareLayer]
  rw [show cloudflareRule w cfg ip decision incident
    (enforced.state.recordBlocked w ip incident.incidentId ttlSecs enforced.layers) =
      cloudflareRule w cfg ip decision incident enforced.state from rfl]
  cases cloudflareRule w cfg ip decision incident enforced.state <;> rfl

variable (w cfg ip decision incident ttlSecs) in
theorem meshBroadcast_mem_afterBlock_iff (hlayers : ∀ e ∈ enforced.effects, e.IsLayer) :
    (∃ target detector confidence evidence ttl, .meshBroadcast target detector confidence evidence
        ttl ∈ (afterBlock w cfg ip decision incident ttlSecs enforced).effects) ↔
      enforced.state.mesh = true := by
  have hno : ∀ target detector confidence evidence ttl,
      .meshBroadcast target detector confidence evidence ttl ∉ enforced.effects :=
    fun _ _ _ _ _ hmem => hlayers _ hmem
  cases hmesh : enforced.state.mesh <;> simp [afterBlock_effects, hmesh, hno]

variable (w cfg ip decision incident ttlSecs) in
theorem cloudflareRulePushed_mem_afterBlock_iff (hlayers : ∀ e ∈ enforced.effects, e.IsLayer) :
    (∃ target ruleId, .cloudflareRulePushed target ruleId ∈
        (afterBlock w cfg ip decision incident ttlSecs enforced).effects) ↔
      (cloudflareRule w cfg ip decision incident enforced.state).isSome = true := by
  have hno : ∀ target ruleId, .cloudflareRulePushed target ruleId ∉ enforced.effects :=
    fun _ _ hmem => hlayers _ hmem
  cases hrule : cloudflareRule w cfg ip decision incident enforced.state <;>
    cases enforced.state.mesh <;> simp [afterBlock_effects, hrule, hno]

theorem mem_afterBlock_of_isLayer {e : BlockEffect} (he : e.IsLayer)
    (hmem : e ∈ (afterBlock w cfg ip decision incident ttlSecs enforced).effects) :
    e ∈ enforced.effects := by
  rw [afterBlock_effects] at hmem
  cases e <;> first | exact he.elim | skip
  all_goals cases enforced.state.mesh <;> simpa using hmem

/-- What follows the enforcement layers leaves these records. -/
theorem conclude_frame :
    (conclude w cfg ip decision incident ttlSecs enforced).state.ipReputations =
        enforced.state.ipReputations ∧
      (conclude w cfg ip decision incident ttlSecs enforced).state.graphDecisions =
        enforced.state.graphDecisions ∧
      (conclude w cfg ip decision incident ttlSecs enforced).state.shield =
        enforced.state.shield := by
  by_cases hlayers : enforced.layers = []
  · rw [conclude_of_nil hlayers]
    exact ⟨rfl, rfl, rfl⟩
  · rw [conclude_of_ne_nil hlayers, afterBlock_state]
    exact ⟨rfl, rfl, rfl⟩

end Conclude

end Innerwarden

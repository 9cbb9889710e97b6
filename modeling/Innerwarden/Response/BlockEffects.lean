import Innerwarden.Response.BlockRuns

/-!
# What a block decision does

* `noBlock_of_refused_iff`: a target the stateless gate refuses can still be blocked, since the
  decision does not ask the allowlist.  In the `Idle` states no layer has anything left to do.
* `enforcesNothing_of_dryRun_iff`: when a dry run touches nothing outside.  The flag goes to the
  skills only.
-/

namespace Innerwarden

/-! ## The stateless gate and the decision -/

/-- Nothing has been blocked. -/
structure NoBlock (s : AgentState) (e : Execution) : Prop where
  noSkill : ∀ id ctx dryRun, .skillExecuted id ctx dryRun ∉ e.effects
  shield : e.state.shield.map XdpManager.blocklist = s.shield.map XdpManager.blocklist
  blocklist : e.state.blocklist = s.blocklist
  lifecycle : e.state.responseLifecycle = s.responseLifecycle
  noRule : ∀ target ruleId, .cloudflareRulePushed target ruleId ∉ e.effects
  noBroadcast : ∀ target detector confidence evidence ttlSecs,
    .meshBroadcast target detector confidence evidence ttlSecs ∉ e.effects

theorem Quiet.noBlock {s : AgentState} {e : Execution} (h : Quiet s e) : NoBlock s e :=
  ⟨by simp [h.effects], by rw [h.shield], h.blocklist, h.lifecycle, by simp [h.effects],
    by simp [h.effects]⟩

theorem NoBlock.congr {s s' : AgentState} {e : Execution} (h : NoBlock s e)
    (hshield : s'.shield = s.shield) (hblocklist : s'.blocklist = s.blocklist)
    (hlifecycle : s'.responseLifecycle = s.responseLifecycle) : NoBlock s' e :=
  ⟨h.noSkill, by rw [h.shield, hshield], by rw [h.blocklist, hblocklist],
    by rw [h.lifecycle, hlifecycle], h.noRule, h.noBroadcast⟩

section Idle

variable (w : World) (cfg : AgentConfig) (ip : String) (decision : AiDecision)
  (incident : Incident) (ttlSecs : Int) (s : AgentState)

/-- The first layer has nothing left to do: it is not tried, nothing is there to do it, or
the shield and every record have the address already and nobody is to be told. -/
def Idle : Prop :=
  shouldAttemptXdp w s = false ∨
    match s.shield with
    | none => s.skillRegistry.get "block-ip-xdp" = none
    | some m =>
      if m.isBlocked ip = true then
        ip ∈ s.blocklist ∧ s.responseLifecycle.isTracked ip .xdp = true ∧ s.mesh = false ∧
          cloudflareRule w cfg ip decision incident s = none
      else m.dryRun = false ∧ (∃ e, m.updateMap w ip = .error e) ∧
        s.skillRegistry.get "block-ip-xdp" = none

variable {w cfg ip decision incident ttlSecs s}

theorem registerLayer_xdp_eq_self_iff (incidentId : String) (lc : ResponseLifecycle) :
    registerLayer w ip incidentId ttlSecs lc "XDP" = lc ↔ lc.isTracked ip .xdp = true := by
  simp only [registerLayer, layerBackend]
  cases htracked : lc.isTracked ip .xdp with
  | true => simp [htracked]
  | false =>
    simp only [String.reduceEq, if_false, if_true, htracked, Bool.false_eq_true, iff_false]
    intro h
    have hlen := congrArg (fun lc => lc.active.length) h
    simp [ResponseLifecycle.register] at hlen

/-- Where the shield has the address already, what is left are the records and the messages. -/
theorem noBlock_conclude_listed_iff :
    NoBlock s (conclude w cfg ip decision incident ttlSecs
        { state := s.markXdpBlocked w ip ttlSecs, layers := ["XDP"] }) ↔
      ip ∈ s.blocklist ∧ s.responseLifecycle.isTracked ip .xdp = true ∧ s.mesh = false ∧
        cloudflareRule w cfg ip decision incident s = none := by
  rw [conclude_of_ne_nil (List.cons_ne_nil _ _)]
  have hrule : cloudflareRule w cfg ip decision incident (s.markXdpBlocked w ip ttlSecs) =
      cloudflareRule w cfg ip decision incident s := rfl
  have hmesh : (s.markXdpBlocked w ip ttlSecs).mesh = s.mesh := rfl
  constructor
  · rintro ⟨-, -, hblocklist, hlifecycle, hnoRule, hnoBroadcast⟩
    rw [afterBlock_state] at hblocklist hlifecycle
    refine ⟨Finset.insert_eq_self.1 hblocklist,
      (registerLayer_xdp_eq_self_iff _ _).1 hlifecycle, ?_, ?_⟩
    · cases hs : s.mesh with
      | false => rfl
      | true =>
        simp [afterBlock_effects, hmesh, hs] at hnoBroadcast
        exact absurd rfl (hnoBroadcast _ _ _ _ _ rfl rfl rfl rfl)
    · cases hs : cloudflareRule w cfg ip decision incident s with
      | none => rfl
      | some ruleId => simp [afterBlock_effects, hrule, hs] at hnoRule
  · rintro ⟨hblocklist, htracked, hnoMesh, hnoRule⟩
    refine ⟨?_, ?_, ?_, ?_, ?_, ?_⟩
    · simp [afterBlock_effects, hmesh, hnoMesh, hrule, hnoRule]
    · rw [afterBlock_state]; rfl
    · rw [afterBlock_state]; exact Finset.insert_eq_self.2 hblocklist
    · rw [afterBlock_state]
      exact (registerLayer_xdp_eq_self_iff _ _).2 htracked
    · simp [afterBlock_effects, hmesh, hnoMesh, hrule, hnoRule]
    · simp [afterBlock_effects, hmesh, hnoMesh, hrule, hnoRule]

theorem noBlock_conclude_of_nothing {state : AgentState}
    (hstate : state = s ∨ state = s.markXdpFailed w) :
    NoBlock s (conclude w cfg ip decision incident ttlSecs { state := state }) := by
  rw [conclude_of_nil rfl]
  rcases hstate with rfl | rfl <;> exact Quiet.noBlock ⟨rfl, rfl, rfl, rfl, rfl⟩

theorem not_noBlock_conclude_of_mem {enforced : LayerRun} {id : String} {ctx : SkillContext}
    {dryRun : Bool} (hmem : .skillExecuted id ctx dryRun ∈ enforced.effects) :
    ¬ NoBlock s (conclude w cfg ip decision incident ttlSecs enforced) :=
  fun h => h.noSkill id ctx dryRun (mem_effects_conclude hmem)

theorem not_noBlock_conclude_of_shield {enforced : LayerRun} {m : XdpManager}
    {entry : BlocklistEntry} (hm : s.shield = some m)
    (hshield : enforced.state.shield = some { m with blocklist := m.blocklist ++ [entry] }) :
    ¬ NoBlock s (conclude w cfg ip decision incident ttlSecs enforced) := by
  intro h
  have hlist := h.shield
  rw [conclude_frame.2.2, hshield, hm] at hlist
  simp at hlist

theorem not_shieldAccepts_iff {m : XdpManager} (hm : s.shield = some m) :
    ¬ ShieldAccepts w ip s ↔
      m.isBlocked ip = false ∧ m.dryRun = false ∧ ∃ e, m.updateMap w ip = .error e := by
  rw [ShieldAccepts]
  cases hupdate : m.updateMap w ip with
  | ok u => simp [hm, hupdate]
  | error e => simp [hm, hupdate]

theorem idle_iff_of_refuses (htry : shouldAttemptXdp w s = true)
    (hrefuses : ¬ ShieldAccepts w ip s) :
    Idle w cfg ip decision incident s ↔ s.skillRegistry.get "block-ip-xdp" = none := by
  cases hm : s.shield with
  | none => simp [Idle, htry, hm]
  | some m =>
    obtain ⟨hnew, hdry, herror⟩ := (not_shieldAccepts_iff hm).1 hrefuses
    simp [Idle, htry, hm, hnew, hdry, herror]

/-- The first layer blocks nothing if and only if it has nothing left to do. -/
theorem XdpRun.noBlock_iff_idle {ctx : SkillContext} {ttlSecs : Int} {run : LayerRun}
    (h : XdpRun w cfg ip ctx ttlSecs s run) :
    NoBlock s (conclude w cfg ip decision incident ttlSecs run) ↔
      Idle w cfg ip decision incident s := by
  cases h with
  | skipped hskip =>
    exact iff_of_true (noBlock_conclude_of_nothing (.inl rfl)) (.inl hskip)
  | listed m htry hm hlisted =>
    rw [noBlock_conclude_listed_iff]
    simp [Idle, htry, hm, hlisted]
  | added m entry effects htry hm hnew hadd =>
    refine iff_of_false (not_noBlock_conclude_of_shield hm rfl) ?_
    rcases hadd with ⟨hdry, -⟩ | ⟨-, hupdate, -⟩
    · simp [Idle, htry, hm, hnew, hdry]
    · simp [Idle, htry, hm, hnew, hupdate]
  | unavailable state htry hrefuses hget hstate =>
    exact iff_of_true (noBlock_conclude_of_nothing hstate)
      ((idle_iff_of_refuses htry hrefuses).2 hget)
  | ranSucceeded skill htry hrefuses hget hresult | ranFailed skill htry hrefuses hget hresult =>
    refine iff_of_false (not_noBlock_conclude_of_mem (List.mem_singleton.2 rfl)) ?_
    simp [idle_iff_of_refuses htry hrefuses, hget]

variable (w cfg ip decision incident s)

/-- The layers block nothing if and only if there is no firewall skill and the first layer
has nothing left to do. -/
theorem noBlock_enforce_iff (skillId dataDir : String) :
    NoBlock s (conclude w cfg ip decision incident (s.blockTtlSecs ip)
        (enforce w cfg ip skillId dataDir incident s)) ↔
      firewallSkillFor cfg skillId s.skillRegistry = none ∧ Idle w cfg ip decision incident s := by
  cases hfw : firewallSkillFor cfg skillId s.skillRegistry with
  | none =>
    rw [enforce_of_none hfw, (enforceXdp_run ..).noBlock_iff_idle]
    simp
  | some skill =>
    rw [enforce_of_some hfw]
    refine iff_of_false (not_noBlock_conclude_of_mem
      (List.mem_append_right _ (List.mem_singleton.2 rfl))) (by simp)

theorem noBlock_applyLayers_iff (skillId dataDir : String) :
    NoBlock s (applyLayers w cfg ip skillId dataDir decision incident (s.entering w cfg)) ↔
      firewallSkillFor cfg skillId s.skillRegistry = none ∧ Idle w cfg ip decision incident s := by
  obtain ⟨store, hentering⟩ := entering_eq w cfg s
  let start : AgentState :=
    { s with
        recentBlocks := (s.pruneRecentBlocks (w.clock .start)).recentBlocks ++ [w.clock .start]
        sqliteStore := store }
  have henforce := noBlock_enforce_iff w cfg ip decision incident start skillId dataDir
  rw [hentering]
  exact ⟨fun h => henforce.1 (h.congr rfl rfl rfl), fun h => (henforce.2 h).congr rfl rfl rfl⟩

variable {w cfg ip s} in
theorem refused_of_isIpAllowlisted (hallow : isIpAllowlisted ip cfg.trustedIps = true) :
    ∃ refusal, gateBlockIp ip cfg.trustedIps = .error refusal := by
  cases hgate : gateBlockIp ip cfg.trustedIps with
  | error refusal => exact ⟨refusal, rfl⟩
  | ok gate => simp [(gateBlockIp_eq_ok_iff.1 hgate).2.2.1] at hallow

variable {w cfg ip s} in
theorem isIpAllowlisted_of_refused (helig : eligibility w ip s = .ok ())
    (hrefused : ∃ refusal, gateBlockIp ip cfg.trustedIps = .error refusal) :
    isIpAllowlisted ip cfg.trustedIps = true := by
  obtain ⟨refusal, hrefusal⟩ := hrefused
  obtain ⟨hvalid, hlabel⟩ := valid_of_checkBlockEligibility helig
  cases hallow : isIpAllowlisted ip cfg.trustedIps with
  | true => rfl
  | false =>
    have hcloud : isCloudProviderIp ip = false := by rw [← isSome_safelistLabel, hlabel]; rfl
    have hok := gateBlockIp_eq_ok_iff.2 ⟨rfl, hvalid, hallow, hcloud⟩
    rw [hrefusal] at hok
    cases hok

/-- A decision blocks nothing that the stateless gate refuses if and only if it has nothing
left to do for a target of the allowlist that passes its gates. -/
theorem noBlock_of_refused_iff (skillId dataDir : String) (other : AiAction → Execution) :
    ((∃ refusal, gateBlockIp ip cfg.trustedIps = .error refusal) →
        NoBlock s (executeDecision w cfg dataDir { decision with action := .blockIp ip skillId }
          incident other s)) ↔
      (isIpAllowlisted ip cfg.trustedIps = true → isSingleIpBlockTarget ip = true →
        PassesGates w cfg ip skillId incident s →
          firewallSkillFor cfg skillId s.skillRegistry = none ∧
            Idle w cfg ip decision incident s) := by
  simp only [executeDecision]
  split
  · next hsingle =>
    refine iff_of_true (fun _ => Quiet.noBlock ⟨rfl, rfl, rfl, rfl, rfl⟩) ?_
    simp [hsingle]
  · next hsingle =>
    have hrun := executeBlockIpDecision_run w cfg ip skillId dataDir
      { decision with action := .blockIp ip skillId } incident s
    constructor
    · intro h hallow _ hpasses
      have hno := h (refused_of_isIpAllowlisted hallow)
      rw [hrun.eq_applyLayers hpasses, noBlock_applyLayers_iff] at hno
      exact hno
    · intro h hrefused
      by_cases hpasses : PassesGates w cfg ip skillId incident s
      · rw [hrun.eq_applyLayers hpasses, noBlock_applyLayers_iff]
        exact h (isIpAllowlisted_of_refused hpasses.eligible hrefused)
          (Bool.not_eq_false _ ▸ hsingle) hpasses
      · exact (hrun.quiet_of_not_passes hpasses).noBlock

end Idle

/-! ### A trusted address -/

/-- The trusted address is blocked. -/
theorem trusted_address_blocked :
    gateBlockIp "2001:db8::7" trustingConfig.trustedIps = .error (.trustedIp "2001:db8::7") ∧
      ¬ NoBlock freshState (executeDecision readyWorld trustingConfig "/var/lib/innerwarden"
        ⟨.blockIp "2001:db8::7" "block-ip-ufw", 0, true, "", [], ""⟩ bareIncident
        (fun _ => ⟨"", false, freshState, [], [], false⟩) freshState) := by
  refine ⟨by decide +kernel, ?_⟩
  intro h
  exact absurd h.blocklist (by decide +kernel)

/-! ## Dry runs -/

/-- Nothing outside has been changed: no entry of the kernel's map, no skill but in a dry
run, no rule at Cloudflare, no message to the mesh, no report. -/
structure EnforcesNothing (s : AgentState) (e : Execution) : Prop where
  noEntry : ∀ target, .bpfEntryAdded target ∉ e.effects
  dryRun : ∀ id ctx flag, .skillExecuted id ctx flag ∈ e.effects → flag = true
  noRule : ∀ target ruleId, .cloudflareRulePushed target ruleId ∉ e.effects
  noBroadcast : ∀ target detector confidence evidence ttlSecs,
    .meshBroadcast target detector confidence evidence ttlSecs ∉ e.effects
  noReport : e.state.abuseipdbReportQueue = s.abuseipdbReportQueue

section DryRun

variable (w : World) (cfg : AgentConfig) (ip : String) (decision : AiDecision)
  (incident : Incident) (s : AgentState)

/-- Nobody is told of a block: there is no mesh, Cloudflare gets no rule, and blocks are not
reported. -/
structure Silent : Prop where
  noMesh : s.mesh = false
  noRule : cloudflareRule w cfg ip decision incident s = none
  noReport : (cfg.abuseipdbEnabled && cfg.abuseipdbReportBlocks) = false

theorem Quiet.enforcesNothing {s : AgentState} {e : Execution} (h : Quiet s e) :
    EnforcesNothing s e :=
  ⟨by simp [h.effects], by simp [h.effects], by simp [h.effects], by simp [h.effects], h.queue⟩

/-- Of the state before only the queue is compared. -/
theorem EnforcesNothing.congr {s s' : AgentState} {e : Execution} (h : EnforcesNothing s e)
    (hqueue : s'.abuseipdbReportQueue = s.abuseipdbReportQueue) : EnforcesNothing s' e :=
  ⟨h.noEntry, h.dryRun, h.noRule, h.noBroadcast, by rw [h.noReport, hqueue]⟩

theorem silent_iff_of_sameRecords {s' : AgentState} (h : SameRecords s s') :
    Silent w cfg ip decision incident s' ↔ Silent w cfg ip decision incident s := by
  have hrule : cloudflareRule w cfg ip decision incident s' =
      cloudflareRule w cfg ip decision incident s := by
    simp only [cloudflareRule, h.cloudflareClient]
  constructor
  · rintro ⟨hmesh, hnone, hreport⟩
    exact ⟨h.mesh ▸ hmesh, hrule ▸ hnone, hreport⟩
  · rintro ⟨hmesh, hnone, hreport⟩
    exact ⟨h.mesh ▸ hmesh, hrule ▸ hnone, hreport⟩

theorem afterBlock_queue_eq_iff (ttlSecs : Int) (enforced : LayerRun) :
    (afterBlock w cfg ip decision incident ttlSecs enforced).state.abuseipdbReportQueue =
        enforced.state.abuseipdbReportQueue ↔
      (cfg.abuseipdbEnabled && cfg.abuseipdbReportBlocks) = false := by
  simp only [afterBlock, meshLayer_state, cloudflareLayer_state, abuseipdbLayer]
  split
  · next hon => simp [hon, AgentState.recordBlocked]
  · next hoff => simp [hoff, AgentState.recordBlocked]

/-- After a successful block nothing has been enforced if and only if the layers have not
done so and nobody is told. -/
theorem enforcesNothing_afterBlock_iff (ttlSecs : Int) {enforced : LayerRun}
    (hlayers : ∀ e ∈ enforced.effects, e.IsLayer)
    (hflag : ∀ id ctx flag, .skillExecuted id ctx flag ∈ enforced.effects → flag = true) :
    EnforcesNothing enforced.state (afterBlock w cfg ip decision incident ttlSecs enforced) ↔
      (∀ target, .bpfEntryAdded target ∉ enforced.effects) ∧
        Silent w cfg ip decision incident enforced.state := by
  have hmesh := meshBroadcast_mem_afterBlock_iff w cfg ip decision incident ttlSecs hlayers
  have hrule := cloudflareRulePushed_mem_afterBlock_iff w cfg ip decision incident ttlSecs hlayers
  have hqueue := afterBlock_queue_eq_iff w cfg ip decision incident ttlSecs enforced
  constructor
  · rintro ⟨hnoEntry, -, hnoRule, hnoBroadcast, hnoReport⟩
    refine ⟨?_, ?_, ?_, hqueue.1 hnoReport⟩
    · intro target hmem
      exact hnoEntry target (by simp [afterBlock_effects, hmem])
    · rw [← Bool.not_eq_true, ← hmesh]
      rintro ⟨target, detector, confidence, evidence, ttl, hmem⟩
      exact hnoBroadcast target detector confidence evidence ttl hmem
    · rw [← Option.not_isSome_iff_eq_none, ← hrule]
      rintro ⟨target, ruleId, hmem⟩
      exact hnoRule target ruleId hmem
  · rintro ⟨hnoEntry, hnoMesh, hnoRule, hnoReport⟩
    refine ⟨?_, ?_, ?_, ?_, hqueue.2 hnoReport⟩
    · intro target hmem
      exact hnoEntry target (mem_afterBlock_of_isLayer trivial hmem)
    · intro id ctx flag hmem
      exact hflag id ctx flag (mem_afterBlock_of_isLayer trivial hmem)
    · intro target ruleId hmem
      simpa [hnoRule] using hrule.1 ⟨target, ruleId, hmem⟩
    · intro target detector confidence evidence ttl hmem
      simpa [hnoMesh] using hmesh.1 ⟨target, detector, confidence, evidence, ttl, hmem⟩

/-- The layers, in a dry run, enforce nothing if and only if the shield writes no entry and
nobody is told when a layer succeeds. -/
theorem enforcesNothing_enforce_iff (skillId dataDir : String) (hdry : cfg.dryRun = true) :
    EnforcesNothing s (conclude w cfg ip decision incident (s.blockTtlSecs ip)
        (enforce w cfg ip skillId dataDir incident s)) ↔
      ¬ ShieldWrites w ip s ∧
        (Applies w cfg ip skillId dataDir incident s → Silent w cfg ip decision incident s) := by
  have hsame : SameRecords s (enforce w cfg ip skillId dataDir incident s).state :=
    enforce_sameRecords
  have hlayers : ∀ e ∈ (enforce w cfg ip skillId dataDir incident s).effects, e.IsLayer :=
    fun e => enforce_isLayer_of_mem
  have hflag : ∀ id ctx flag, .skillExecuted id ctx flag ∈
      (enforce w cfg ip skillId dataDir incident s).effects → flag = true :=
    fun id ctx flag hmem => (enforce_dryRun_of_mem hmem).trans hdry
  have hnil : (enforce w cfg ip skillId dataDir incident s).layers = [] ↔ _ :=
    enforce_layers_eq_nil_iff
  rw [← enforce_bpfEntryAdded_mem_iff w cfg ip skillId dataDir incident s, not_exists]
  generalize enforce w cfg ip skillId dataDir incident s = enforced at *
  by_cases happlies : Applies w cfg ip skillId dataDir incident s
  · have hafter := enforcesNothing_afterBlock_iff w cfg ip decision incident (s.blockTtlSecs ip)
      hlayers hflag
    rw [silent_iff_of_sameRecords w cfg ip decision incident s hsame] at hafter
    rw [conclude_of_ne_nil fun h => hnil.1 h happlies]
    simp only [happlies, forall_const]
    exact ⟨fun h => hafter.1 (h.congr hsame.abuseipdbReportQueue),
      fun h => (hafter.2 h).congr hsame.abuseipdbReportQueue.symm⟩
  · rw [conclude_of_nil (hnil.2 happlies)]
    constructor
    · exact fun h => ⟨h.noEntry, fun h => absurd h happlies⟩
    · rintro ⟨hnoEntry, -⟩
      exact ⟨hnoEntry, hflag, fun _ _ hmem => hlayers _ hmem, fun _ _ _ _ _ hmem => hlayers _ hmem,
        hsame.abuseipdbReportQueue⟩

theorem enforcesNothing_applyLayers_iff (skillId dataDir : String) (hdry : cfg.dryRun = true) :
    EnforcesNothing s (applyLayers w cfg ip skillId dataDir decision incident (s.entering w cfg)) ↔
      ¬ ShieldWrites w ip s ∧
        (Applies w cfg ip skillId dataDir incident s → Silent w cfg ip decision incident s) := by
  obtain ⟨store, hentering⟩ := entering_eq w cfg s
  let start : AgentState :=
    { s with
        recentBlocks := (s.pruneRecentBlocks (w.clock .start)).recentBlocks ++ [w.clock .start]
        sqliteStore := store }
  have henforce := enforcesNothing_enforce_iff w cfg ip decision incident start skillId dataDir hdry
  have hsilent : Silent w cfg ip decision incident start ↔ Silent w cfg ip decision incident s :=
    silent_iff_of_sameRecords w cfg ip decision incident s ⟨rfl, rfl, rfl, rfl, rfl, rfl, rfl, rfl⟩
  rw [hsilent] at henforce
  rw [hentering]
  exact ⟨fun h => henforce.1 (h.congr rfl), fun h => (henforce.2 h).congr rfl⟩

/-- In a dry run a decision enforces nothing if and only if, when it passes the gates, the
shield writes no entry and nobody is told when a layer succeeds. -/
theorem enforcesNothing_of_dryRun_iff (skillId dataDir : String) :
    (cfg.dryRun = true →
        EnforcesNothing s (executeBlockIpDecision w cfg ip skillId dataDir decision incident s)) ↔
      (cfg.dryRun = true → PassesGates w cfg ip skillId incident s →
        ¬ ShieldWrites w ip s ∧
          (Applies w cfg ip skillId dataDir incident s → Silent w cfg ip decision incident s)) := by
  have hrun := executeBlockIpDecision_run w cfg ip skillId dataDir decision incident s
  refine forall_congr' fun hdry => ?_
  by_cases hpasses : PassesGates w cfg ip skillId incident s
  · rw [hrun.eq_applyLayers hpasses, enforcesNothing_applyLayers_iff _ _ _ _ _ _ _ _ hdry]
    simp [hpasses]
  · exact iff_of_true (hrun.quiet_of_not_passes hpasses).enforcesNothing
      fun h => absurd h hpasses

end DryRun

/-! ### A dry run with a shield -/

def dryConfig : AgentConfig := { trustingConfig with dryRun := true }

/-- The fresh state with a shield that is not itself in a dry run. -/
def shieldedState : AgentState :=
  { freshState with shield := some ⟨"/sys/fs/bpf/innerwarden", "bpftool", [], false⟩ }

/-- The shield writes its entry. -/
theorem dry_run_writes_entry :
    dryConfig.dryRun = true ∧
      ¬ EnforcesNothing shieldedState
        (executeBlockIpDecision readyWorld dryConfig "2001:db8::9" "block-ip-ufw"
          "/var/lib/innerwarden" ⟨.blockIp "2001:db8::9" "block-ip-ufw", 0, true, "", [], ""⟩
          bareIncident shieldedState) := by
  refine ⟨rfl, ?_⟩
  have hpasses : PassesGates readyWorld dryConfig "2001:db8::9" "block-ip-ufw" bareIncident
      shieldedState :=
    ⟨rfl, by simp [BreakerTripped, shieldedState, freshState], by decide +kernel,
      by decide +kernel⟩
  have hwrites : ShieldWrites readyWorld "2001:db8::9" shieldedState :=
    ⟨by decide, _, rfl, rfl, rfl, by decide +kernel⟩
  rw [(executeBlockIpDecision_run ..).eq_applyLayers hpasses,
    enforcesNothing_applyLayers_iff _ _ _ _ _ _ _ _ rfl]
  exact fun h => h.1 hwrites

end Innerwarden

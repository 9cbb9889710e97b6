import Innerwarden.Lib.StateMachine
import Innerwarden.Response.BlockGate

/-!
# Dispatching a playbook step

`RegistryStepExecutor` of `crates/agent/src/playbook_engine/executor.rs` and the virtual skills
of `virtual_skills.rs`.  A virtual skill is handled by the executor; `block_subnet` runs the
skill `block-ip-xdp` on each host of a network.  Any other name is looked up in the registry
with hyphens for its underscores.  When the name as written begins with `block_ip_`, the gate
stands before the skill.

A dispatch leaves its result and the calls of the gate and of the skills, in order.  `Floored`
says that no block skill has run ungated.

`serde_yaml` values are a type of their own.  The total of a metric and the outcome of a ticket
are parameters.
-/

namespace Innerwarden.Playbook

open Text List

/-! ## YAML values -/

/-- `serde_yaml::Value`. -/
inductive Yaml where
  | null
  | bool (b : Bool)
  | int (n : Int)
  | float (bits : UInt64)
  | string (s : String)
  | sequence (items : List Yaml)
  | mapping (entries : List (Yaml × Yaml))
  | tagged (tag : String) (v : Yaml)

namespace Yaml

/-- `Value::untag_ref`. -/
def untag : Yaml → Yaml
  | .tagged _ v => v.untag
  | v => v

def asStr (v : Yaml) : Option String :=
  match v.untag with
  | .string s => some s
  | _ => none

def asU64 (v : Yaml) : Option Nat :=
  match v.untag with
  | .int n => if 0 ≤ n then some n.toNat else none
  | _ => none

def lookup (key : String) : List (Yaml × Yaml) → Option Yaml
  | [] => none
  | (.string k, v) :: rest => if k = key then some v else lookup key rest
  | _ :: rest => lookup key rest

/-- `Value::get` at a string. -/
def get (v : Yaml) (key : String) : Option Yaml :=
  match v.untag with
  | .mapping entries => lookup key entries
  | _ => none

/-- `args.get(key).and_then(as_str)`. -/
def str (v : Yaml) (key : String) : Option String := (v.get key).bind asStr

/-- `args.get(key).and_then(as_u64)`. -/
def u64 (v : Yaml) (key : String) : Option Nat := (v.get key).bind asU64

end Yaml

/-! ## Steps -/

/-- How a step ended. -/
inductive StepStatus where
  | success
  | failed
  | refused
  | skipped
  | deferred
  | queued
deriving DecidableEq

/-- The result of a step. -/
structure StepRunResult where
  status : StepStatus
  message : String

/-- A step, with the target of the playbook. -/
structure DispatchCall where
  skill : String
  stepId : String
  args : Yaml
  primaryIp : Option String
  primaryUser : Option String

/-- `PlaybookCommand`: a side effect queued for the incident loop. -/
inductive PlaybookCommand where
  | routeAlert (stepId : String) (destination severityOverride : Option String)
  | capturePcap (stepId targetIp : String)
  | setTag (stepId targetIp tag : String)

/-- A call the executor makes. -/
inductive DispatchEvent where
  /-- `gate_block_ip` on a target, with its answer. -/
  | gateCalled (ip : String) (answer : Except BlockGateRefusal GatedBlockIp)
  /-- `execute` of the skill of that id on a context. -/
  | skillExecuted (id : String) (ctx : SkillContext) (dryRun : Bool)

/-- What a dispatch comes to. -/
structure Dispatch where
  result : StepRunResult
  events : List DispatchEvent := []
  commands : List PlaybookCommand := []

/-- What the executor meets outside. -/
structure Outside where
  /-- The total of a metric after it has been increased. -/
  emitCounter : String → Nat → Nat
  /-- `run_open_ticket`. -/
  openTicket : Yaml → StepRunResult

/-- What runs the steps. -/
structure RegistryStepExecutor where
  registry : SkillRegistry
  trustedIps : List String
  dryRun : Bool
  host : String
  dataDir : String
  baseIncident : Incident

def isVirtualSkill (skill : String) : Bool :=
  decide (skill ∈ ["route_alert", "capture_pcap", "open_ticket", "wait", "emit_metric", "set_tag",
    "block_subnet"])

def registryId (skill : String) : String :=
  String.ofList (skill.toList.map fun c => if c = '_' then '-' else c)

def stepResult (r : SkillResult) : StepRunResult :=
  ⟨if r.success then .success else .failed, r.message⟩

/-- `ttl_secs`, or else `duration_secs`. -/
def durationArg (args : Yaml) : Option Nat := (args.u64 "ttl_secs").or (args.u64 "duration_secs")

/-- `str_arg`: a text that is not empty. -/
def strArg (args : Yaml) (key : String) : Option String := (args.str key).filter (· ≠ "")

/-! ## Virtual skills -/

/-- `wait_ms_from_args`, with the product saturated at the largest `u64`. -/
def waitMsFromArgs (args : Yaml) : Except String Nat :=
  let secs := ((args.get "secs").or ((args.get "seconds").or (args.get "duration_secs"))).bind
    Yaml.asU64
  match args.u64 "ms", secs with
  | some ms, _ => .ok (min ms 3600000)
  | none, some secs => .ok (min (min (secs * 1000) (2 ^ 64 - 1)) 3600000)
  | none, none => .error "wait: missing 'secs' or 'ms' argument"

def runWait (args : Yaml) : StepRunResult :=
  match waitMsFromArgs args with
  | .ok ms => ⟨.success, s!"waited {ms}ms"⟩
  | .error msg => ⟨.failed, msg⟩

def runEmitMetric (out : Outside) (args : Yaml) : StepRunResult :=
  match args.str "name" with
  | none => ⟨.failed, "emit_metric: missing 'name' argument"⟩
  | some "" => ⟨.failed, "emit_metric: 'name' is empty"⟩
  | some name =>
    let amount := (((args.get "value").or (args.get "by")).bind Yaml.asU64).getD 1
    let total := out.emitCounter name amount
    ⟨.success, s!"metric {name} += {amount} (total {total})"⟩

def queueRouteAlert (stepId : String) (args : Yaml) : Dispatch :=
  let destination := strArg args "destination"
  let suffix := match destination with
    | some d => " (destination=" ++ d ++ ")"
    | none => ""
  { result := ⟨.queued, "route_alert queued" ++ suffix⟩
    commands := [.routeAlert stepId destination (strArg args "severity_override")] }

def queueCapturePcap (stepId : String) (args : Yaml) (primaryIp : Option String) : Dispatch :=
  match (strArg args "target_ip").or primaryIp with
  | none => { result := ⟨.failed, "capture_pcap: no target IP in incident or args"⟩ }
  | some targetIp =>
    { result := ⟨.queued, s!"capture_pcap queued for {targetIp}"⟩
      commands := [.capturePcap stepId targetIp] }

def queueSetTag (stepId : String) (args : Yaml) (primaryIp : Option String) : Dispatch :=
  match strArg args "tag" with
  | none => { result := ⟨.failed, "set_tag: missing 'tag' argument"⟩ }
  | some tag =>
    match (strArg args "target_ip").or primaryIp with
    | none => { result := ⟨.failed, "set_tag: no target IP in incident or args"⟩ }
    | some targetIp =>
      { result := ⟨.queued, s!"set_tag '{tag}' queued for {targetIp}"⟩
        commands := [.setTag stepId targetIp tag] }

def maxSubnetHosts : Nat := 256

/-- The addresses of the network of an address, for either family.  The name of the family
stands in the error. -/
def enumerateHosts {w : Nat} (family : String) (wrap : BitVec w → IpAddr) (bits : BitVec w)
    (p : Nat) : Except String (List IpAddr) :=
  if w < p then .error s!"prefix_len {p} out of range for {family} (max {w})"
  else if w ≤ w - p ∨ maxSubnetHosts < 2 ^ (w - p) then
    .error s!"prefix_len {p} too wide (> {maxSubnetHosts} hosts); narrow it"
  else
    let base := bits &&& prefixMask w p
    .ok ((List.range (2 ^ (w - p))).map fun i => wrap (base + BitVec.ofNat w i))

def enumerateSubnet : IpAddr → Option Nat → Except String (List IpAddr)
  | .v4 bits, prefixLen => enumerateHosts "IPv4" .v4 bits (prefixLen.getD 24)
  | .v6 bits, prefixLen => enumerateHosts "IPv6" .v6 bits (prefixLen.getD 120)

/-- The counters of `run_block_subnet`. -/
structure SubnetTally where
  blocked : Nat
  gated : Nat
  failed : Nat
  firstFailure : Option String

namespace RegistryStepExecutor

variable (x : RegistryStepExecutor)

def hostContext (durationSecs : Option Nat) (hostText : String) : SkillContext where
  incident := x.baseIncident
  targetIp := some hostText
  targetUser := none
  targetContainer := none
  durationSecs := durationSecs
  host := x.host
  dataDir := x.dataDir

/-- One turn of the loop of `run_block_subnet`. -/
def blockHost (skill : ResponseSkill) (durationSecs : Option Nat) (tally : SubnetTally)
    (hostText : String) : SubnetTally × List DispatchEvent :=
  let answer := gateBlockIp hostText x.trustedIps
  match answer with
  | .error _ => ({ tally with gated := tally.gated + 1 }, [.gateCalled hostText answer])
  | .ok gate =>
    let ctx := x.hostContext durationSecs hostText
    match executeBlockSkillGated skill ctx x.dryRun gate with
    | (run, r) =>
      let events := match run with
        | some _ => [.skillExecuted skill.id ctx x.dryRun]
        | none => []
      let tally :=
        if r.success then { tally with blocked := tally.blocked + 1 }
        else { tally with
                failed := tally.failed + 1
                firstFailure := tally.firstFailure.or (some r.message) }
      (tally, .gateCalled hostText answer :: events)

/-- The loop of `run_block_subnet`. -/
def blockHosts (skill : ResponseSkill) (durationSecs : Option Nat) :
    SubnetTally → List String → SubnetTally × List DispatchEvent
  | tally, [] => (tally, [])
  | tally, hostText :: rest =>
    let (tally, events) := x.blockHost skill durationSecs tally hostText
    let (tally, later) := blockHosts skill durationSecs tally rest
    (tally, events ++ later)

/-- The message of a finished `run_block_subnet`. -/
def subnetResult (baseIp : String) (hosts : Nat) (t : SubnetTally) : StepRunResult :=
  if 0 < t.failed then
    ⟨.failed, "block_subnet " ++ baseIp ++ ": " ++ toString t.blocked ++ " blocked, " ++
      toString t.gated ++ " gated, " ++ toString t.failed ++ " failed (first: " ++
      t.firstFailure.getD "" ++ ")"⟩
  else
    ⟨.success, "block_subnet " ++ baseIp ++ ": " ++ toString t.blocked ++ " blocked, " ++
      toString t.gated ++ " gated out of " ++ toString hosts ++ " hosts"⟩

def runBlockSubnet (args : Yaml) (primaryIp : Option String) : Dispatch :=
  match (args.str "target_ip").or primaryIp with
  | none => { result := ⟨.failed, "block_subnet: no target IP in incident or args"⟩ }
  | some baseIp =>
    match IpAddr.fromStr baseIp with
    | none => { result := ⟨.failed, s!"block_subnet: '{baseIp}' is not a valid IP"⟩ }
    | some ip =>
      match enumerateSubnet ip (args.u64 "prefix_len") with
      | .error msg => { result := ⟨.failed, s!"block_subnet: {msg}"⟩ }
      | .ok hosts =>
        match x.registry.get "block-ip-xdp" with
        | none =>
          { result := ⟨.failed, "block_subnet: block-ip-xdp skill not registered"⟩ }
        | some skill =>
          let (tally, events) :=
            x.blockHosts skill (durationArg args) ⟨0, 0, 0, none⟩ (hosts.map IpAddr.text)
          { result := subnetResult baseIp hosts.length tally
            events := events }

def dispatchVirtual (out : Outside) (skill stepId : String) (args : Yaml)
    (primaryIp : Option String) : Dispatch :=
  if skill = "wait" then { result := runWait args }
  else if skill = "emit_metric" then { result := runEmitMetric out args }
  else if skill = "block_subnet" then x.runBlockSubnet args primaryIp
  else if skill = "open_ticket" then { result := out.openTicket args }
  else if skill = "route_alert" then queueRouteAlert stepId args
  else if skill = "capture_pcap" then queueCapturePcap stepId args primaryIp
  else if skill = "set_tag" then queueSetTag stepId args primaryIp
  else { result := ⟨.failed, s!"unknown virtual skill '{skill}'"⟩ }

/-! ## Dispatch -/

/-- The target of a step: the argument, or else the incident's first address. -/
def targetIp (call : DispatchCall) : Option String := (call.args.str "target_ip").or call.primaryIp

/-- The context of a step. -/
def stepContext (call : DispatchCall) : SkillContext where
  incident := x.baseIncident
  targetIp := targetIp call
  targetUser := (call.args.str "user").or call.primaryUser
  targetContainer := call.args.str "container"
  durationSecs := durationArg call.args
  host := x.host
  dataDir := x.dataDir

/-- The branch of `dispatch` for a name that begins with `block_ip_`. -/
def dispatchGated (skill : ResponseSkill) (ctx : SkillContext) : Dispatch :=
  match ctx.targetIp with
  | none => { result := ⟨.failed, "block-ip step has no target IP"⟩ }
  | some ip =>
    let answer := gateBlockIp ip x.trustedIps
    match answer with
    | .error refusal =>
      { result := ⟨.refused, refusal.text⟩
        events := [.gateCalled ip answer] }
    | .ok gate =>
      match executeBlockSkillGated skill ctx x.dryRun gate with
      | (some _, r) =>
        { result := stepResult r
          events := [.gateCalled ip answer, .skillExecuted skill.id ctx x.dryRun] }
      | (none, r) =>
        { result := stepResult r
          events := [.gateCalled ip answer] }

/-- A step goes to a virtual skill or to the registry. -/
def dispatch (out : Outside) (call : DispatchCall) : Dispatch :=
  if isVirtualSkill call.skill then
    x.dispatchVirtual out call.skill call.stepId call.args call.primaryIp
  else
    match x.registry.get (registryId call.skill) with
    | none => { result := ⟨.failed, "unknown skill '" ++ call.skill ++ "'"⟩ }
    | some skill =>
      let ctx := x.stepContext call
      if startsWith call.skill "block_ip_" then x.dispatchGated skill ctx
      else
        { result := stepResult (skill.execute ctx x.dryRun).result
          events := [.skillExecuted skill.id ctx x.dryRun] }

end RegistryStepExecutor

/-! ## The safety floor -/

/-- Every block skill runs on a target that the gate has let through before. -/
def Floored (trustedIps : List String) (events : List DispatchEvent) : Prop :=
  ∀ pre id ctx dryRun post, events = pre ++ .skillExecuted id ctx dryRun :: post →
    startsWith id "block-ip-" = true →
      ∃ ip gate, ctx.targetIp = some ip ∧ gateBlockIp ip trustedIps = .ok gate ∧
        .gateCalled ip (.ok gate) ∈ pre

section Floored

variable {trustedIps : List String}

theorem floored_nil : Floored trustedIps [] := by
  intro pre id ctx dryRun post h
  simp at h

theorem floored_gateCalled (ip : String) (answer : Except BlockGateRefusal GatedBlockIp) :
    Floored trustedIps [.gateCalled ip answer] := by
  intro pre id ctx dryRun post h
  cases pre with
  | nil => simp at h
  | cons first pre => simp at h

theorem floored_skillExecuted_iff {id : String} {ctx : SkillContext} {dryRun : Bool} :
    Floored trustedIps [.skillExecuted id ctx dryRun] ↔ startsWith id "block-ip-" = false := by
  constructor
  · intro h
    by_contra hblock
    obtain ⟨ip, gate, -, -, hmem⟩ := h [] id ctx dryRun [] rfl (by simpa using hblock)
    cases hmem
  · intro hid pre id' ctx' dryRun' post h hblock
    cases pre with
    | nil =>
      cases h
      simp [hid] at hblock
    | cons first pre => simp at h

theorem floored_gated {ip id : String} {gate : GatedBlockIp} {ctx : SkillContext} (dryRun : Bool)
    (hgate : gateBlockIp ip trustedIps = .ok gate) (hctx : ctx.targetIp = some ip) :
    Floored trustedIps [.gateCalled ip (.ok gate), .skillExecuted id ctx dryRun] := by
  intro pre id' ctx' dryRun' post h _
  cases pre with
  | nil => simp at h
  | cons first pre =>
    cases pre with
    | nil =>
      simp only [cons_append, nil_append, List.cons.injEq] at h
      obtain ⟨rfl, hexec, -⟩ := h
      cases hexec
      exact ⟨ip, gate, hctx, hgate, mem_singleton.2 rfl⟩
    | cons second pre => simp at h

theorem Floored.append {events later : List DispatchEvent} (h : Floored trustedIps events)
    (hlater : Floored trustedIps later) : Floored trustedIps (events ++ later) := by
  intro pre id ctx dryRun post heq hblock
  rcases StateMachine.append_split heq with ⟨rest, rfl, -⟩ | ⟨grown, rfl, hgrown⟩
  · exact h pre id ctx dryRun rest rfl hblock
  · -- The skill runs in the later part.
    obtain ⟨ip, gate, hctx, hgate, hmem⟩ := hlater grown id ctx dryRun post hgrown hblock
    exact ⟨ip, gate, hctx, hgate, mem_append_right _ hmem⟩

end Floored

namespace RegistryStepExecutor

variable (x : RegistryStepExecutor)

variable (skill : ResponseSkill)

theorem dispatchGated_floored (ctx : SkillContext) :
    Floored x.trustedIps (x.dispatchGated skill ctx).events := by
  simp only [dispatchGated]
  split
  · exact floored_nil
  · next ip hip =>
    split
    · exact floored_gateCalled _ _
    · next gate hgate =>
      split
      · rw [hgate]
        exact floored_gated x.dryRun hgate hip
      · exact floored_gateCalled _ _

theorem blockHost_floored (durationSecs : Option Nat) (tally : SubnetTally) (hostText : String) :
    Floored x.trustedIps (x.blockHost skill durationSecs tally hostText).2 := by
  simp only [blockHost]
  split
  · exact floored_gateCalled _ _
  · next gate hgate =>
    cases (executeBlockSkillGated skill (x.hostContext durationSecs hostText) x.dryRun gate).1 with
    | none => exact floored_gateCalled _ _
    | some run =>
      simp only [hgate]
      exact floored_gated x.dryRun hgate rfl

theorem blockHosts_floored (durationSecs : Option Nat) (hosts : List String) :
    ∀ tally : SubnetTally,
      Floored x.trustedIps (x.blockHosts skill durationSecs tally hosts).2 := by
  induction hosts with
  | nil => exact fun _ => floored_nil
  | cons hostText rest ih =>
    intro tally
    exact (x.blockHost_floored skill durationSecs tally hostText).append (ih _)

theorem dispatchVirtual_floored (out : Outside) (skill stepId : String) (args : Yaml)
    (primaryIp : Option String) :
    Floored x.trustedIps (x.dispatchVirtual out skill stepId args primaryIp).events := by
  have hsubnet : Floored x.trustedIps (x.runBlockSubnet args primaryIp).events := by
    unfold runBlockSubnet
    split
    · exact floored_nil
    · split
      · exact floored_nil
      · split
        · exact floored_nil
        · split
          · exact floored_nil
          · exact x.blockHosts_floored _ _ _ _
  have htag : Floored x.trustedIps (queueSetTag stepId args primaryIp).events := by
    unfold queueSetTag
    split
    · exact floored_nil
    · split <;> exact floored_nil
  have hpcap : Floored x.trustedIps (queueCapturePcap stepId args primaryIp).events := by
    unfold queueCapturePcap
    split <;> exact floored_nil
  unfold dispatchVirtual
  repeat' split
  all_goals first | exact hsubnet | exact htag | exact hpcap | exact floored_nil

theorem registryId_of_isVirtualSkill {skill : String} (h : isVirtualSkill skill = true) :
    startsWith (registryId skill) "block-ip-" = false := by
  have hall : ∀ name ∈ ["route_alert", "capture_pcap", "open_ticket", "wait", "emit_metric",
      "set_tag", "block_subnet"], startsWith (registryId name) "block-ip-" = false := by decide
  exact hall skill (of_decide_eq_true h)

/-- A dispatch keeps the floor if and only if the name of the step begins with `block_ip_`
whenever it leads to a block skill. -/
theorem dispatch_floored_iff (out : Outside) (call : DispatchCall) :
    Floored x.trustedIps (x.dispatch out call).events ↔
      ∀ skill, x.registry.get (registryId call.skill) = some skill →
        startsWith skill.id "block-ip-" = true → startsWith call.skill "block_ip_" = true := by
  unfold dispatch
  split
  · next hvirtual =>
    refine iff_of_true (x.dispatchVirtual_floored _ _ _ _ _) ?_
    intro skill hget hblock
    rw [SkillRegistry.id_of_get hget, registryId_of_isVirtualSkill hvirtual] at hblock
    cases hblock
  · split
    · next hget => simp [hget, floored_nil]
    · next skill hget =>
      split
      · next hname => exact iff_of_true (x.dispatchGated_floored skill _) fun _ _ _ => hname
      · next hname =>
        simp only [hget, Option.some.injEq, forall_eq', floored_skillExecuted_iff, hname,
          Bool.false_eq_true, imp_false, Bool.not_eq_true]

end RegistryStepExecutor

def sampleIncident : Incident :=
  ⟨0, "host", "ssh_bruteforce:203.0.113.9", .high, "", "", .null, [], [], []⟩

def sampleExecutor : RegistryStepExecutor where
  registry := blockSkills ⟨fun _ => .succeeded, fun _ => true⟩
  trustedIps := ["2001:db8::7"]
  dryRun := false
  host := "host"
  dataDir := "/var/lib/innerwarden"
  baseIncident := sampleIncident

/-- The step `block-ip-xdp` blocks the trusted address, which the gate refuses. -/
theorem kebab_step_bypasses_gate :
    gateBlockIp "2001:db8::7" sampleExecutor.trustedIps = .error (.trustedIp "2001:db8::7") ∧
      ¬ Floored sampleExecutor.trustedIps
        (sampleExecutor.dispatch ⟨fun _ _ => 0, fun _ => ⟨.success, ""⟩⟩
          ⟨"block-ip-xdp", "s1", .null, some "2001:db8::7", none⟩).events := by
  refine ⟨by decide +kernel, ?_⟩
  intro h
  obtain ⟨ip, gate, -, -, hmem⟩ := h [] "block-ip-xdp" _ false [] rfl (by decide)
  cases hmem

end Innerwarden.Playbook

import Innerwarden.Lib.IpAddr
import Innerwarden.Shield.Escalation

/-!
# The origin lockdown

`shield/src/origin_lockdown.rs`.  In an attack the shield lets only Cloudflare reach the locked
ports, with rules in a chain of their own and a jump to it in `INPUT`.

* `activationIptablesArgs`: the commands that fill the chain.  `dropped_iff` says which packets
  it then drops.
* `Kernel.run`: what a command does to the firewall, or that it fails.
* `machine`: the calls and the restarts of the process, where any command may fail.

The rules outlive the process, which alone knows whether the lockdown is active.
`inactive_drops_nothing` says when an inactive lockdown drops nothing.  After a restart during a
lockdown the set is in use, so `init` returns before it flushes the chain.
-/

namespace Innerwarden.Lockdown

open List

/-! ## The chain -/

def chainName : String := "INNERWARDEN_LOCKDOWN"

def ipsetName : String := "cloudflare_cidrs"

/-- What the rules look at in an IPv4 packet.  Only TCP has a port here. -/
structure Packet where
  source : BitVec 32
  tcpPort : Option UInt16
  /-- Part of an established or related connection. -/
  established : Bool

/-- What a rule does with a packet. -/
inductive Jump where
  | accept
  | drop
deriving DecidableEq

def Jump.text : Jump → String
  | accept => "ACCEPT"
  | drop => "DROP"

/-- The networks the rules name. -/
inductive Network where
  | loopback
  | metadata

def Network.text : Network → String
  | loopback => "127.0.0.0/8"
  | metadata => "169.254.169.254/32"

def Network.contains : Network → BitVec 32 → Bool
  | loopback, a => a >>> 24 = 127#32
  | metadata, a => a = 0xa9fea9fe#32

/-- A rule of the chain.  All its conditions have to hold. -/
structure Rule where
  state : Bool := false
  source : Option Network := none
  dport : Option UInt16 := none
  matchSet : Bool := false
  jump : Jump

def Rule.args (r : Rule) : List String :=
  (if r.state then ["-m", "state", "--state", "ESTABLISHED,RELATED"] else []) ++
    (r.source.map fun n => ["-s", n.text]).getD [] ++
    (r.dport.map fun p => ["-p", "tcp", "--dport", toString p]).getD [] ++
    (if r.matchSet then ["-m", "set", "--match-set", ipsetName, "src"] else []) ++
    ["-j", r.jump.text]

def Rule.fires (cloudflare : BitVec 32 → Bool) (p : Packet) (r : Rule) : Bool :=
  (!r.state || p.established) && r.source.all (·.contains p.source) &&
    r.dport.all (p.tcpPort = some ·) && (!r.matchSet || cloudflare p.source)

/-- The first rule that fires decides. -/
def verdict (cloudflare : BitVec 32 → Bool) (rules : List Rule) (p : Packet) : Option Jump :=
  (rules.find? (·.fires cloudflare p)).map Rule.jump

/-- The commands the lockdown runs. -/
inductive Command where
  | destroySet
  | createSet
  | addCidr (cidr : String)
  | newChain
  | flush
  | append (rule : Rule)
  | deleteJump
  | insertJump

/-- The program and its arguments. -/
def Command.args : Command → String × List String
  | destroySet => ("ipset", ["destroy", ipsetName])
  | createSet => ("ipset", ["create", ipsetName, "hash:net", "family", "inet"])
  | addCidr cidr => ("ipset", ["add", ipsetName, cidr, "-exist"])
  | newChain => ("iptables", ["-N", chainName])
  | flush => ("iptables", ["-F", chainName])
  | append rule => ("iptables", "-A" :: chainName :: rule.args)
  | deleteJump => ("iptables", ["-D", "INPUT", "-j", chainName])
  | insertJump => ("iptables", ["-I", "INPUT", "1", "-j", chainName])

def tcpPortRule (port : UInt16) (jump : Jump) : Rule := { dport := some port, jump }

def lockedPortRules (port : UInt16) : List Rule :=
  [{ dport := some port, matchSet := true, jump := .accept }, tcpPortRule port .drop]

def activationRules (lockedPorts exemptPorts : List UInt16) : List Rule :=
  [{ state := true, jump := .accept }, { source := some .loopback, jump := .accept },
    { source := some .metadata, jump := .accept }] ++
  exemptPorts.map (tcpPortRule · .accept) ++ lockedPorts.flatMap lockedPortRules

def activationIptablesArgs (lockedPorts exemptPorts : List UInt16) : List Command :=
  .flush :: (activationRules lockedPorts exemptPorts).map .append

def deactivationIptablesArgs : List Command := [.deleteJump, .flush]

/-! ## The firewall -/

/-- The CIDRs of the set and the rules of the chain, if they exist, and how often `INPUT`
jumps to the chain. -/
structure Kernel where
  ipset : Option (List String) := none
  chain : Option (List Rule) := none
  jumps : Nat := 0

def Kernel.rules (k : Kernel) : List Rule := k.chain.getD []

/-- A command, or that it fails. -/
def Kernel.run (k : Kernel) : Command → Option Kernel
  | .destroySet =>
    if k.ipset.isSome ∧ ∀ r ∈ k.rules, r.matchSet = false then some { k with ipset := none }
    else none
  | .createSet => if k.ipset.isSome then none else some { k with ipset := some [] }
  | .addCidr cidr => k.ipset.map fun set => { k with ipset := some (set ++ [cidr]) }
  | .newChain => if k.chain.isSome then none else some { k with chain := some [] }
  | .flush => k.chain.map fun _ => { k with chain := some [] }
  | .append rule =>
    if rule.matchSet ∧ k.ipset.isNone then none
    else k.chain.map fun rules => { k with chain := some (rules ++ [rule]) }
  | .deleteJump => if k.jumps = 0 then none else some { k with jumps := k.jumps - 1 }
  | .insertJump => if k.chain.isSome then some { k with jumps := k.jumps + 1 } else none

/-- `INPUT` jumps to the chain and the chain has a rule that drops. -/
def Kernel.Drops (k : Kernel) : Prop := 0 < k.jumps ∧ ∃ r ∈ k.rules, r.jump = .drop

instance (k : Kernel) : Decidable k.Drops := inferInstanceAs (Decidable (_ ∧ _))

/-! ## What the chain drops -/

section Verdict

variable (cloudflare : BitVec 32 → Bool) (p : Packet)

theorem verdict_cons (r : Rule) (rules : List Rule) :
    verdict cloudflare (r :: rules) p =
      if r.fires cloudflare p then some r.jump else verdict cloudflare rules p := by
  rw [verdict, find?_cons]
  split <;> simp_all [verdict]

theorem verdict_exempt (exempt : List UInt16) (rules : List Rule) :
    verdict cloudflare (exempt.map (tcpPortRule · .accept) ++ rules) p = some .drop ↔
      (∀ port ∈ exempt, p.tcpPort ≠ some port) ∧ verdict cloudflare rules p = some .drop := by
  induction exempt with
  | nil => simp
  | cons port exempt ih =>
    rw [map_cons, cons_append, verdict_cons]
    by_cases hport : p.tcpPort = some port
    · simp [Rule.fires, tcpPortRule, hport]
    · simpa [Rule.fires, tcpPortRule, hport] using ih

theorem verdict_locked (locked : List UInt16) :
    verdict cloudflare (locked.flatMap lockedPortRules) p = some .drop ↔
      (∃ port ∈ locked, p.tcpPort = some port) ∧ cloudflare p.source = false := by
  induction locked with
  | nil => simp [verdict]
  | cons port locked ih =>
    rw [flatMap_cons, lockedPortRules, cons_append, singleton_append, verdict_cons,
      verdict_cons]
    by_cases hport : p.tcpPort = some port <;> cases hset : cloudflare p.source <;>
      simp [Rule.fires, tcpPortRule, hport, hset, ih]

end Verdict

theorem run_appends (cidrs : List String) (before rules : List Rule) (jumps : Nat) :
    (rules.map Command.append).foldlM Kernel.run ⟨some cidrs, some before, jumps⟩ =
      some ⟨some cidrs, some (before ++ rules), jumps⟩ := by
  induction rules generalizing before with
  | nil => simp
  | cons r rules ih => simpa [Kernel.run] using ih (before ++ [r])

/-- The commands succeed on every chain, and the chain they leave drops exactly the new TCP
connections to a locked port that is not exempt, from outside the networks and the set. -/
theorem dropped_iff (lockedPorts exemptPorts : List UInt16) (cloudflare : BitVec 32 → Bool)
    (cidrs : List String) (before : List Rule) (jumps : Nat) (p : Packet) :
    ∃ rules, (activationIptablesArgs lockedPorts exemptPorts).foldlM Kernel.run
        ⟨some cidrs, some before, jumps⟩ = some ⟨some cidrs, some rules, jumps⟩ ∧
      (verdict cloudflare rules p = some .drop ↔
        ∃ port, p.tcpPort = some port ∧ p.established = false ∧
          Network.loopback.contains p.source = false ∧
          Network.metadata.contains p.source = false ∧ cloudflare p.source = false ∧
          port ∈ lockedPorts ∧ port ∉ exemptPorts) := by
  refine ⟨activationRules lockedPorts exemptPorts, ?_, ?_⟩
  · exact run_appends cidrs [] _ jumps
  · rw [activationRules, append_assoc, cons_append, cons_append, singleton_append,
      verdict_cons, verdict_cons, verdict_cons]
    simp only [Rule.fires, Bool.not_true, Bool.not_false, Bool.false_or, Bool.true_or,
      Option.all_none, Option.all_some, Bool.and_true, Bool.true_and]
    cases hestablished : p.established <;>
      cases hloopback : Network.loopback.contains p.source <;>
      cases hmetadata : Network.metadata.contains p.source <;>
      simp [verdict_exempt, verdict_locked]
    constructor
    · rintro ⟨hexempt, ⟨port, hlocked, hport⟩, hset⟩
      exact ⟨port, hport, hset, hlocked, fun hmem => hexempt port hmem hport⟩
    · rintro ⟨port, hport, hset, hlocked, hexempt⟩
      refine ⟨fun port' hmem heq => ?_, ⟨port, hlocked, hport⟩, hset⟩
      cases hport.symm.trans heq
      exact hexempt hmem

/-! ## The lockdown -/

/-- The firewall, and whether each command still to come can be run.  One that cannot has no
effect. -/
structure Sys where
  kernel : Kernel
  works : List Bool

def runCmd (c : Command) (s : Sys) : Bool × Sys :=
  match s.works.headD true, s.kernel.run c with
  | true, some kernel => (true, ⟨kernel, s.works.tail⟩)
  | _, _ => (false, ⟨s.kernel, s.works.tail⟩)

/-- The commands up to the first that fails. -/
def runAll : List Command → Sys → Bool × Sys
  | [], s => (true, s)
  | c :: cs, s =>
    match runCmd c s with
    | (true, s) => runAll cs s
    | (false, s) => (false, s)

/-- The commands with their failures ignored. -/
def runEach (cs : List Command) (s : Sys) : Sys := cs.foldl (fun s c => (runCmd c s).2) s

/-- What the process knows. -/
structure OriginLockdown where
  active : Bool
  lockedPorts : List UInt16
  exemptPorts : List UInt16

def sshPortFromEnvValue (value : Option String) : UInt16 :=
  ((value.bind parseU32).filter (· < 65536)).elim 49222 UInt16.ofNat

namespace OriginLockdown

def new (sshPortEnv : Option String) : OriginLockdown :=
  ⟨false, [80, 443, 8787], [sshPortFromEnvValue sshPortEnv, 22, 9090]⟩

/-- `init`, with the CIDRs that were fetched. -/
def init (cidrs : List String) (s : Sys) : Sys :=
  let s := (runCmd .destroySet s).2
  match runCmd .createSet s with
  | (false, s) => s
  | (true, s) => runEach (cidrs.map .addCidr ++ [.newChain, .flush]) s

/-- `activate`: whether it is `Ok`, and the lockdown after it. -/
def activate (o : OriginLockdown) (s : Sys) : Bool × OriginLockdown × Sys :=
  if o.active then (true, o, s)
  else
    match runAll (activationIptablesArgs o.lockedPorts o.exemptPorts) s with
    | (false, s) => (false, o, s)
    | (true, s) =>
      let s := (runCmd .deleteJump s).2
      match runCmd .insertJump s with
      | (false, s) => (false, o, s)
      | (true, s) => (true, { o with active := true }, s)

/-- `deactivate`.  It is always `Ok`. -/
def deactivate (o : OriginLockdown) (s : Sys) : OriginLockdown × Sys :=
  if !o.active then (o, s)
  else ({ o with active := false }, runEach deactivationIptablesArgs s)

end OriginLockdown

def stateRequiresLockdown : EscalationState → Bool
  | .underAttack => true
  | .critical => true
  | _ => false

/-- The calls. -/
inductive Call where
  | init (cidrs : List String)
  | activate
  | deactivate
  | checkAndToggle (state : EscalationState)
  /-- A new process: `new` and `init`. -/
  | restart (sshPortEnv : Option String) (cidrs : List String)

/-- `check_and_toggle` calls one of the two, or neither. -/
def Call.resolve (active : Bool) : Call → Option Call
  | .checkAndToggle state =>
    if stateRequiresLockdown state && !active then some .activate
    else if !stateRequiresLockdown state && active then some .deactivate
    else none
  | call => some call

/-- The process and the firewall. -/
structure State where
  lockdown : OriginLockdown
  kernel : Kernel

/-- A call, with whether each of its commands can be run. -/
def step (s : State) (op : Call × List Bool) : State :=
  let sys : Sys := ⟨s.kernel, op.2⟩
  match op.1.resolve s.lockdown.active with
  | some (.init cidrs) => ⟨s.lockdown, (OriginLockdown.init cidrs sys).kernel⟩
  | some .activate =>
    let (_, lockdown, sys) := s.lockdown.activate sys
    ⟨lockdown, sys.kernel⟩
  | some .deactivate =>
    let (lockdown, sys) := s.lockdown.deactivate sys
    ⟨lockdown, sys.kernel⟩
  | some (.restart sshPortEnv cidrs) => ⟨.new sshPortEnv, (OriginLockdown.init cidrs sys).kernel⟩
  | _ => s

/-- The process after a boot, with no rule, set or jump of its own in the firewall. -/
def machine (sshPortEnv : Option String) : StateMachine State (Call × List Bool) Unit where
  init := ⟨.new sshPortEnv, {}⟩
  step s op := (step s op, ())

/-! ## When an inactive lockdown drops nothing -/

/-- The set and the chain are there, and the commands of an activation can all be run, but for
the one that removes a jump. -/
def CanActivate (o : OriginLockdown) (s : Sys) : Prop :=
  let fill := (activationIptablesArgs o.lockedPorts o.exemptPorts).length
  s.kernel.ipset.isSome ∧ s.kernel.chain.isSome ∧ (s.works.take fill).all id = true ∧
    (s.works.drop (fill + 1)).headD true = true

instance (o : OriginLockdown) (s : Sys) : Decidable (CanActivate o s) :=
  inferInstanceAs (Decidable (_ ∧ _))

/-- A restart finds a firewall that drops nothing.  An activation finds no jump in `INPUT`, or
all it needs.  A deactivation flushes the chain, or removes the only jump. -/
def Safe (s : State) (op : Call × List Bool) : Prop :=
  match op.1.resolve s.lockdown.active with
  | some .activate => s.kernel.jumps = 0 ∨ CanActivate s.lockdown ⟨s.kernel, op.2⟩
  | some .deactivate =>
    op.2.tail.headD true = true ∨ op.2.headD true = true ∧ s.kernel.jumps ≤ 1
  | some (.restart _ _) => ¬ s.kernel.Drops
  | _ => True

instance (s : State) (op : Call × List Bool) : Decidable (Safe s op) := by
  unfold Safe
  split <;> infer_instance

/-- What holds of the firewall while no lockdown is active. -/
def State.Quiet (s : State) : Prop := s.lockdown.active = false → ¬ s.kernel.Drops

section Keeps

variable {k k' : Kernel} {s : Sys} {c : Command}

theorem runCmd_cases (c : Command) (s : Sys) :
    runCmd c s = (false, ⟨s.kernel, s.works.tail⟩) ∨
      ∃ k, s.kernel.run c = some k ∧ runCmd c s = (true, ⟨k, s.works.tail⟩) := by
  rw [runCmd]
  split
  next h => exact Or.inr ⟨_, h, rfl⟩
  next => exact Or.inl rfl

theorem runCmd_keeps {P : Kernel → Prop} (hrun : ∀ k k', P k → k.run c = some k' → P k')
    (h : P s.kernel) : P (runCmd c s).2.kernel := by
  rcases runCmd_cases c s with heq | ⟨k, hk, heq⟩
  · rw [heq]
    exact h
  · rw [heq]
    exact hrun _ _ h hk

theorem runEach_keeps {P : Kernel → Prop} {cs : List Command}
    (hrun : ∀ c ∈ cs, ∀ k k', P k → k.run c = some k' → P k') (h : P s.kernel) :
    P (runEach cs s).kernel := by
  induction cs generalizing s with
  | nil => exact h
  | cons c cs ih =>
    rw [forall_mem_cons] at hrun
    exact ih hrun.2 (runCmd_keeps hrun.1 h)

theorem runAll_keeps {P : Kernel → Prop} {cs : List Command}
    (hrun : ∀ c ∈ cs, ∀ k k', P k → k.run c = some k' → P k') (h : P s.kernel) :
    P (runAll cs s).2.kernel := by
  induction cs generalizing s with
  | nil => exact h
  | cons c cs ih =>
    rw [forall_mem_cons] at hrun
    have hfirst := runCmd_keeps (s := s) hrun.1 h
    rw [runAll]
    split
    next heq =>
      rw [heq] at hfirst
      exact ih hrun.2 hfirst
    next heq =>
      rw [heq] at hfirst
      exact hfirst

/-- The jumps stay as they are. -/
theorem jumps_of_run (hrun : k.run c = some k') (hdelete : c ≠ .deleteJump)
    (hinsert : c ≠ .insertJump) : k'.jumps = k.jumps := by
  cases c <;> simp [Kernel.run] at hrun <;> grind

/-- Only a rule that drops makes a chain drop, once `INPUT` jumps to it. -/
theorem not_drops_of_run (h : ¬ k.Drops) (hrun : k.run c = some k')
    (happend : ∀ r, c ≠ .append r) (hinsert : c ≠ .insertJump) : ¬ k'.Drops := by
  cases c <;> simp [Kernel.run, Kernel.Drops, Kernel.rules] at h hrun ⊢ <;> grind

theorem not_drops_init (cidrs : List String) (h : ¬ s.kernel.Drops) :
    ¬ (OriginLockdown.init cidrs s).kernel.Drops := by
  have hkeeps : ∀ c ∈ Command.destroySet :: .createSet ::
      (cidrs.map .addCidr ++ [.newChain, .flush]),
      ∀ k k' : Kernel, ¬ k.Drops → k.run c = some k' → ¬ k'.Drops := by
    intro c hc k k' hk hrun
    refine not_drops_of_run hk hrun (fun r => ?_) ?_ <;> rintro rfl <;> simp at hc
  rw [forall_mem_cons, forall_mem_cons] at hkeeps
  have hcreated := runCmd_keeps hkeeps.2.1 (runCmd_keeps hkeeps.1 h)
  rw [OriginLockdown.init]
  split
  next heq =>
    rw [heq] at hcreated
    exact hcreated
  next heq =>
    rw [heq] at hcreated
    exact runEach_keeps hkeeps.2.2 hcreated

/-- Commands that the firewall takes succeed if they can be run. -/
theorem runAll_of_works {cs : List Command} {works : List Bool}
    (hrun : cs.foldlM Kernel.run k = some k') (hworks : (works.take cs.length).all id = true) :
    runAll cs ⟨k, works⟩ = (true, ⟨k', works.drop cs.length⟩) := by
  induction cs generalizing k works with
  | nil =>
    cases hrun
    rfl
  | cons c cs ih =>
    rw [foldlM_cons] at hrun
    obtain ⟨k₁, hfirst, hrest⟩ := Option.bind_eq_some_iff.mp hrun
    cases works with
    | nil => simpa [runAll, runCmd, hfirst] using @ih k₁ [] hrest (by simp)
    | cons w works =>
      rw [length_cons, take_succ_cons, all_cons, Bool.and_eq_true] at hworks
      obtain ⟨rfl, hworks⟩ := hworks
      simpa [runAll, runCmd, hfirst] using ih hrest hworks

theorem runCmd_works (c : Command) (s : Sys) : (runCmd c s).2.works = s.works.tail := by
  rcases runCmd_cases c s with heq | ⟨k, -, heq⟩ <;> rw [heq]

theorem runCmd_insertJump (hchain : s.kernel.chain.isSome = true)
    (hworks : s.works.headD true = true) : ∃ s', runCmd .insertJump s = (true, s') := by
  rw [runCmd, hworks, Kernel.run, if_pos hchain]
  exact ⟨_, rfl⟩

theorem active_of_canActivate {o : OriginLockdown} (h : CanActivate o s) :
    (o.activate s).2.1.active = true := by
  obtain ⟨⟨ipset, chain, jumps⟩, works⟩ := s
  obtain ⟨hset, hchain, hfill, hinsert⟩ := h
  obtain ⟨cidrs, rfl⟩ := Option.isSome_iff_exists.mp hset
  obtain ⟨before, rfl⟩ := Option.isSome_iff_exists.mp hchain
  obtain ⟨rules, hrun⟩ : ∃ rules, (activationIptablesArgs o.lockedPorts o.exemptPorts).foldlM
      Kernel.run ⟨some cidrs, some before, jumps⟩ = some ⟨some cidrs, some rules, jumps⟩ :=
    ⟨_, run_appends cidrs [] _ jumps⟩
  rw [OriginLockdown.activate, runAll_of_works hrun hfill]
  split
  next hactive => exact hactive
  next =>
    -- whether there was a jump to remove does not matter
    rw [← tail_drop, ← runCmd_works .deleteJump ⟨⟨some cidrs, some rules, jumps⟩, _⟩] at hinsert
    have hthere : (runCmd .deleteJump ⟨⟨some cidrs, some rules, jumps⟩, works.drop
        (activationIptablesArgs o.lockedPorts o.exemptPorts).length⟩).2.kernel.chain.isSome := by
      refine runCmd_keeps (P := fun k => k.chain.isSome) (fun k k' hk hrun => ?_) rfl
      obtain ⟨-, hrun⟩ := Option.ite_none_left_eq_some.mp hrun
      cases hrun
      exact hk
    obtain ⟨s', heq⟩ := runCmd_insertJump hthere hinsert
    simp only [heq]

/-- An activation that fails leaves no jump where there was none. -/
theorem jumps_activate {o : OriginLockdown} (hjumps : s.kernel.jumps = 0)
    (hinactive : (o.activate s).2.1.active = false) : (o.activate s).2.2.kernel.jumps = 0 := by
  have hrules : ∀ c ∈ activationIptablesArgs o.lockedPorts o.exemptPorts,
      ∀ k k' : Kernel, k.jumps = 0 → k.run c = some k' → k'.jumps = 0 := by
    intro c hc k k' hk hrun
    rw [jumps_of_run hrun, hk] <;> rintro rfl <;> simp [activationIptablesArgs] at hc
  have hfilled := runAll_keeps hrules hjumps
  rw [OriginLockdown.activate] at hinactive ⊢
  split at hinactive
  next hactive => exact absurd hinactive (by simp [hactive])
  next hactive =>
    simp only [if_neg hactive]
    generalize runAll (activationIptablesArgs o.lockedPorts o.exemptPorts) s = result at *
    obtain ⟨ok, s'⟩ := result
    cases ok with
    | false => exact hfilled
    | true =>
      have hdeleted : (runCmd .deleteJump s').2.kernel.jumps = 0 := by
        refine runCmd_keeps (P := fun k => k.jumps = 0) (fun k k' hk hrun => ?_) hfilled
        simp [Kernel.run, hk] at hrun
      rcases runCmd_cases .insertJump (runCmd .deleteJump s').2 with heq | ⟨k, -, heq⟩
      · simp only [heq]
        exact hdeleted
      · simp [heq] at hinactive

/-- A deactivation whose flush works, or that removes the only jump. -/
theorem not_drops_deactivation {works : List Bool} {k : Kernel}
    (h : works.tail.headD true = true ∨ works.headD true = true ∧ k.jumps ≤ 1) :
    ¬ (runEach deactivationIptablesArgs ⟨k, works⟩).kernel.Drops := by
  obtain ⟨ipset, chain, jumps⟩ := k
  rcases works with _ | ⟨first, _ | ⟨second, works⟩⟩ <;> cases chain <;>
    simp [runEach, deactivationIptablesArgs, runCmd, Kernel.run, Kernel.Drops, Kernel.rules]
      at h ⊢ <;>
    grind

end Keeps

/-- A safe call leaves nothing dropped unless the lockdown is active. -/
theorem quiet_step (s : State) (op : Call × List Bool) (h : s.Quiet) (hsafe : Safe s op) :
    (step s op).Quiet := by
  rw [Safe] at hsafe
  rw [step]
  cases hcall : op.1.resolve s.lockdown.active with
  | none => exact h
  | some call =>
    rw [hcall] at hsafe
    cases call with
    | init cidrs => exact fun hactive => not_drops_init cidrs (h hactive)
    | restart sshPortEnv cidrs => exact fun _ => not_drops_init cidrs hsafe
    | checkAndToggle state => exact h
    | activate =>
      intro hactive hdrops
      rcases hsafe with hjumps | hworks
      · exact absurd (jumps_activate hjumps hactive) hdrops.1.ne'
      · cases (active_of_canActivate hworks).symm.trans hactive
    | deactivate =>
      simp only [OriginLockdown.deactivate]
      split
      · exact h
      · exact fun _ => not_drops_deactivation hsafe

/-- In a run of safe calls an inactive lockdown drops nothing. -/
theorem inactive_drops_nothing (sshPortEnv : Option String) (ops : List (Call × List Bool))
    (h : (machine sshPortEnv).Meets Safe (machine sshPortEnv).init ops) :
    let s := (machine sshPortEnv).exec (machine sshPortEnv).init ops
    s.lockdown.active = false → ¬ s.kernel.Drops :=
  StateMachine.exec_invariant_of_meets (P := State.Quiet) quiet_step ops
    (fun _ hdrops => absurd hdrops.1 (Nat.lt_irrefl 0)) h

/-- A lockdown that is activated and deactivated before the restart. -/
theorem inactive_drops_nothing_restart :
    let ops := [(Call.init [], []), (.activate, []), (.deactivate, [false]), (.restart none [], [])]
    (machine none).Meets Safe (machine none).init ops ∧
      ((machine none).exec (machine none).init ops).kernel.jumps = 1 ∧
      ¬ ((machine none).exec (machine none).init ops).kernel.Drops :=
  have hmeets : (machine none).Meets Safe (machine none).init
      [(Call.init [], []), (.activate, []), (.deactivate, [false]), (.restart none [], [])] := by
    decide
  ⟨hmeets, by decide, inactive_drops_nothing none _ hmeets rfl⟩

/-- A restart during a lockdown: the set cannot be created, and the chain stays as it is. -/
theorem restart_keeps_dropping :
    let s := (machine none).exec (machine none).init
      [(.init [], []), (.activate, []), (.restart none [], [])]
    s.lockdown.active = false ∧ s.kernel.Drops := by
  decide

end Innerwarden.Lockdown

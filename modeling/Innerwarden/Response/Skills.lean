import Innerwarden.Response.BlockTarget
import Innerwarden.Store.Incidents

/-!
# Response skills

The skills of `crates/agent/src/skills` that block an address.  A skill has an id and is executed
on a context, for real or as a dry run, which gives a result and the commands it runs under
`sudo`.  Five of them are one family: they check the target, stop at a dry run and otherwise run
one command of a firewall.  `BlockIpXdp` writes to a map of the kernel instead.

The registry is any list of skills.  How a command ends is a parameter.  What no block skill
reads in a context is left out.
-/

namespace Innerwarden

open Text

/-- What a skill is executed on. -/
structure SkillContext where
  incident : Incident
  targetIp : Option String
  targetUser : Option String
  targetContainer : Option String
  durationSecs : Option Nat
  host : String
  dataDir : String

/-- What a skill reports. -/
structure SkillResult where
  success : Bool
  message : String

/-- An execution: the report and the commands run. -/
structure SkillRun where
  result : SkillResult
  commands : List (List String)

/-- A skill: what it does in a context, or would do. -/
structure ResponseSkill where
  id : String
  execute : SkillContext → Bool → SkillRun

abbrev SkillRegistry := List ResponseSkill

namespace SkillRegistry

def get (registry : SkillRegistry) (id : String) : Option ResponseSkill :=
  registry.find? fun skill => skill.id = id

/-- The id of `block_skill_for_backend`. -/
def backendSkillId (backend : String) : String :=
  if backend = "iptables" then "block-ip-iptables"
  else if backend = "nftables" then "block-ip-nftables"
  else if backend = "xdp" then "block-ip-xdp"
  else "block-ip-ufw"

def blockSkillForBackend (registry : SkillRegistry) (backend : String) : Option ResponseSkill :=
  registry.get (backendSkillId backend)

theorem id_of_get {registry : SkillRegistry} {id : String} {skill : ResponseSkill}
    (h : registry.get id = some skill) : skill.id = id := by
  simpa using List.find?_some h

end SkillRegistry

/-! ## The built-in skills that block an address -/

/-- How a command under `sudo` ended. -/
inductive CommandOutcome where
  | succeeded
  | failed (stderr : String)
  | notSpawned (error : String)
deriving DecidableEq

/-- The host a skill runs on. -/
structure SkillHost where
  /-- How a command ends. -/
  run : List String → CommandOutcome
  /-- `Path::exists`. -/
  pathExists : String → Bool

def formatSkillOutcome (tool ip : String) : CommandOutcome → SkillResult
  | .succeeded => ⟨true, s!"Blocked {ip} via {tool}"⟩
  | .failed stderr => ⟨false, s!"{tool} block failed for {ip}: {stderr}"⟩
  | .notSpawned error => ⟨false, s!"failed to run {tool}: {error}"⟩

/-- The firewall skills: the name of the tool and the command that blocks an address. -/
def firewallSkill (tool : String) (command : String → List String) (host : SkillHost) :
    ResponseSkill where
  id := "block-ip-" ++ tool
  execute ctx dryRun :=
    match ctx.targetIp with
    | none => ⟨⟨false, s!"block-ip-{tool}: no target IP in context"⟩, []⟩
    | some ip =>
      -- `is_valid_firewall_target` has the text of `is_valid_block_target`.
      if isValidBlockTarget ip = false then
        ⟨⟨false, s!"block-ip-{tool}: {ip} is not a valid IP/CIDR"⟩, []⟩
      else if dryRun then ⟨⟨true, s!"DRY RUN: would block {ip} via {tool}"⟩, []⟩
      else ⟨formatSkillOutcome tool ip (host.run (command ip)), [command ip]⟩

def blockIpUfw : SkillHost → ResponseSkill :=
  firewallSkill "ufw" fun ip => ["ufw", "deny", "from", ip, "comment", "innerwarden"]

def blockIpIptables : SkillHost → ResponseSkill :=
  firewallSkill "iptables" fun ip =>
    ["iptables", "-A", "INPUT", "-s", ip, "-j", "DROP", "-m", "comment", "--comment",
     "innerwarden"]

def blockIpNftables : SkillHost → ResponseSkill :=
  firewallSkill "nftables" fun ip =>
    ["nft", "add", "element", "inet", "filter", "blacklist", "\x7b " ++ ip ++ " \x7d"]

def buildBlockRichRule (ip : String) : String :=
  let family := if contains ip ":" then "ipv6" else "ipv4"
  s!"rule family=\"{family}\" source address=\"{ip}\" drop"

def blockIpFirewalld : SkillHost → ResponseSkill :=
  firewallSkill "firewalld" fun ip =>
    ["firewall-cmd", "--add-rich-rule=" ++ buildBlockRichRule ip]

def blockIpPf : SkillHost → ResponseSkill :=
  firewallSkill "pf" fun ip => ["pfctl", "-t", "innerwarden-blocked", "-T", "add", ip]

/-- The map of the kernel and the bytes of the key an address has in it. -/
def xdpMapAndKey (ip : String) : Option (String × List String) :=
  match IpAddr.fromStr ip with
  | some (.v4 bits) =>
    some ("/sys/fs/bpf/innerwarden/blocklist", (IpAddr.octets bits).map toString)
  | some (.v6 bits) =>
    some ("/sys/fs/bpf/innerwarden/blocklist_v6",
      (IpAddr.groups bits).flatMap fun g => [toString (g / 256), toString (g % 256)])
  | none => none

/-- The command of `BlockIpXdp`. -/
def xdpCommand (mapPin : String) (key : List String) : List String :=
  ["bpftool", "map", "update", "pinned", mapPin, "key"] ++ key ++
    ["value", "1", "0", "0", "0", "any"]

def blockIpXdp (host : SkillHost) : ResponseSkill where
  id := "block-ip-xdp"
  execute ctx dryRun :=
    match ctx.targetIp with
    | none => ⟨⟨false, "block-ip-xdp: no target IP in context"⟩, []⟩
    | some ip =>
      match xdpMapAndKey ip with
      | none => ⟨⟨false, s!"block-ip-xdp: invalid IP address: {ip}"⟩, []⟩
      | some (mapPin, key) =>
        if dryRun then ⟨⟨true, s!"DRY RUN: would block {ip} via XDP (wire-speed)"⟩, []⟩
        else if host.pathExists mapPin = false then
          ⟨⟨false, s!"XDP not available (map not found at {mapPin}). " ++
            "Ensure innerwarden-sensor is running with XDP attached."⟩, []⟩
        else
          let result : SkillResult :=
            match host.run (xdpCommand mapPin key) with
            | .succeeded => ⟨true, s!"Blocked {ip} via XDP - wire-speed drop active"⟩
            | .failed stderr => ⟨false, s!"XDP block failed for {ip}: {stderr}"⟩
            | .notSpawned error => ⟨false, s!"failed to run bpftool: {error}"⟩
          ⟨result, [xdpCommand mapPin key]⟩

/-- The skills of `default_builtin` that block an address, in its order. -/
def blockSkills (host : SkillHost) : SkillRegistry :=
  [blockIpUfw host, blockIpIptables host, blockIpNftables host, blockIpFirewalld host,
   blockIpPf host, blockIpXdp host]

end Innerwarden

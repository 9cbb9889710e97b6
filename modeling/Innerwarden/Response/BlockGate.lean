import Innerwarden.Response.Safelist
import Innerwarden.Response.Skills

/-!
# The block gate

The stateless check of `crates/agent/src/skill_gate.rs` before a block skill: the target has a
valid form and is neither on the operator's allowlist nor on the cloud safelist.
`protectedAddresses` says in terms of addresses what the gate is for.  The gate compares texts:
`Recognised` describes the targets for which one of its tests fires.
-/

namespace Innerwarden

open Text

/-- `GatedBlockIp`: the token that a target has passed the gate. -/
structure GatedBlockIp where
  ip : String
deriving DecidableEq

/-- Why the gate refuses. -/
inductive BlockGateRefusal where
  | emptyIp
  | invalidTarget (ip : String)
  | trustedIp (ip : String)
  | cloudSafelist (ip provider : String)
deriving DecidableEq

/-- `Display` of a refusal. -/
def BlockGateRefusal.text : BlockGateRefusal → String
  | .emptyIp => "skipped: block decision has empty IP"
  | .invalidTarget ip => s!"skipped: {ip} is not a valid IP address or CIDR"
  | .trustedIp ip => s!"skipped: {ip} is in operator trusted_ips allowlist"
  | .cloudSafelist ip provider => s!"skipped: {ip} is in cloud provider safelist ({provider})"

/-- The checks every block passes. -/
def gateBlockIp (ip : String) (trustedIps : List String) : Except BlockGateRefusal GatedBlockIp :=
  if ip = "" then .error .emptyIp
  else if isValidBlockTarget ip = false then .error (.invalidTarget ip)
  else if isIpAllowlisted ip trustedIps then .error (.trustedIp ip)
  else
    match safelistLabel ip with
    | some provider => .error (.cloudSafelist ip provider)
    | none => .ok ⟨ip⟩

/-- `execute_block_skill_gated`: the execution, if there was one, and what is reported. -/
def executeBlockSkillGated (skill : ResponseSkill) (ctx : SkillContext) (dryRun : Bool)
    (gate : GatedBlockIp) : Option SkillRun × SkillResult :=
  if ctx.targetIp = some gate.ip then
    let run := skill.execute ctx dryRun
    (some run, run.result)
  else
    let target := match ctx.targetIp with
      | some ip => "Some(\"" ++ ip ++ "\")"
      | none => "None"
    (none, ⟨false,
      "skipped: gate-token IP " ++ gate.ip ++ " does not match ctx.target_ip " ++ target⟩)

/-! ## What the gate lets through -/

theorem gateBlockIp_eq_ok_iff {ip : String} {trustedIps : List String} {gate : GatedBlockIp} :
    gateBlockIp ip trustedIps = .ok gate ↔ gate = ⟨ip⟩ ∧ isValidBlockTarget ip = true ∧
      isIpAllowlisted ip trustedIps = false ∧ isCloudProviderIp ip = false := by
  rw [← isSome_safelistLabel]
  unfold gateBlockIp
  split
  · next hempty => simp [hempty, isValidBlockTarget]
  · split
    · next hinvalid => simp [hinvalid]
    · next hvalid =>
      split
      · next hallow => simp [hallow]
      · next hallow =>
        split
        · next hlabel => simp [hlabel]
        · next hlabel =>
          simp only [Bool.not_eq_false, Bool.not_eq_true] at hvalid hallow
          simp [hvalid, hallow, hlabel, eq_comm (a := gate)]

theorem isValidBlockTarget_iff {s : String} :
    isValidBlockTarget s = true ↔ ∃ n, IpNetwork.parse s = some n := by
  unfold isValidBlockTarget IpNetwork.parse IpNetwork.ofCidr
  split
  · next hempty =>
    subst hempty
    simp [show splitOnce '/' "" = none from rfl, show IpAddr.fromStr "" = none from rfl]
  · cases splitOnce '/' s with
    | none => simp [Option.isSome_iff_exists]
    | some parts =>
      obtain ⟨ipPart, prefixPart⟩ := parts
      simp only
      cases IpAddr.fromStr ipPart with
      | none => simp
      | some ip =>
        cases parseU8 prefixPart with
        | none => simp
        | some p => simp

/-- The addresses a block must not touch: those of the operator's allowlist and those of
the cloud safelist. -/
def protectedAddresses (trustedIps : List String) : Set IpAddr :=
  {a | ∃ entry ∈ trustedIps, a ∈ IpNetwork.denotation entry} ∪ safelistAddresses

/-- The forms in which the gate recognises a protected target: the text of an entry, one
address in a network of the allowlist, one IPv4 address of the safelist. -/
def Recognised (target : String) (trustedIps : List String) : Prop :=
  target ∈ trustedIps ∨
    ∃ a, IpAddr.fromStr target = some a ∧
      ((∃ entry ∈ trustedIps, ∃ n, IpNetwork.ofCidr entry = some n ∧ n.Contains a) ∨
        (∃ bits, a = .v4 bits) ∧ a ∈ safelistAddresses)

theorem recognised_iff {target : String} {trustedIps : List String} :
    Recognised target trustedIps ↔
      isIpAllowlisted target trustedIps = true ∨ isCloudProviderIp target = true := by
  rw [isIpAllowlisted_iff, isCloudProviderIp_iff, Recognised]
  constructor
  · rintro (hmem | ⟨a, ha, ⟨entry, hentry, n, hn, hcontains⟩ | ⟨⟨bits, rfl⟩, hsafe⟩⟩)
    · exact .inl (.inl hmem)
    · exact .inl (.inr ⟨entry, hentry, n, a, hn, ha, hcontains⟩)
    · exact .inr ⟨bits, ha, hsafe⟩
  · rintro ((hmem | ⟨entry, hentry, n, a, hn, ha, hcontains⟩) | ⟨bits, ha, hsafe⟩)
    · exact .inl hmem
    · exact .inr ⟨a, ha, .inl ⟨entry, hentry, n, hn, hcontains⟩⟩
    · exact .inr ⟨_, ha, .inr ⟨⟨bits, rfl⟩, hsafe⟩⟩

theorem isValidBlockTarget_of_mem {s : String} {a : IpAddr} (h : a ∈ IpNetwork.denotation s) :
    isValidBlockTarget s = true := by
  obtain ⟨n, hn, -⟩ := h
  exact isValidBlockTarget_iff.2 ⟨n, hn⟩

/-- The gate keeps every protected address of a target from being blocked if and only if it
recognises the target whenever it has one. -/
theorem gate_protects_iff_recognised (target : String) (trustedIps : List String) :
    (∀ gate, gateBlockIp target trustedIps = .ok gate →
        Disjoint (IpNetwork.denotation target) (protectedAddresses trustedIps)) ↔
      (¬ Disjoint (IpNetwork.denotation target) (protectedAddresses trustedIps) →
        Recognised target trustedIps) := by
  constructor
  · intro hgate hmeet
    obtain ⟨a, ha, -⟩ := Set.not_disjoint_iff.1 hmeet
    have hvalid := isValidBlockTarget_of_mem ha
    rw [recognised_iff]
    by_contra hno
    simp only [not_or, Bool.not_eq_true] at hno
    exact hmeet (hgate _ (gateBlockIp_eq_ok_iff.2 ⟨rfl, hvalid, hno.1, hno.2⟩))
  · intro hrec gate hok
    obtain ⟨-, -, hallow, hcloud⟩ := gateBlockIp_eq_ok_iff.1 hok
    by_contra hmeet
    have hseen := recognised_iff.1 (hrec hmeet)
    simp [hallow, hcloud] at hseen

/-- A network passes although the operator trusts one of its addresses. -/
theorem gate_passes_trusted_network :
    ¬ ∀ gate, gateBlockIp "203.0.113.0/24" ["203.0.113.5"] = .ok gate →
      Disjoint (IpNetwork.denotation "203.0.113.0/24") (protectedAddresses ["203.0.113.5"]) := by
  intro h
  have hpasses : gateBlockIp "203.0.113.0/24" ["203.0.113.5"] = .ok ⟨"203.0.113.0/24"⟩ := by
    decide +kernel
  have htarget : .v4 0xcb007105#32 ∈ IpNetwork.denotation "203.0.113.0/24" :=
    ⟨⟨.v4 0xcb007100#32, 24, by decide⟩, by with_unfolding_all rfl, .v4 0xcb007105#32,
      by decide, rfl⟩
  have htrusted : .v4 0xcb007105#32 ∈ IpNetwork.denotation "203.0.113.5" :=
    ⟨⟨.v4 0xcb007105#32, 32, by decide⟩, by with_unfolding_all rfl, .v4 0xcb007105#32,
      by decide, rfl⟩
  exact Set.disjoint_left.1 (h _ hpasses) htarget (.inl ⟨_, List.mem_singleton.2 rfl, htrusted⟩)

end Innerwarden

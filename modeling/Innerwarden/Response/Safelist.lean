import Innerwarden.Lib.Network

/-!
# Addresses that are not to be blocked

The operator's allowlist of `crates/agent/src/allowlist.rs` and the cloud safelist of
`crates/agent/src/cloud_safelist.rs`, each with the addresses it names.  `ipMatches` compares a
text with an entry as a text, or, when the entry is a network and the text one address of its
family, under the mask.  `CidrRange.contains` compares an IPv4 address with a range.

The ranges are those `init` has loaded.  Log lines, the host's own addresses and the operator's
own ranges, which no block path reads, are left out.
-/

namespace Innerwarden

open Text IpNetwork

/-! ## The allowlist -/

def ipMatches (ipStr entry : String) : Bool :=
  if ipStr = entry then true
  else
    match splitOnce '/' entry with
    | none => false
    | some (baseStr, prefixStr) =>
      match parseU32 prefixStr, IpAddr.fromStr ipStr, IpAddr.fromStr baseStr with
      | some p, some (.v4 ip), some (.v4 base) =>
        decide (p ≤ 32) && ip &&& prefixMask 32 p == base &&& prefixMask 32 p
      | some p, some (.v6 ip), some (.v6 base) =>
        decide (p ≤ 128) && ip &&& prefixMask 128 p == base &&& prefixMask 128 p
      | _, _, _ => false

def isIpAllowlisted (ip : String) (trustedIps : List String) : Bool :=
  trustedIps.any fun entry => ipMatches ip entry

/-- A text matches an entry as a text, or as one address of the network the entry is. -/
theorem ipMatches_iff {ipStr entry : String} :
    ipMatches ipStr entry = true ↔ ipStr = entry ∨
      ∃ n a, IpNetwork.ofCidr entry = some n ∧ IpAddr.fromStr ipStr = some a ∧ n.Contains a := by
  unfold ipMatches
  split
  · next heq => simp [heq]
  · next hne =>
    simp only [hne, false_or, ofCidr_eq_some_iff]
    split
    · next hsplit => simp [hsplit]
    · next baseStr prefixStr hsplit =>
      constructor
      · intro h
        split at h
        · next p ip base hp hip hbase =>
          simp only [Bool.and_eq_true, decide_eq_true_eq, beq_iff_eq] at h
          exact ⟨⟨.v4 base, p, h.1⟩, .v4 ip, ⟨_, _, hsplit, hbase, hp⟩, hip,
            contains_v4_iff.2 h.2⟩
        · next p ip base hp hip hbase =>
          simp only [Bool.and_eq_true, decide_eq_true_eq, beq_iff_eq] at h
          exact ⟨⟨.v6 base, p, h.1⟩, .v6 ip, ⟨_, _, hsplit, hbase, hp⟩, hip,
            contains_v6_iff.2 h.2⟩
        · cases h
      · rintro ⟨⟨base, p, hle⟩, a, ⟨_, _, hsplit', hbase, hp⟩, hip, hmem⟩
        cases hsplit.symm.trans hsplit'
        -- The family of the base and that of the address have to be one.
        cases base with
        | v4 base =>
          cases a with
          | v4 ip =>
            have hle : p ≤ 32 := hle
            simp [hp, hip, hbase, hle, contains_v4_iff.1 hmem]
          | v6 ip => cases hmem
        | v6 base =>
          cases a with
          | v4 ip => cases hmem
          | v6 ip =>
            have hle : p ≤ 128 := hle
            simp [hp, hip, hbase, hle, contains_v6_iff.1 hmem]

theorem isIpAllowlisted_iff {ip : String} {trustedIps : List String} :
    isIpAllowlisted ip trustedIps = true ↔ ip ∈ trustedIps ∨
      ∃ entry ∈ trustedIps, ∃ n a, IpNetwork.ofCidr entry = some n ∧
        IpAddr.fromStr ip = some a ∧ n.Contains a := by
  simp only [isIpAllowlisted, List.any_eq_true, ipMatches_iff, and_or_left, exists_or,
    exists_eq_right']

/-! ## The cloud safelist -/

/-- A network, by address and mask. -/
structure CidrRange where
  base : BitVec 32
  mask : BitVec 32

def CidrRange.fromStr (cidr : String) : Option CidrRange :=
  match splitOnce '/' cidr with
  | none => none
  | some (baseStr, prefixStr) =>
    match parseU32 prefixStr, IpAddr.fromStr baseStr with
    | some p, some (.v4 base) =>
      if 32 < p then none else some ⟨base &&& prefixMask 32 p, prefixMask 32 p⟩
    | _, _ => none

def CidrRange.contains (r : CidrRange) (ip : BitVec 32) : Bool := ip &&& r.mask == r.base

/-- A range has the IPv4 addresses of the network its text is. -/
theorem CidrRange.exists_contains_iff {cidr : String} {bits : BitVec 32} :
    (∃ r, CidrRange.fromStr cidr = some r ∧ r.contains bits = true) ↔
      ∃ n, IpNetwork.ofCidr cidr = some n ∧ n.Contains (.v4 bits) := by
  simp only [ofCidr_eq_some_iff]
  constructor
  · rintro ⟨r, hr, hmem⟩
    unfold CidrRange.fromStr at hr
    split at hr
    · cases hr
    · next baseStr prefixStr hsplit =>
      split at hr
      · next p base hp hbase =>
        split at hr
        · cases hr
        · next hle =>
          cases hr
          exact ⟨⟨.v4 base, p, not_lt.1 hle⟩, ⟨_, _, hsplit, hbase, hp⟩,
            contains_v4_iff.2 (beq_iff_eq.1 hmem)⟩
      · cases hr
  · rintro ⟨⟨base, p, hle⟩, ⟨baseStr, prefixStr, hsplit, hbase, hp⟩, hmem⟩
    cases base with
    | v4 base =>
      have hle : p ≤ 32 := hle
      refine ⟨⟨base &&& prefixMask 32 p, prefixMask 32 p⟩, ?_, ?_⟩
      · simp_all [CidrRange.fromStr]
      · exact beq_iff_eq.2 (contains_v4_iff.1 hmem)
    | v6 base => cases hmem

def cloudflareRanges : List String :=
  ["173.245.48.0/20", "103.21.244.0/22", "103.22.200.0/22", "103.31.4.0/22", "141.101.64.0/18",
   "108.162.192.0/18", "190.93.240.0/20", "188.114.96.0/20", "197.234.240.0/22", "198.41.128.0/17",
   "162.158.0.0/15", "104.16.0.0/13", "104.24.0.0/14", "172.64.0.0/13"]

def agentServiceRanges : List String :=
  ["149.154.160.0/20", "91.108.0.0/16", "91.108.4.0/22", "91.108.56.0/22", "95.161.64.0/20",
   "52.48.0.0/14", "63.32.0.0/14", "18.200.0.0/14", "3.248.0.0/13", "208.95.112.0/24",
   "185.125.188.0/22", "91.189.88.0/21", "162.213.32.0/22"]

def oraclePeerRanges : List String :=
  ["138.1.16.0/22", "140.91.0.0/16", "147.154.224.0/19", "193.122.0.0/15"]

def linkLocalRanges : List String :=
  ["169.254.0.0/16", "127.0.0.0/8", "224.0.0.0/4"]

/-- The networks of the cloud providers. -/
def cloudProviderRanges : List String :=
  ["34.0.0.0/9", "35.184.0.0/13", "35.192.0.0/12", "35.208.0.0/12", "35.224.0.0/12",
   "35.240.0.0/13", "130.211.0.0/16", "142.250.0.0/15", "172.217.0.0/16", "216.58.192.0/19",
   "209.85.128.0/17", "3.0.0.0/9", "13.0.0.0/8", "15.0.0.0/11", "18.0.0.0/10", "34.192.0.0/10",
   "44.192.0.0/11", "52.0.0.0/11", "54.0.0.0/8", "99.80.0.0/12", "20.0.0.0/11", "40.64.0.0/10",
   "52.128.0.0/10", "104.40.0.0/13", "168.61.0.0/16", "191.232.0.0/13", "129.146.0.0/16",
   "130.35.0.0/16", "130.61.0.0/16", "132.145.0.0/16", "134.70.0.0/16", "140.204.0.0/16",
   "140.238.0.0/16", "144.24.0.0/14", "150.136.0.0/13", "152.67.0.0/16", "152.70.0.0/15",
   "64.227.0.0/16", "134.209.0.0/16", "157.230.0.0/16", "159.65.0.0/16", "159.89.0.0/16",
   "161.35.0.0/16", "164.90.0.0/16", "165.22.0.0/16", "165.227.0.0/16", "167.71.0.0/16",
   "167.172.0.0/16", "174.138.0.0/16", "178.128.0.0/16", "188.166.0.0/16", "206.189.0.0/16",
   "209.97.0.0/16", "209.122.0.0/16", "49.12.0.0/14", "78.46.0.0/15", "88.198.0.0/16",
   "88.99.0.0/16", "95.216.0.0/15", "116.202.0.0/15", "116.203.0.0/16", "128.140.0.0/16",
   "135.181.0.0/16", "136.243.0.0/16", "138.201.0.0/16", "142.132.0.0/16", "148.251.0.0/16",
   "157.90.0.0/16", "159.69.0.0/16", "162.55.0.0/16", "167.235.0.0/16", "168.119.0.0/16",
   "176.9.0.0/16", "178.63.0.0/16", "195.201.0.0/16", "213.133.96.0/19", "213.239.192.0/18",
   "23.0.0.0/12", "23.32.0.0/11", "23.64.0.0/14", "23.72.0.0/13", "95.100.64.0/18", "96.6.0.0/15",
   "96.16.0.0/15", "104.64.0.0/10", "184.24.0.0/13", "184.50.0.0/15", "23.235.32.0/20",
   "43.249.72.0/22", "103.244.50.0/24", "103.245.222.0/23", "103.245.224.0/24", "104.156.80.0/20",
   "140.248.64.0/18", "140.248.128.0/17", "146.75.0.0/17", "151.101.0.0/16", "157.52.64.0/18",
   "167.82.0.0/17", "172.111.64.0/18", "185.31.16.0/22", "199.27.72.0/21", "199.232.0.0/16",
   "64.252.64.0/18", "64.252.128.0/18", "130.176.0.0/16", "143.204.0.0/16", "144.220.0.0/16",
   "205.251.192.0/19", "216.137.32.0/19"]

/-- The tables in the order in which `init` reads them. -/
def safelistCidrs : List String :=
  cloudflareRanges ++ cloudProviderRanges ++ agentServiceRanges ++ oraclePeerRanges ++
    linkLocalRanges

/-- `CLOUD_RANGES` after `init`. -/
def cloudRanges : List CidrRange := safelistCidrs.filterMap CidrRange.fromStr

def isCloudProviderIp (ipStr : String) : Bool :=
  match IpAddr.fromStr ipStr with
  | some (.v4 bits) => cloudRanges.any fun r => r.contains bits
  | _ => false

/-- The first two octets to the provider most of whose addresses begin with them. -/
def providerOfOctets (first second : Nat) : Option String :=
  if first ∈ [23, 96, 184] then some "Akamai"
  else if first = 151 then some "Fastly"
  else if first ∈ [64, 130, 143, 144] then some "CloudFront"
  else if first = 34 then some (if second < 128 then "Google Cloud" else "AWS")
  else if first ∈ [35, 142, 172, 209] then some "Google Cloud"
  else if first ∈ [3, 13, 15, 18, 44, 52, 54, 99] then some "AWS"
  else if first ∈ [20, 40, 168, 191] then some "Azure"
  else if first ∈ [129, 132, 134, 140, 150, 152] then some "Oracle Cloud"
  else if first ∈ [157, 159, 161, 164, 165, 167, 174, 178, 188, 206] then some "DigitalOcean"
  else if first ∈ [173, 108, 190, 162, 141, 197, 198, 216] then some "Cloudflare"
  else if first ∈ [49, 78, 88, 95, 116, 128, 135, 136, 138, 148, 176, 195, 213] then
    some "Hetzner"
  else none

/-- Cloudflare by its networks, the others by two octets. -/
def identifyProvider (ipStr : String) : Option String :=
  match IpAddr.fromStr ipStr with
  | some (.v4 bits) =>
    if (cloudflareRanges.filterMap CidrRange.fromStr).any fun r => r.contains bits then
      some "Cloudflare"
    else
      match IpAddr.octets bits with
      | first :: second :: _ => providerOfOctets first second
      | _ => none
  | _ => none

def safelistLabel (ipStr : String) : Option String :=
  if isCloudProviderIp ipStr then (identifyProvider ipStr).or (some "Cloud Safelist") else none

def safelistAddresses : Set IpAddr :=
  {a | ∃ cidr ∈ safelistCidrs, ∃ n, IpNetwork.ofCidr cidr = some n ∧ n.Contains a}

theorem isCloudProviderIp_iff {ipStr : String} :
    isCloudProviderIp ipStr = true ↔
      ∃ bits, IpAddr.fromStr ipStr = some (.v4 bits) ∧ .v4 bits ∈ safelistAddresses := by
  have hany : ∀ bits, (cloudRanges.any fun r => r.contains bits) = true ↔
      IpAddr.v4 bits ∈ safelistAddresses := by
    intro bits
    simp only [cloudRanges, List.any_eq_true, List.mem_filterMap, safelistAddresses,
      Set.mem_ofPred_eq, ← CidrRange.exists_contains_iff]
    constructor
    · rintro ⟨r, ⟨cidr, hcidr, hr⟩, hmem⟩
      exact ⟨cidr, hcidr, r, hr, hmem⟩
    · rintro ⟨cidr, hcidr, r, hr, hmem⟩
      exact ⟨r, ⟨cidr, hcidr, hr⟩, hmem⟩
  unfold isCloudProviderIp
  split
  · next bits hbits => simp [hbits, hany]
  · next hno =>
    simp only [Bool.false_eq_true, false_iff, not_exists, not_and]
    intro bits hbits
    exact absurd hbits (hno bits)

theorem isSome_safelistLabel (ipStr : String) :
    (safelistLabel ipStr).isSome = isCloudProviderIp ipStr := by
  unfold safelistLabel
  cases isCloudProviderIp ipStr with
  | true => cases identifyProvider ipStr <;> rfl
  | false => rfl

example : safelistLabel "2606:4700::6810:1" = none := by decide +kernel

end Innerwarden

import Innerwarden.Lib.IpAddr
import Innerwarden.Lib.Text
import Mathlib.Data.Set.Lattice
import Mathlib.Order.CompletePartialOrder

/-!
# IP networks

A network is the set of the addresses that agree with a base address on a number of leading
bits.  `BitVec.and_prefixMask_eq` says that a mask compares these, and `IpNetwork.denotation` is
what a text in CIDR notation stands for: a set in which an IPv4-mapped IPv6 address and its IPv4
address are one.
-/

/-- The mask of `p` leading bits out of `w`. -/
def prefixMask (w p : Nat) : BitVec w :=
  if w ≤ w - p then 0#w else BitVec.allOnes w <<< (w - p)

theorem prefixMask_eq (w p : Nat) : prefixMask w p = BitVec.allOnes w <<< (w - p) := by
  unfold prefixMask
  split
  · next h => rw [BitVec.shiftLeft_eq_zero h]
  · rfl

/-- Two words agree under the mask if and only if they have the same leading bits. -/
theorem BitVec.and_prefixMask_eq {w p : Nat} (x y : BitVec w) :
    x &&& prefixMask w p = y &&& prefixMask w p ↔ x >>> (w - p) = y >>> (w - p) := by
  rw [prefixMask_eq]
  constructor
  · intro h
    apply BitVec.eq_of_getLsbD_eq
    intro i hi
    have hbit := congrArg (fun z => z.getLsbD (w - p + i)) h
    simp only [BitVec.getLsbD_and, BitVec.getLsbD_shiftLeft, BitVec.getLsbD_allOnes] at hbit
    simp only [BitVec.getLsbD_ushiftRight]
    by_cases hin : w - p + i < w
    · simpa [hin, hi, show ¬ w - p + i < w - p by omega] using hbit
    · rw [BitVec.getLsbD_of_ge _ _ (by omega), BitVec.getLsbD_of_ge _ _ (by omega)]
  · intro h
    apply BitVec.eq_of_getLsbD_eq
    intro i hi
    simp only [BitVec.getLsbD_and, BitVec.getLsbD_shiftLeft, BitVec.getLsbD_allOnes]
    by_cases hlow : i < w - p
    · simp [hlow]
    · have hbit := congrArg (fun z => z.getLsbD (i - (w - p))) h
      simp only [BitVec.getLsbD_ushiftRight, Nat.add_sub_cancel' (not_lt.1 hlow)] at hbit
      rw [hbit]

/-- A network: the addresses with the leading bits of a base address. -/
structure IpNetwork where
  base : IpAddr
  length : Nat
  length_le : length ≤ base.width

namespace IpNetwork

/-- The address is one of the network. -/
def Contains (n : IpNetwork) (a : IpAddr) : Prop :=
  match n.base, a with
  | .v4 base, .v4 bits => bits >>> (32 - n.length) = base >>> (32 - n.length)
  | .v6 base, .v6 bits => bits >>> (128 - n.length) = base >>> (128 - n.length)
  | _, _ => False

instance : (n : IpNetwork) → (a : IpAddr) → Decidable (n.Contains a)
  | ⟨.v4 _, _, _⟩, .v4 _ => inferInstanceAs (Decidable (_ = _))
  | ⟨.v6 _, _, _⟩, .v6 _ => inferInstanceAs (Decidable (_ = _))
  | ⟨.v4 _, _, _⟩, .v6 _ => inferInstanceAs (Decidable False)
  | ⟨.v6 _, _, _⟩, .v4 _ => inferInstanceAs (Decidable False)

def single (a : IpAddr) : IpNetwork := ⟨a, a.width, le_rfl⟩

/-- A network in CIDR notation. -/
def ofCidr (s : String) : Option IpNetwork :=
  match Text.splitOnce '/' s with
  | some (ipPart, prefixPart) =>
    match IpAddr.fromStr ipPart, parseU8 prefixPart with
    | some base, some p => if h : p ≤ base.width then some ⟨base, p, h⟩ else none
    | _, _ => none
  | none => none

/-- An address, or a network in CIDR notation. -/
def parse (s : String) : Option IpNetwork :=
  match Text.splitOnce '/' s with
  | some _ => ofCidr s
  | none => (IpAddr.fromStr s).map single

def addresses (n : IpNetwork) : Set IpAddr := {a | ∃ b, n.Contains b ∧ b.canonical = a}

def denotation (s : String) : Set IpAddr := {a | ∃ n, parse s = some n ∧ a ∈ n.addresses}

theorem length_lt (n : IpNetwork) : n.length < 256 := by
  have hle := n.length_le
  cases hbase : n.base with
  | v4 bits | v6 bits =>
    rw [hbase, IpAddr.width] at hle
    omega

/-- What the readers of a CIDR text have to find in it.  A length is a byte, so it does not
matter whether it is read as a byte or as a larger number. -/
theorem ofCidr_eq_some_iff {s : String} {n : IpNetwork} :
    ofCidr s = some n ↔ ∃ ipPart prefixPart, Text.splitOnce '/' s = some (ipPart, prefixPart) ∧
      IpAddr.fromStr ipPart = some n.base ∧ parseU32 prefixPart = some n.length := by
  constructor
  · intro h
    unfold ofCidr at h
    split at h
    · next ipPart prefixPart hsplit =>
      split at h
      · next base p hbase hp =>
        split at h
        · cases h
          exact ⟨ipPart, prefixPart, hsplit, hbase, (parseU8_eq_some_iff.1 hp).1⟩
        · cases h
      · cases h
    · cases h
  · rintro ⟨ipPart, prefixPart, hsplit, hbase, hp⟩
    have hbyte := parseU8_eq_some_iff.2 ⟨hp, n.length_lt⟩
    simp [ofCidr, hsplit, hbase, hbyte, n.length_le]

theorem contains_v4_iff {base bits : BitVec 32} {p : Nat} {h : p ≤ (IpAddr.v4 base).width} :
    (IpNetwork.mk (.v4 base) p h).Contains (.v4 bits) ↔
      bits &&& prefixMask 32 p = base &&& prefixMask 32 p :=
  BitVec.and_prefixMask_eq bits base |>.symm

theorem contains_v6_iff {base bits : BitVec 128} {p : Nat} {h : p ≤ (IpAddr.v6 base).width} :
    (IpNetwork.mk (.v6 base) p h).Contains (.v6 bits) ↔
      bits &&& prefixMask 128 p = base &&& prefixMask 128 p :=
  BitVec.and_prefixMask_eq bits base |>.symm

end IpNetwork

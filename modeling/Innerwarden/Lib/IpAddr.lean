import Mathlib.Algebra.Group.Nat.Defs
import Mathlib.Data.List.Basic
import Mathlib.Data.List.TakeWhile

/-!
# IP addresses

`std::net::IpAddr` and its text form, as the parser of the Rust standard library
reads it.  Each reader takes the characters ahead and returns what it has read with
the rest, or `none` without having moved.
-/

/-- An IPv4 or IPv6 address. -/
inductive IpAddr where
  | v4 (bits : BitVec 32)
  | v6 (bits : BitVec 128)
deriving DecidableEq

namespace IpAddr

open List

def toDigit (radix : Nat) (c : Char) : Option Nat :=
  let d :=
    if '0' ≤ c ∧ c ≤ '9' then c.toNat - 48
    else if 'a' ≤ c ∧ c ≤ 'z' then c.toNat - 87
    else if 'A' ≤ c ∧ c ≤ 'Z' then c.toNat - 55
    else radix
  if d < radix then some d else none

/-- The number the digits stand for, most significant first. -/
def ofDigits (radix : Nat) (digits : List Char) : Nat :=
  digits.foldl (fun n c => n * radix + (toDigit radix c).getD 0) 0

/-- `read_number` with a limit on the digits and on the value. -/
def readNumber (radix maxDigits bound : Nat) (allowZeroPrefix : Bool) (s : List Char) :
    Option (Nat × List Char) :=
  let digits := s.takeWhile fun c => (toDigit radix c).isSome
  if digits.length = 0 ∨ maxDigits < digits.length then none
  else if allowZeroPrefix = false ∧ digits.head? = some '0' ∧ 1 < digits.length then none
  else if ofDigits radix digits < bound then
    some (ofDigits radix digits, s.drop digits.length)
  else none

/-- `read_separator`: every part but the first comes after a separator. -/
def readSeparator {α : Type} (sep : Char) (first : Bool)
    (inner : List Char → Option (α × List Char)) (s : List Char) : Option (α × List Char) :=
  match first, s with
  | true, s => inner s
  | false, c :: s => if c = sep then inner s else none
  | false, [] => none

/-- `read_ipv4_addr`.  An octet has no leading zero. -/
def readIpv4 (s : List Char) : Option (BitVec 32 × List Char) := do
  let octet := readNumber 10 3 256 false
  let (a, s) ← octet s
  let (b, s) ← readSeparator '.' false octet s
  let (c, s) ← readSeparator '.' false octet s
  let (d, s) ← readSeparator '.' false octet s
  return (BitVec.ofNat 32 (((a * 256 + b) * 256 + c) * 256 + d), s)

/-- `read_groups`: at most the given number of groups, the last two of which may
be an embedded IPv4 address.  The answer says whether they are. -/
def readGroups : Nat → List Nat → List Char → List Nat × Bool × List Char
  | 0, groups, s => (groups, false, s)
  | left + 1, groups, s =>
    match (if 0 < left then readSeparator ':' groups.isEmpty readIpv4 s else none) with
    | some (addr, rest) => (groups ++ [addr.toNat / 65536, addr.toNat % 65536], true, rest)
    | none =>
      match readSeparator ':' groups.isEmpty (readNumber 16 4 65536 true) s with
      | some (group, rest) => readGroups left (groups ++ [group]) rest
      | none => (groups, false, s)

def ofGroups (groups : List Nat) : BitVec 128 :=
  BitVec.ofNat 128 (groups.foldl (fun n g => n * 65536 + g) 0)

/-- `read_ipv6_addr`.  The gap `::` stands for at least one group. -/
def readIpv6 (s : List Char) : Option (BitVec 128 × List Char) :=
  match readGroups 8 [] s with
  | (head, embedded, rest) =>
    if head.length = 8 then some (ofGroups head, rest)
    else if embedded then none
    else
      match rest with
      | ':' :: ':' :: rest =>
        match readGroups (7 - head.length) [] rest with
        | (tail, _, rest) =>
          let gap := List.replicate (8 - head.length - tail.length) 0
          some (ofGroups (head ++ gap ++ tail), rest)
      | _ => none

/-- `str::parse::<IpAddr>`.  The whole text has to be read. -/
def fromStr (s : String) : Option IpAddr :=
  match readIpv4 s.toList with
  | some (bits, rest) => if rest = [] then some (.v4 bits) else none
  | none =>
    match readIpv6 s.toList with
    | some (bits, rest) => if rest = [] then some (.v6 bits) else none
    | none => none

def width : IpAddr → Nat
  | .v4 _ => 32
  | .v6 _ => 128

/-- `to_canonical`: an IPv4-mapped IPv6 address is its IPv4 address. -/
def canonical : IpAddr → IpAddr
  | .v4 bits => .v4 bits
  | .v6 bits => if bits >>> 32 = 0xffff#128 then .v4 (bits.setWidth 32) else .v6 bits

/-! ## The text of an address -/

def octets (bits : BitVec 32) : List Nat :=
  [bits.toNat / 16777216, bits.toNat / 65536 % 256, bits.toNat / 256 % 256, bits.toNat % 256]

def groups (bits : BitVec 128) : List Nat :=
  (List.range 8).map fun i => bits.toNat / 65536 ^ (7 - i) % 65536

def joinTexts (sep : String) : List String → String
  | [] => ""
  | [t] => t
  | t :: ts => t ++ sep ++ joinTexts sep ts

/-- `Display` of an IPv4 address. -/
def v4Text (bits : BitVec 32) : String := joinTexts "." ((octets bits).map toString)

/-- The longest run of zero groups, as its first position and its length.  Of several
it is the first.  `current` is the run that reaches position `i`. -/
def zeroRun : Nat → Nat × Nat → Nat × Nat → List Nat → Nat × Nat
  | _, _, longest, [] => longest
  | i, current, longest, g :: gs =>
    if g = 0 then
      let current := if current.2 = 0 then (i, 1) else (current.1, current.2 + 1)
      zeroRun (i + 1) current (if longest.2 < current.2 then current else longest) gs
    else zeroRun (i + 1) (0, 0) longest gs

/-- Groups in lower case hexadecimal, with colons between them. -/
def groupsText (gs : List Nat) : String :=
  joinTexts ":" (gs.map fun g => String.ofList (Nat.toDigits 16 g))

/-- `Display` of an IPv6 address. -/
def v6Text (bits : BitVec 128) : String :=
  if bits >>> 32 = 0xffff#128 then "::ffff:" ++ v4Text (bits.setWidth 32)
  else
    match zeroRun 0 (0, 0) (0, 0) (groups bits) with
    | (start, len) =>
      if 1 < len then
        groupsText ((groups bits).take start) ++ "::" ++
          groupsText ((groups bits).drop (start + len))
      else groupsText (groups bits)

/-- `Display`. -/
def text : IpAddr → String
  | .v4 bits => v4Text bits
  | .v6 bits => v6Text bits

example : (fromStr "2001:DB8:0:0:1:0:0:1").map text = some "2001:db8::1:0:0:1" := by
  decide +kernel

/-! ## The characters of an address -/

/-- A character that occurs in addresses. -/
def IsAddressChar (c : Char) : Prop := (toDigit 16 c).isSome = true ∨ c = '.' ∨ c = ':'

instance (c : Char) : Decidable (IsAddressChar c) := inferInstanceAs (Decidable (_ ∨ _ ∨ _))

/-- What lies before the rest are characters of an address. -/
def Takes (s rest : List Char) : Prop := ∃ read, s = read ++ rest ∧ ∀ c ∈ read, IsAddressChar c

theorem Takes.refl (s : List Char) : Takes s s := ⟨[], rfl, by simp⟩

variable {s rest : List Char}

theorem Takes.cons {c : Char} (hc : IsAddressChar c) (h : Takes s rest) : Takes (c :: s) rest := by
  obtain ⟨read, rfl, hread⟩ := h
  exact ⟨c :: read, rfl, forall_mem_cons.2 ⟨hc, hread⟩⟩

theorem Takes.trans {t : List Char} (hst : Takes s t) (htr : Takes t rest) : Takes s rest := by
  obtain ⟨read, rfl, hread⟩ := hst
  obtain ⟨read', rfl, hread'⟩ := htr
  exact ⟨read ++ read', by simp, forall_mem_append.2 ⟨hread, hread'⟩⟩

theorem isSome_toDigit_of_le {radix : Nat} {c : Char} (hradix : radix ≤ 16)
    (h : (toDigit radix c).isSome = true) : (toDigit 16 c).isSome = true := by
  simp only [toDigit] at h ⊢
  split_ifs at h ⊢ <;> first | rfl | omega

theorem takes_of_readNumber {radix maxDigits bound n : Nat} {zero : Bool} (hradix : radix ≤ 16)
    (h : readNumber radix maxDigits bound zero s = some (n, rest)) : Takes s rest := by
  simp only [readNumber] at h
  split_ifs at h
  simp only [Option.some.injEq, Prod.mk.injEq] at h
  obtain ⟨-, rfl⟩ := h
  refine ⟨s.takeWhile fun c => (toDigit radix c).isSome, ?_, ?_⟩
  · exact (prefix_iff_eq_append.1 (List.takeWhile_prefix _)).symm
  · intro c hc
    have hdigit : (toDigit radix c).isSome = true :=
      mem_takeWhile_imp (p := fun c => (toDigit radix c).isSome) hc
    exact .inl (isSome_toDigit_of_le hradix hdigit)

theorem takes_of_readSeparator {α : Type} {sep : Char} {first : Bool}
    {inner : List Char → Option (α × List Char)} {a : α} (hsep : IsAddressChar sep)
    (hinner : ∀ s a rest, inner s = some (a, rest) → Takes s rest)
    (h : readSeparator sep first inner s = some (a, rest)) : Takes s rest := by
  cases first with
  | true => exact hinner _ _ _ h
  | false =>
    cases s with
    | nil => cases h
    | cons c s =>
      simp only [readSeparator] at h
      split at h
      · next hc => exact .cons (hc ▸ hsep) (hinner _ _ _ h)
      · cases h

theorem takes_of_readIpv4 {bits : BitVec 32} (h : readIpv4 s = some (bits, rest)) :
    Takes s rest := by
  have hdot : IsAddressChar '.' := .inr (.inl rfl)
  have hoctet : ∀ (s : List Char) (n : Nat) (rest : List Char),
      readNumber 10 3 256 false s = some (n, rest) → Takes s rest :=
    fun _ _ _ => takes_of_readNumber (by decide)
  simp only [readIpv4, Option.bind_eq_bind, Option.bind_eq_some_iff, Option.pure_def,
    Option.some.injEq, Prod.mk.injEq] at h
  obtain ⟨⟨a, s₁⟩, ha, ⟨b, s₂⟩, hb, ⟨c, s₃⟩, hc, ⟨d, s₄⟩, hd, -, rfl⟩ := h
  exact (hoctet _ _ _ ha).trans ((takes_of_readSeparator hdot hoctet hb).trans
    ((takes_of_readSeparator hdot hoctet hc).trans (takes_of_readSeparator hdot hoctet hd)))

theorem takes_readGroups (left : Nat) (groups : List Nat) (s : List Char) :
    Takes s (readGroups left groups s).2.2 := by
  have hcolon : IsAddressChar ':' := .inr (.inr rfl)
  induction left generalizing groups s with
  | zero => exact .refl s
  | succ left ih =>
    simp only [readGroups]
    split
    · next addr rest h =>
      split_ifs at h
      exact takes_of_readSeparator hcolon (fun _ _ _ => takes_of_readIpv4) h
    · split
      · next group rest h =>
        exact (takes_of_readSeparator hcolon (fun _ _ _ => takes_of_readNumber (by decide)) h).trans
          (ih _ _)
      · exact .refl s

theorem takes_of_readIpv6 {bits : BitVec 128} (h : readIpv6 s = some (bits, rest)) :
    Takes s rest := by
  have hcolon : IsAddressChar ':' := .inr (.inr rfl)
  have hhead := takes_readGroups 8 [] s
  simp only [readIpv6] at h
  split_ifs at h
  · obtain ⟨-, rfl⟩ := Prod.mk.inj (Option.some.inj h)
    exact hhead
  · split at h
    · next tail htail =>
      obtain ⟨-, rfl⟩ := Prod.mk.inj (Option.some.inj h)
      rw [htail] at hhead
      exact hhead.trans (.cons hcolon (.cons hcolon (takes_readGroups _ _ _)))
    · cases h

theorem isAddressChar_of_fromStr {s : String} {a : IpAddr} (h : fromStr s = some a) :
    ∀ c ∈ s.toList, IsAddressChar c := by
  have hall : Takes s.toList [] := by
    simp only [fromStr] at h
    split at h
    · next bits rest hread =>
      split_ifs at h with hrest
      exact hrest ▸ takes_of_readIpv4 hread
    · split at h
      · next bits rest hread =>
        split_ifs at h with hrest
        exact hrest ▸ takes_of_readIpv6 hread
      · cases h
  obtain ⟨read, hread, hchars⟩ := hall
  rw [hread, append_nil]
  exact hchars

end IpAddr

/-- `str::parse` for an unsigned type: a plus sign and leading zeros are accepted. -/
def parseBelow (bound : Nat) (s : String) : Option Nat :=
  let digits := match s.toList with
    | '+' :: rest => rest
    | cs => cs
  if digits ≠ [] ∧ digits.all (fun c => (IpAddr.toDigit 10 c).isSome) ∧
      IpAddr.ofDigits 10 digits < bound then
    some (IpAddr.ofDigits 10 digits)
  else none

/-- `str::parse::<u8>`. -/
def parseU8 (s : String) : Option Nat := parseBelow 256 s

/-- `str::parse::<u32>`. -/
def parseU32 (s : String) : Option Nat := parseBelow 4294967296 s

theorem parseU8_eq_some_iff {s : String} {n : Nat} :
    parseU8 s = some n ↔ parseU32 s = some n ∧ n < 256 := by
  simp only [parseU8, parseU32, parseBelow, Option.ite_none_right_eq_some, Option.some.injEq]
  constructor
  · rintro ⟨⟨hne, hall, hlt⟩, rfl⟩
    exact ⟨⟨⟨hne, hall, by omega⟩, rfl⟩, hlt⟩
  · rintro ⟨⟨⟨hne, hall, -⟩, rfl⟩, hlt⟩
    exact ⟨⟨hne, hall, hlt⟩, rfl⟩

import Mathlib.Data.Set.Function
import Mathlib.Data.List.Basic

/-!
# 32-byte digests and their hexadecimal text

A digest function maps bytes to 32 bytes.  The text, two lower-case digits a byte, determines
the digest.
-/

abbrev Digest := Vector UInt8 32

namespace Digest

/-- The digest whose bytes, read as one big-endian number, are `n`. -/
def ofNat (n : Nat) : Digest := Vector.ofFn fun i => UInt8.ofNat (n >>> (8 * (31 - i.val)))

def hexDigit (n : Nat) : Char :=
  if n < 10 then Char.ofNat (48 + n) else Char.ofNat (87 + n)

/-- The two digits of a byte, high half first. -/
def byteHex (b : UInt8) : List Char := [hexDigit (b.toNat / 16), hexDigit (b.toNat % 16)]

def hexChars : List UInt8 → List Char
  | [] => []
  | b :: bs => byteHex b ++ hexChars bs

def lowerHex (d : Digest) : String := String.ofList (hexChars d.toList)

theorem hexDigit_inj : ∀ m < 16, ∀ n < 16, hexDigit m = hexDigit n → m = n := by decide

theorem byteHex_inj {a b : UInt8} (h : byteHex a = byteHex b) : a = b := by
  simp only [byteHex, List.cons.injEq, and_true] at h
  have ha := a.toNat_lt
  have hb := b.toNat_lt
  have high := hexDigit_inj _ (by omega) _ (by omega) h.1
  have low := hexDigit_inj _ (by omega) _ (by omega) h.2
  exact UInt8.toNat_inj.mp (by omega)

theorem length_hexChars : ∀ bs : List UInt8, (hexChars bs).length = 2 * bs.length
  | [] => rfl
  | b :: bs => by
    rw [hexChars, List.length_append, length_hexChars bs, List.length_cons]
    simp only [byteHex, List.length_cons, List.length_nil]
    omega

theorem hexChars_inj : ∀ {as bs : List UInt8}, hexChars as = hexChars bs → as = bs
  | [], [], _ => rfl
  | [], b :: bs, h => by simp [hexChars, byteHex] at h
  | a :: as, [], h => by simp [hexChars, byteHex] at h
  | a :: as, b :: bs, h => by
    obtain ⟨hb, hbs⟩ := List.append_inj h rfl
    rw [byteHex_inj hb, hexChars_inj hbs]

@[simp] theorem length_lowerHex (d : Digest) : (lowerHex d).length = 64 := by
  rw [lowerHex, String.length_ofList, length_hexChars, Vector.length_toList]

theorem lowerHex_injective : Function.Injective lowerHex := by
  intro d e h
  have chars : hexChars d.toList = hexChars e.toList := by
    rw [← String.toList_ofList (l := hexChars d.toList),
      ← String.toList_ofList (l := hexChars e.toList)]
    exact congrArg String.toList h
  exact Vector.toList_inj.mp (hexChars_inj chars)

/-- The digest function has no collision among the listed inputs.  No function
into 32 bytes is injective on all inputs, so this is what a program can rely on
about the inputs it hashes. -/
def CollisionFree (digest : ByteArray → Digest) (inputs : List ByteArray) : Prop :=
  Set.InjOn digest {x | x ∈ inputs}

instance (digest : ByteArray → Digest) (inputs : List ByteArray) :
    Decidable (CollisionFree digest inputs) :=
  decidable_of_iff (∀ x ∈ inputs, ∀ y ∈ inputs, digest x = digest y → x.data = y.data)
    ⟨fun h x hx y hy heq => ByteArray.ext (h x hx y hy heq),
      fun h _ hx _ hy heq => congrArg ByteArray.data (h hx hy heq)⟩

end Digest

import Mathlib.Algebra.Order.Ring.Nat

/-!
# Numbers as bytes, the most significant first

`ofBytes` reads a number off a list of bytes and `toBytes` writes one into a given number of
bytes.  What was written is read back modulo their range (`ofBytes_toBytes`).
-/

namespace BigEndian

def ofBytes (bytes : List UInt8) : Nat := bytes.foldl (fun n b => n * 256 + b.toNat) 0

/-- The last `width` bytes of a number. -/
def toBytes : Nat → Nat → List UInt8
  | 0, _ => []
  | width + 1, n => toBytes width (n / 256) ++ [UInt8.ofNat n]

@[simp] theorem length_toBytes (width n : Nat) : (toBytes width n).length = width := by
  induction width generalizing n with
  | zero => rfl
  | succ width ih => simp [toBytes, ih]

theorem ofBytes_concat (bytes : List UInt8) (b : UInt8) :
    ofBytes (bytes ++ [b]) = ofBytes bytes * 256 + b.toNat := by
  simp [ofBytes]

theorem ofBytes_toBytes (width n : Nat) : ofBytes (toBytes width n) = n % 256 ^ width := by
  induction width generalizing n with
  | zero => simp [toBytes, ofBytes, Nat.mod_one]
  | succ width ih =>
    have hpow : (256 : Nat) ^ (width + 1) = 256 * 256 ^ width := Nat.pow_succ'
    have hbyte : (UInt8.ofNat n).toNat = n % 256 := UInt8.toNat_ofNat'
    rw [toBytes, ofBytes_concat, ih, hbyte, hpow, Nat.mod_mul]
    omega

theorem ofNat_ofBytes_two (x : UInt16) : UInt16.ofNat (ofBytes (toBytes 2 x.toNat)) = x := by
  have hx := x.toNat_lt
  rw [ofBytes_toBytes, Nat.mod_eq_of_lt (by omega), UInt16.ofNat_toNat]

theorem ofNat_ofBytes_four (x : UInt32) : UInt32.ofNat (ofBytes (toBytes 4 x.toNat)) = x := by
  have hx := x.toNat_lt
  rw [ofBytes_toBytes, Nat.mod_eq_of_lt (by omega), UInt32.ofNat_toNat]

end BigEndian

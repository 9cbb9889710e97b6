import Mathlib.Data.Finmap
import Mathlib.Algebra.Order.BigOperators.Group.Multiset

/-!
# Finite maps

A hash map without its order, as a `Finmap` whose values all have one type.  Added are `adjust`,
`mapValues` and `anyValue`, each with a lemma on `lookup`, and `total`, the sum of a
weight over the values, with a lemma for each way a map changes.
-/

/-- A finite map from keys `κ` to values `ν`. -/
abbrev FiniteMap (κ ν : Type*) := Finmap fun _ : κ => ν

namespace FiniteMap

variable {κ ν ν' : Type*}

/-! ## Values -/

def mapValues (f : ν → ν') (m : FiniteMap κ ν) : FiniteMap κ ν' where
  entries := m.entries.map fun e => ⟨e.1, f e.2⟩
  nodupKeys := by
    rw [← Multiset.nodup_keys, Multiset.keys, Multiset.map_map]
    exact Multiset.nodup_keys.mpr m.nodupKeys

def anyValue (p : ν → Bool) (m : FiniteMap κ ν) : Bool :=
  decide (0 < m.entries.countP fun e => p e.2)

def total (f : ν → Nat) (m : FiniteMap κ ν) : Nat := (m.entries.map fun e => f e.2).sum

variable [DecidableEq κ]

/-- The value under a key changed, if there is one. -/
def adjust (k : κ) (f : ν → ν) (m : FiniteMap κ ν) : FiniteMap κ ν :=
  match m.lookup k with
  | some v => m.insert k (f v)
  | none => m

@[simp] theorem lookup_mapValues (f : ν → ν') (m : FiniteMap κ ν) (k : κ) :
    (mapValues f m).lookup k = (m.lookup k).map f := by
  ext v
  rw [← Option.mem_def, Finmap.mem_lookup_iff, Option.map_eq_some_iff]
  simp only [mapValues, Multiset.mem_map, Finmap.lookup_eq_some_iff]
  constructor
  · rintro ⟨⟨k', v'⟩, hmem, heq⟩
    cases heq
    exact ⟨v', hmem, rfl⟩
  · rintro ⟨v', hmem, rfl⟩
    exact ⟨⟨k, v'⟩, hmem, rfl⟩

theorem lookup_adjust_self (k : κ) (f : ν → ν) (m : FiniteMap κ ν) :
    (adjust k f m).lookup k = (m.lookup k).map f := by
  rw [adjust]
  split
  case h_1 v h => rw [Finmap.lookup_insert, h, Option.map_some]
  case h_2 h => rw [h, Option.map_none]

variable {k : κ} {m : FiniteMap κ ν}

theorem lookup_adjust_of_ne {k' : κ} (hne : k' ≠ k) (f : ν → ν) (m : FiniteMap κ ν) :
    (adjust k f m).lookup k' = m.lookup k' := by
  rw [adjust]
  split
  · exact Finmap.lookup_insert_of_ne m hne
  · rfl

theorem mem_adjust {k' : κ} {f : ν → ν} : k' ∈ adjust k f m ↔ k' ∈ m := by
  rw [adjust]
  split
  case h_1 v h =>
    rw [Finmap.mem_insert, or_iff_right_of_imp]
    rintro rfl
    exact Finmap.mem_of_lookup_eq_some h
  case h_2 => rfl

theorem lookup_insert_eq (k k' : κ) (v : ν) (m : FiniteMap κ ν) :
    Finmap.lookup k' (m.insert k v) = if k' = k then some v else m.lookup k' := by
  split
  case isTrue h => rw [h, Finmap.lookup_insert]
  case isFalse h => exact Finmap.lookup_insert_of_ne m h

theorem lookup_erase_eq (k k' : κ) (m : FiniteMap κ ν) :
    Finmap.lookup k' (m.erase k) = if k' = k then none else m.lookup k' := by
  split
  case isTrue h => rw [h, Finmap.lookup_erase]
  case isFalse h => exact Finmap.lookup_erase_ne h

theorem anyValue_eq_true {p : ν → Bool} :
    anyValue p m = true ↔ ∃ k v, m.lookup k = some v ∧ p v = true := by
  rw [anyValue, decide_eq_true_eq, Multiset.countP_pos]
  constructor
  · rintro ⟨⟨k, v⟩, hmem, hp⟩
    exact ⟨k, v, Finmap.lookup_eq_some_iff.mpr hmem, hp⟩
  · rintro ⟨k, v, h, hp⟩
    exact ⟨⟨k, v⟩, Finmap.lookup_eq_some_iff.mp h, hp⟩

/-! ## Totals -/

theorem insert_erase_self {v : ν} (h : m.lookup k = some v) : (m.erase k).insert k v = m := by
  refine Finmap.ext_lookup fun k' => ?_
  rw [lookup_insert_eq, lookup_erase_eq]
  split
  case isTrue hk => rw [hk, h]
  case isFalse => rfl

theorem total_insert_of_notMem (h : k ∉ m) (f : ν → Nat) (v : ν) :
    total f (m.insert k v) = f v + total f m := by
  rw [total, Finmap.entries_insert_of_notMem h, Multiset.map_cons, Multiset.sum_cons, total]

theorem total_erase {v : ν} (h : m.lookup k = some v) (f : ν → Nat) :
    f v + total f (m.erase k) = total f m := by
  rw [← total_insert_of_notMem Finmap.notMem_erase_self, insert_erase_self h]

theorem erase_of_notMem (h : k ∉ m) : m.erase k = m := by
  refine Finmap.ext_lookup fun k' => ?_
  rw [lookup_erase_eq]
  split
  case isTrue heq => rw [heq, Finmap.lookup_eq_none.mpr h]
  case isFalse => rfl

theorem total_erase_le (k : κ) (m : FiniteMap κ ν) (f : ν → Nat) :
    total f (m.erase k) ≤ total f m := by
  by_cases h : k ∈ m
  · obtain ⟨v, hv⟩ := Finmap.mem_iff.mp h
    rw [← total_erase hv f]
    exact Nat.le_add_left _ _
  · rw [erase_of_notMem h]

theorem total_insert_of_eq {v v' : ν} {f : ν → Nat} (h : m.lookup k = some v) (hf : f v' = f v) :
    total f (m.insert k v') = total f m := by
  have herase : m.insert k v' = (m.erase k).insert k v' := by
    refine Finmap.ext_lookup fun k' => ?_
    rw [lookup_insert_eq, lookup_insert_eq, lookup_erase_eq]
    split <;> rfl
  rw [herase, total_insert_of_notMem Finmap.notMem_erase_self, hf, total_erase h]

theorem total_adjust {f : ν → Nat} {c : ν → ν} (k : κ) (m : FiniteMap κ ν)
    (hf : ∀ v, f (c v) = f v) : total f (adjust k c m) = total f m := by
  rw [adjust]
  split
  case h_1 v h => exact total_insert_of_eq h (hf v)
  case h_2 => rfl

end FiniteMap

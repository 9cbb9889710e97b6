import Mathlib.Data.List.Chain

/-!
# Hash-linked sequences

Each entry of a hash-linked sequence names the hash of the entry before it.  `Linked p xs` says
that `xs` continues a sequence whose last hash is `p`; a fresh sequence continues `none`.

Two linked sequences that agree at one position agree at every earlier one (`agree_back`),
provided an entry pins its predecessor.  What comes before a shared entry in one ends what comes
before it in the other (`suffix_of_shared`).
-/

namespace HashChain

open List

variable {α H : Type*}

section Linked

variable (prev : α → Option H) (hash : α → H)

/-- The hash a next entry has to name after `xs`. -/
def anchor (p : Option H) : List α → Option H
  | [] => p
  | x :: xs => anchor (some (hash x)) xs

/-- Every entry names the hash of the one before it, the first one names `p`. -/
def Linked : Option H → List α → Prop
  | _, [] => True
  | p, x :: xs => prev x = p ∧ Linked (some (hash x)) xs

variable {prev hash}

variable (p : Option H) (xs : List α)

@[simp] theorem anchor_nil : anchor hash p [] = p := rfl

@[simp] theorem anchor_cons (x : α) (xs : List α) :
    anchor hash p (x :: xs) = anchor hash (some (hash x)) xs := rfl

theorem anchor_append (ys : List α) :
    anchor hash p (xs ++ ys) = anchor hash (anchor hash p xs) ys := by
  induction xs generalizing p with
  | nil => rfl
  | cons x xs ih => exact ih (some (hash x))

theorem anchor_none : anchor hash none xs = xs.getLast?.map hash := by
  rcases eq_nil_or_concat xs with rfl | ⟨ys, x, rfl⟩
  · rfl
  · rw [concat_eq_append, anchor_append]
    simp

theorem linked_append (ys : List α) :
    Linked prev hash p (xs ++ ys) ↔
      Linked prev hash p xs ∧ Linked prev hash (anchor hash p xs) ys := by
  induction xs generalizing p with
  | nil => simp [Linked]
  | cons x xs ih =>
    simp only [cons_append, Linked, anchor_cons, ih, and_assoc]

theorem Linked.of_prefix {p : Option H} {xs ys : List α} (hp : xs <+: ys)
    (h : Linked prev hash p ys) : Linked prev hash p xs := by
  obtain ⟨zs, rfl⟩ := hp
  exact ((linked_append p xs zs).mp h).1

theorem Linked.isChain {p : Option H} {xs : List α} (h : Linked prev hash p xs) :
    xs.IsChain fun a b => prev b = some (hash a) := by
  induction xs generalizing p with
  | nil => exact .nil
  | cons x xs ih =>
    cases xs with
    | nil => exact .singleton x
    | cons y ys => exact .cons_cons h.2.1 (ih h.2)

theorem isPrefix_filter {keep : α → Bool} {xs : List α}
    (h : xs.Pairwise fun a b => keep b → keep a) : xs.filter keep <+: xs := by
  induction h with
  | nil => exact nil_prefix
  | @cons x xs hx _ ih =>
    by_cases hk : keep x
    · rw [filter_cons_of_pos hk]
      exact cons_prefix_cons.mpr ⟨rfl, ih⟩
    · have none_kept : xs.filter keep = [] :=
        filter_eq_nil_iff.mpr fun y hy hky => hk (hx y hy hky)
      rw [filter_cons_of_neg hk, none_kept]
      exact nil_prefix

end Linked

theorem agree_back {β : Type*} {R : α → α → Prop} {S : β → β → Prop} {E : α → β → Prop}
    {xs : List α} {ys : List β} (hxs : xs.IsChain R) (hys : ys.IsChain S)
    (back : ∀ a ∈ xs, ∀ a' ∈ xs, ∀ b ∈ ys, ∀ b' ∈ ys, R a a' → S b b' → E a' b' → E a b) :
    ∀ (k : Nat) {i j : Nat} (hi : i + k < xs.length) (hj : j + k < ys.length),
      E xs[i + k] ys[j + k] → E xs[i] ys[j]
  | 0, _, _, _, _, h => h
  | k + 1, i, j, hi, hj, h => by
    refine agree_back hxs hys back k (i := i) (j := j) (by omega) (by omega) ?_
    exact back _ (getElem_mem _) _ (getElem_mem _) _ (getElem_mem _) _
      (getElem_mem _) (isChain_iff_getElem.mp hxs (i + k) (by omega))
      (isChain_iff_getElem.mp hys (j + k) (by omega)) h

/-- Before an entry that two sequences share, one of them has only the last entries
the other has, when an entry pins its predecessor. -/
theorem suffix_of_shared {R S : α → α → Prop} {pre pre' : List α} {x : α}
    (back : ∀ a ∈ pre, ∀ b ∈ pre', ∀ c, R a c → S b c → a = b)
    (h : (pre ++ [x]).IsChain R) (h' : (pre' ++ [x]).IsChain S) :
    pre <:+ pre' ∨ pre' <:+ pre := by
  induction pre using List.reverseRecOn generalizing pre' x with
  | nil => exact Or.inl nil_suffix
  | append_singleton pre a ih =>
    rcases eq_nil_or_concat pre' with rfl | ⟨pre'', b, rfl⟩
    · exact Or.inr nil_suffix
    · rw [concat_eq_append] at back h' ⊢
      obtain ⟨hpre, -, hlast⟩ := isChain_append.mp h
      obtain ⟨hpre', -, hlast'⟩ := isChain_append.mp h'
      obtain rfl : a = b := back a (by simp) b (by simp) x
        (hlast a (by simp) x (by simp)) (hlast' b (by simp) x (by simp))
      have before : ∀ a ∈ pre, ∀ b ∈ pre'', ∀ c, R a c → S b c → a = b := fun a ha b hb =>
        back a (mem_append_left _ ha) b (mem_append_left _ hb)
      rcases ih before hpre hpre' with ⟨t, rfl⟩ | ⟨t, rfl⟩
      · exact Or.inl ⟨t, (append_assoc ..).symm⟩
      · exact Or.inr ⟨t, (append_assoc ..).symm⟩

end HashChain

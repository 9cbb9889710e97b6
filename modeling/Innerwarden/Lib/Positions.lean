import Mathlib.Data.List.Range
import Mathlib.Data.List.Sort

/-!
# Positions in a list

The positions of a list at which a test holds, in increasing order.
`filterMap_getElem?_positions` reads the elements back.  `rank` is where an element goes when
those that fail a test are dropped, and `filterMap_rank` renumbers positions by it.
-/

namespace List

variable {α : Type*}

def positions (p : α → Bool) (l : List α) : List Nat :=
  (range l.length).filter fun i => l[i]?.any p

def rank (p : α → Bool) (l : List α) (i : Nat) : Option Nat :=
  if l[i]?.any p then some ((l.take i).countP p) else none

variable {p q : α → Bool} {l : List α} {i : Nat}

@[simp] theorem positions_nil : positions p [] = [] := rfl

theorem any_getElem?_concat_of_lt (x : α) (h : i < l.length) :
    (l ++ [x])[i]?.any p = l[i]?.any p := by
  rw [getElem?_append_left h]

@[simp] theorem positions_concat (p : α → Bool) (l : List α) (x : α) :
    positions p (l ++ [x]) = positions p l ++ if p x then [l.length] else [] := by
  have hlast : (l ++ [x])[l.length]?.any p = p x := by simp
  rw [positions, length_append, length_singleton, range_succ, filter_append, positions]
  congr 1
  · exact filter_congr fun i hi => any_getElem?_concat_of_lt x (mem_range.mp hi)
  · rw [filter_singleton, hlast]
    cases p x with
    | false => rfl
    | true => rfl

theorem mem_positions : i ∈ positions p l ↔ ∃ x, l[i]? = some x ∧ p x = true := by
  rw [positions, mem_filter, mem_range]
  constructor
  · rintro ⟨-, h⟩
    cases hx : l[i]? with
    | none => simp [hx] at h
    | some x => exact ⟨x, rfl, by simpa [hx] using h⟩
  · rintro ⟨x, hx, hp⟩
    exact ⟨(getElem?_eq_some_iff.mp hx).1, by rw [hx, Option.any_some, hp]⟩

theorem lt_length_of_mem_positions (h : i ∈ positions p l) : i < l.length := by
  obtain ⟨x, hx, -⟩ := mem_positions.mp h
  exact (getElem?_eq_some_iff.mp hx).1

theorem pairwise_lt_positions (p : α → Bool) (l : List α) : (positions p l).Pairwise (· < ·) :=
  pairwise_lt_range.filter _

/-- An increasing list is known by its members. -/
theorem eq_positions {is : List Nat} (hlt : is.Pairwise (· < ·))
    (hmem : ∀ i, i ∈ is ↔ ∃ x, l[i]? = some x ∧ p x = true) : is = positions p l :=
  hlt.eq_of_mem_iff (pairwise_lt_positions p l) fun i => (hmem i).trans mem_positions.symm

theorem nodup_positions (p : α → Bool) (l : List α) : (positions p l).Nodup :=
  nodup_range.filter _

theorem length_positions (p : α → Bool) (l : List α) : (positions p l).length = l.countP p := by
  induction l using reverseRecOn with
  | nil => rfl
  | append_singleton l x ih =>
    rw [positions_concat, length_append, ih, countP_append, countP_singleton]
    split <;> rfl

theorem filterMap_getElem?_positions (p : α → Bool) (l : List α) :
    (positions p l).filterMap (fun i => l[i]?) = l.filter p := by
  induction l using reverseRecOn with
  | nil => rfl
  | append_singleton l x ih =>
    have hlt : (positions p l).filterMap (fun i => (l ++ [x])[i]?) =
        (positions p l).filterMap fun i => l[i]? :=
      filterMap_congr fun i hi => getElem?_append_left (lt_length_of_mem_positions hi)
    rw [positions_concat, filterMap_append, hlt, ih, filter_append]
    congr 1
    cases hp : p x with
    | true => simp [hp]
    | false => simp [hp]

theorem positions_congr (h : ∀ x ∈ l, p x = q x) : positions p l = positions q l := by
  refine filter_congr fun i _ => ?_
  cases hi : l[i]? with
  | none => rfl
  | some x => exact h x (mem_of_getElem? hi)

/-! ## Dropping elements -/

theorem rank_of_lt (p : α → Bool) (x : α) (h : i < l.length) :
    rank p (l ++ [x]) i = rank p l i := by
  rw [rank, rank, any_getElem?_concat_of_lt x h, take_append_of_le_length (Nat.le_of_lt h)]

theorem rank_length (p : α → Bool) (l : List α) (x : α) :
    rank p (l ++ [x]) l.length = if p x then some (l.filter p).length else none := by
  rw [rank, countP_eq_length_filter, take_left]
  simp

theorem rank_of_ge (p : α → Bool) (h : l.length ≤ i) : rank p l i = none := by
  rw [rank, getElem?_eq_none h]
  rfl

theorem rank_concat (p : α → Bool) (l : List α) (x : α) (i : Nat) :
    rank p (l ++ [x]) i =
      if i = l.length then (if p x then some (l.filter p).length else none) else rank p l i := by
  rcases Nat.lt_trichotomy i l.length with hlt | rfl | hgt
  · rw [if_neg (Nat.ne_of_lt hlt), rank_of_lt p x hlt]
  · rw [if_pos rfl, rank_length]
  · rw [if_neg (Nat.ne_of_gt hgt), rank_of_ge p (Nat.le_of_lt hgt), rank_of_ge]
    rw [length_append, length_singleton]
    exact hgt

theorem rank_map {β : Type*} (f : β → α) (l : List β) (i : Nat) :
    rank p (l.map f) i = rank (fun x => p (f x)) l i := by
  rw [rank, rank, getElem?_map, Option.any_map, ← map_take, countP_map]
  rfl

theorem rank_congr (h : ∀ x ∈ l, p x = q x) (i : Nat) : rank p l i = rank q l i := by
  have hany : l[i]?.any p = l[i]?.any q := by
    cases hi : l[i]? with
    | none => rfl
    | some x => exact h x (mem_of_getElem? hi)
  have hcount : (l.take i).countP p = (l.take i).countP q :=
    countP_congr fun x hx => by rw [h x (mem_of_mem_take hx)]
  rw [rank, rank, hany, hcount]

theorem getElem?_of_rank {j : Nat} (h : rank p l i = some j) : (l.filter p)[j]? = l[i]? := by
  induction l using reverseRecOn with
  | nil => simp [rank] at h
  | append_singleton l x ih =>
    rw [rank_concat] at h
    split at h
    case isTrue hi =>
      cases hp : p x with
      | false => simp [hp] at h
      | true =>
        rw [hp, if_pos rfl, Option.some.injEq] at h
        rw [filter_append, filter_singleton, hp, ← h, hi]
        simp
    case isFalse hi =>
      have hx := ih h
      have hlt : i < l.length := by
        by_contra hge
        rw [rank_of_ge p (Nat.le_of_not_lt hge)] at h
        cases h
      have hj : j < (l.filter p).length := by
        rw [getElem?_eq_getElem hlt] at hx
        exact (getElem?_eq_some_iff.mp hx).1
      rw [filter_append, getElem?_append_left hj, hx, getElem?_append_left hlt]

theorem filterMap_rank (p q : α → Bool) (l : List α) :
    (positions (fun x => p x && q x) l).filterMap (rank p l) = positions q (l.filter p) := by
  induction l using reverseRecOn with
  | nil => rfl
  | append_singleton l x ih =>
    have hlt : (positions (fun x => p x && q x) l).filterMap (rank p (l ++ [x])) =
        (positions (fun x => p x && q x) l).filterMap (rank p l) :=
      filterMap_congr fun i hi => rank_of_lt p x (lt_length_of_mem_positions hi)
    rw [positions_concat, filterMap_append, hlt, ih, filter_append]
    cases hp : p x with
    | false => simp [hp]
    | true =>
      rw [filter_singleton, hp, cond_true, positions_concat]
      cases hq : q x with
      | false => simp
      | true => simp [rank_length, hp]

end List

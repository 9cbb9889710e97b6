import Mathlib.Algebra.Order.BigOperators.Group.List
import Mathlib.Algebra.Order.Field.Basic
import Mathlib.Data.List.Infix
import Mathlib.Tactic.Linarith

/-!
# Admission from a store with a cap

Before each request the store gains something and is cut at its cap.  A request that is
admitted takes one.  `greedy` admits whenever there is one to take.

A *choice* is a list of gains, each with whether the request after it is admitted.  It is
`Affordable` when the store never runs short, and `Conforming` when no stretch of requests
admits more than the cap and what is gained inside the stretch.

* `affordable_iff`: with a full store these are the same.
* `taken_le_greedy`: no affordable choice admits more than the greedy one.
* `count_greedy_le_iff`: the bounds of the greedy choice are those of the conforming ones.
-/

namespace Admission

open List

variable {K : Type*} [Field K] [LinearOrder K]

def cost (admitted : Bool) : K := if admitted then 1 else 0

/-- Whether each request is admitted, by a store that holds `x` and admits what it can. -/
def greedy (cap : K) : K → List K → List Bool
  | _, [] => []
  | x, gain :: gains =>
    let y := min (x + gain) cap
    decide (1 ≤ y) :: greedy cap (y - cost (decide (1 ≤ y))) gains

def taken (choice : List (K × Bool)) : Nat := choice.countP Prod.snd

def gained (choice : List (K × Bool)) : K := (choice.map Prod.fst).sum

/-- A store that holds `x` has one for every request the choice admits. -/
def Affordable (cap : K) : K → List (K × Bool) → Prop
  | _, [] => True
  | x, (gain, admitted) :: choice =>
    let y := min (x + gain) cap
    cost admitted ≤ y ∧ Affordable cap (y - cost admitted) choice

/-- No stretch admits more than the cap and what is gained after its first request. -/
def Conforming (cap : K) (choice : List (K × Bool)) : Prop :=
  ∀ first rest, first :: rest <:+: choice → (taken (first :: rest) : K) ≤ cap + gained rest

variable {cap x : K}

omit [LinearOrder K] in
theorem taken_cons (gain : K) (admitted : Bool) (choice : List (K × Bool)) :
    (taken ((gain, admitted) :: choice) : K) = cost admitted + taken choice := by
  cases admitted with
  | true => simp [taken, cost, add_comm]
  | false => simp [taken, cost]

omit [LinearOrder K] in
theorem gained_cons (c : K × Bool) (choice : List (K × Bool)) :
    gained (c :: choice) = c.1 + gained choice := by
  simp [gained]

theorem conforming_cons {c : K × Bool} {choice : List (K × Bool)} :
    Conforming cap (c :: choice) ↔
      (∀ rest, rest <+: choice → (taken (c :: rest) : K) ≤ cap + gained rest) ∧
        Conforming cap choice := by
  constructor
  · intro h
    refine ⟨fun rest hrest => ?_, fun first rest hinfix => ?_⟩
    · exact h c rest (cons_prefix_cons.mpr ⟨rfl, hrest⟩).isInfix
    · exact h first rest (infix_cons hinfix)
  · rintro ⟨hhead, htail⟩ first rest hinfix
    rcases infix_cons_iff.mp hinfix with hprefix | hinfix
    · obtain ⟨rfl, hrest⟩ := cons_prefix_cons.mp hprefix
      exact hhead rest hrest
    · exact htail first rest hinfix

variable [IsStrictOrderedRing K]

/-- A store can pay for a choice exactly if no start of it admits more than the store holds
and gains, and no stretch more than the cap and what is gained inside. -/
theorem affordable_iff (choice : List (K × Bool)) :
    0 ≤ x ∧ Affordable cap x choice ↔
      (∀ start, start <+: choice → (taken start : K) ≤ x + gained start) ∧
        Conforming cap choice := by
  induction choice generalizing x with
  | nil =>
    have hconforming : Conforming cap [] := by
      intro first rest h
      simp at h
    simp [Affordable, taken, gained, hconforming]
  | cons c choice ih =>
    obtain ⟨gain, admitted⟩ := c
    have hstart : (∀ start, start <+: (gain, admitted) :: choice →
          (taken start : K) ≤ x + gained start) ↔
        0 ≤ x ∧ ∀ rest, rest <+: choice →
          cost admitted + (taken rest : K) ≤ x + (gain + gained rest) := by
      constructor
      · intro h
        refine ⟨by simpa [taken, gained] using h [] nil_prefix, fun rest hrest => ?_⟩
        have := h _ (cons_prefix_cons.mpr ⟨rfl, hrest⟩)
        rwa [taken_cons, gained_cons] at this
      · rintro ⟨hx, h⟩ start hstart
        cases start with
        | nil => simpa [taken, gained] using hx
        | cons c' rest =>
          obtain ⟨rfl, hrest⟩ := cons_prefix_cons.mp hstart
          rw [taken_cons, gained_cons]
          exact h rest hrest
    have hpay := ih (x := min (x + gain) cap - cost admitted)
    rw [hstart, conforming_cons]
    simp only [Affordable, taken_cons]
    rw [sub_nonneg] at hpay
    rw [hpay]
    constructor
    · rintro ⟨hx, hrest, hconforming⟩
      refine ⟨⟨hx, fun rest hr => ?_⟩, fun rest hr => ?_, hconforming⟩
      · linarith [hrest rest hr, min_le_left (x + gain) cap]
      · linarith [hrest rest hr, min_le_right (x + gain) cap]
    · rintro ⟨⟨hx, hstore⟩, hcap, hconforming⟩
      refine ⟨hx, fun rest hr => ?_, hconforming⟩
      rcases min_choice (x + gain) cap with hmin | hmin
      · rw [hmin]
        linarith [hstore rest hr]
      · rw [hmin]
        linarith [hcap rest hr]

/-- The greedy choice is ahead of every affordable one: as much as it holds less, it has
admitted more. -/
theorem taken_le_greedy (choice : List (K × Bool)) :
    ∀ (x x' : K) (ahead : Nat), x' ≤ x + ahead → Affordable cap x' choice →
      taken choice ≤ ahead + (greedy cap x (choice.map Prod.fst)).count true := by
  induction choice with
  | nil => simp [taken]
  | cons c choice ih =>
    obtain ⟨gain, admitted⟩ := c
    intro x x' ahead hx haff
    obtain ⟨hcost, hrest⟩ := haff
    have hy : min (x' + gain) cap ≤ min (x + gain) cap + ahead := by
      rcases min_choice (x + gain) cap with hmin | hmin
      · rw [hmin]
        linarith [min_le_left (x' + gain) cap]
      · rw [hmin]
        linarith [min_le_right (x' + gain) cap, (Nat.cast_nonneg ahead : (0 : K) ≤ ahead)]
    simp only [map_cons, greedy]
    generalize min (x' + gain) cap = y' at hcost hrest hy
    generalize min (x + gain) cap = y at hy
    cases admitted with
    | false =>
      simp only [cost, Bool.false_eq_true, if_false, sub_zero] at hrest
      by_cases h1 : 1 ≤ y
      · have := ih (y - 1) y' (ahead + 1) (by push_cast; linarith) hrest
        simp only [taken, countP_cons, cost, h1, decide_true, if_true,
          count_cons_self, Bool.false_eq_true, if_false] at this ⊢
        omega
      · have := ih y y' ahead hy hrest
        simpa [taken, cost, h1] using this
    | true =>
      simp only [cost, if_true] at hcost hrest
      by_cases h1 : 1 ≤ y
      · have := ih (y - 1) (y' - 1) ahead (by linarith) hrest
        simp only [taken, countP_cons, cost, h1, decide_true, if_true,
          count_cons_self] at this ⊢
        omega
      · -- The other choice has one to take, so the greedy one is ahead.
        obtain ⟨ahead, rfl⟩ : ∃ n, ahead = n + 1 := by
          refine Nat.exists_eq_succ_of_ne_zero ?_
          rintro rfl
          exact h1 (by simpa using hcost.trans hy)
        have := ih y (y' - 1) ahead (by push_cast at hy; linarith) hrest
        simp only [taken, countP_cons, cost, h1, decide_false, Bool.false_eq_true, if_true,
          if_false, sub_zero, count_cons] at this ⊢
        simp only [beq_true, Bool.false_eq_true, if_false]
        omega

def greedyChoice (cap x : K) (gains : List K) : List (K × Bool) := gains.zip (greedy cap x gains)

omit [IsStrictOrderedRing K] in
theorem length_greedy (gains : List K) : (greedy cap x gains).length = gains.length := by
  induction gains generalizing x with
  | nil => rfl
  | cons gain gains ih => simp [greedy, ih]

omit [IsStrictOrderedRing K] in
theorem map_fst_greedyChoice (gains : List K) :
    (greedyChoice cap x gains).map Prod.fst = gains :=
  map_fst_zip (length_greedy gains).ge

omit [IsStrictOrderedRing K] in
theorem taken_greedyChoice (gains : List K) :
    taken (greedyChoice cap x gains) = (greedy cap x gains).count true := by
  have hsnd : (greedyChoice cap x gains).map Prod.snd = greedy cap x gains :=
    map_snd_zip (length_greedy gains).le
  rw [← hsnd, List.count, countP_map, taken]
  exact countP_congr (by simp)

theorem affordable_greedyChoice (hcap : 0 ≤ cap) (gains : List K) (hgains : ∀ g ∈ gains, 0 ≤ g)
    (hx : 0 ≤ x) : Affordable cap x (greedyChoice cap x gains) := by
  induction gains generalizing x with
  | nil => trivial
  | cons gain gains ih =>
    obtain ⟨hgain, hgains⟩ := forall_mem_cons.mp hgains
    have hy : 0 ≤ min (x + gain) cap := le_min (add_nonneg hx hgain) hcap
    have hcost : cost (decide (1 ≤ min (x + gain) cap)) ≤ min (x + gain) cap := by
      by_cases h1 : 1 ≤ min (x + gain) cap
      · simp [cost, h1]
      · simpa [cost, h1] using hy
    exact ⟨hcost, ih hgains (sub_nonneg.mpr hcost)⟩

theorem affordable_full_iff (hcap : 0 ≤ cap) {choice : List (K × Bool)}
    (hgains : ∀ c ∈ choice, 0 ≤ c.1) : Affordable cap cap choice ↔ Conforming cap choice := by
  have hiff : 0 ≤ cap ∧ Affordable cap cap choice ↔ _ := affordable_iff choice
  refine ⟨fun h => (hiff.mp ⟨hcap, h⟩).2, fun h => (hiff.mpr ⟨fun start hstart => ?_, h⟩).2⟩
  cases start with
  | nil => simpa [taken, gained] using hcap
  | cons c rest =>
    have hc := hgains c (hstart.mem (mem_cons_self ..))
    have := h c rest hstart.isInfix
    rw [gained_cons]
    linarith

/-- A bound holds for the greedy choice of a full store exactly if it holds for every
conforming choice. -/
theorem count_greedy_le_iff (hcap : 0 ≤ cap) {gains : List K} (hgains : ∀ g ∈ gains, 0 ≤ g)
    (bound : K) :
    ((greedy cap cap gains).count true : K) ≤ bound ↔
      ∀ choice : List (K × Bool), choice.map Prod.fst = gains → Conforming cap choice →
        (taken choice : K) ≤ bound := by
  constructor
  · rintro h choice rfl hconforming
    have haff := (affordable_full_iff hcap
      fun c hc => hgains c.1 (mem_map_of_mem hc)).mpr hconforming
    have htaken := taken_le_greedy choice cap cap 0 (by simp) haff
    rw [Nat.zero_add] at htaken
    exact le_trans (Nat.cast_le.mpr htaken) h
  · intro h
    have hfst : (greedyChoice cap cap gains).map Prod.fst = gains := map_fst_greedyChoice gains
    have haff := affordable_greedyChoice hcap gains hgains hcap
    rw [← taken_greedyChoice]
    refine h _ hfst ((affordable_full_iff hcap ?_).mp haff)
    intro c hc
    exact hgains c.1 (hfst ▸ mem_map_of_mem hc)

end Admission

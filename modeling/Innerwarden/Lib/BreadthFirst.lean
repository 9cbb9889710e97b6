import Mathlib.Data.Finset.Card

/-!
# Breadth-first search

A search from one node to another over labelled steps.  The queue holds nodes with the labels
of a walk to them.  A node is marked as visited when it enters the queue, a node whose walk is
as long as the bound is dropped, and the search returns as soon as a step ends at the goal.

Every walk that leaves the visited nodes does so from one that is still in the queue, or from
beyond the bound (`Searching.leaves`).  The queue is sorted by length, so the walk to a new node
is a shortest one (`Searching.push`), and so is the walk to the goal.  An empty queue means that
nothing outside is within the bound (`Searching.search`).
-/

namespace BreadthFirst

open List

variable {α ι : Type*}

/-- The labels of a walk over the steps. -/
inductive Walk (next : α → List (ι × α)) (start : α) : List ι → α → Prop where
  | nil : Walk next start [] start
  | snoc {path : List ι} {a b : α} {i : ι} :
      Walk next start path a → (i, b) ∈ next a → Walk next start (path ++ [i]) b

theorem Walk.cons {next : α → List (ι × α)} {a b c : α} {i : ι} {path : List ι}
    (hstep : (i, b) ∈ next a) (hwalk : Walk next b path c) : Walk next a (i :: path) c := by
  induction hwalk with
  | nil => exact .snoc .nil hstep
  | snoc _ hlast ih => exact .snoc ih hlast

/-- No walk to the node is shorter. -/
def Shortest (next : α → List (ι × α)) (start : α) (path : List ι) (a : α) : Prop :=
  Walk next start path a ∧ ∀ other, Walk next start other a → path.length ≤ other.length

/-- What the search has seen and what it has still to look at. -/
structure Frontier (α ι : Type*) where
  visited : Finset α
  queue : List (α × List ι)

section Loops

variable [DecidableEq α]

/-- The loop over the steps of one node, which stops at the goal. -/
def expand (goal : α) (path : List ι) : List (ι × α) → Frontier α ι → List ι ⊕ Frontier α ι
  | [], f => .inr f
  | (i, b) :: steps, f =>
    if b = goal then .inl (path ++ [i])
    else if b ∈ f.visited then expand goal path steps f
    else expand goal path steps ⟨insert b f.visited, f.queue ++ [(b, path ++ [i])]⟩

/-- The loop over the queue. -/
def search (next : α → List (ι × α)) (goal : α) (depth : Nat) :
    Nat → Frontier α ι → Option (List ι)
  | 0, _ => none
  | fuel + 1, f =>
    match f.queue with
    | [] => none
    | (a, path) :: queue =>
      if depth ≤ path.length then search next goal depth fuel ⟨f.visited, queue⟩
      else
        match expand goal path (next a) ⟨f.visited, queue⟩ with
        | .inl found => some found
        | .inr f => search next goal depth fuel f

end Loops

/-! ## The invariant -/

def start (a : α) : Frontier α ι := ⟨{a}, [(a, [])]⟩

/-- The state between two turns of the loop, or within one with the node that is looked at
still at the head of the queue. -/
structure Searching (next : α → List (ι × α)) (source goal : α) (depth : Nat)
    (f : Frontier α ι) : Prop where
  sourceVisited : source ∈ f.visited
  goalUnvisited : goal ∉ f.visited
  shortest : ∀ entry ∈ f.queue, Shortest next source entry.2 entry.1
  sorted : f.queue.Pairwise fun x y => x.2.length ≤ y.2.length
  /-- The queue holds two lengths at most. -/
  narrow : ∀ x ∈ f.queue, ∀ y ∈ f.queue, y.2.length ≤ x.2.length + 1
  /-- A visited node is in the queue, or all its steps stay inside, or it is at the bound. -/
  accounted : ∀ a ∈ f.visited, (∃ path, (a, path) ∈ f.queue) ∨
    (∀ step ∈ next a, step.2 ∈ f.visited) ∨ ∀ path, Walk next source path a → depth ≤ path.length

variable {next : α → List (ι × α)} {source goal : α} {depth : Nat}

theorem Searching.start (hne : source ≠ goal) :
    Searching next source goal depth (BreadthFirst.start source) where
  sourceVisited := Finset.mem_singleton_self source
  goalUnvisited hmem := hne (Finset.mem_singleton.mp hmem).symm
  shortest entry hentry := by
    rw [BreadthFirst.start, mem_singleton] at hentry
    rw [hentry]
    exact ⟨.nil, fun _ _ => Nat.zero_le _⟩
  sorted := pairwise_singleton _ _
  narrow x hx y hy := by
    rw [BreadthFirst.start, mem_singleton] at hx hy
    rw [hx, hy]
    exact Nat.zero_le _
  accounted a ha := by
    rw [BreadthFirst.start, Finset.mem_singleton] at ha
    exact Or.inl ⟨[], by rw [ha]; exact mem_singleton_self _⟩

variable {f : Frontier α ι}

theorem Searching.leaves (h : Searching next source goal depth f) {path : List ι} {a : α}
    (hwalk : Walk next source path a) (ha : a ∉ f.visited) :
    (∃ entry ∈ f.queue, entry.2.length < path.length) ∨ depth < path.length := by
  induction hwalk with
  | nil => exact absurd h.sourceVisited ha
  | @snoc path b a i hwalk hstep ih =>
    rw [length_append, length_singleton]
    by_cases hb : b ∈ f.visited
    · rcases h.accounted b hb with ⟨queued, hqueued⟩ | hclosed | hfar
      · exact Or.inl ⟨_, hqueued, Nat.lt_succ_of_le ((h.shortest _ hqueued).2 path hwalk)⟩
      · exact absurd (hclosed _ hstep) ha
      · exact Or.inr (Nat.lt_succ_of_le (hfar path hwalk))
    · rcases ih hb with ⟨entry, hentry, hlt⟩ | hlt
      · exact Or.inl ⟨entry, hentry, Nat.lt_succ_of_lt hlt⟩
      · exact Or.inr (Nat.lt_succ_of_lt hlt)

theorem Searching.lt_of_queue_eq_nil (h : Searching next source goal depth f)
    (hqueue : f.queue = []) {path : List ι} (hpath : Walk next source path goal) :
    depth < path.length := by
  rcases h.leaves hpath h.goalUnvisited with ⟨entry, hentry, -⟩ | hlt
  · rw [hqueue] at hentry
    cases hentry
  · exact hlt

section Turn

variable {visited : Finset α} {a b : α} {path : List ι} {i : ι} {queue : List (α × List ι)}
  (h : Searching next source goal depth ⟨visited, (a, path) :: queue⟩)

include h

theorem Searching.pop (hdone : (∀ step ∈ next a, step.2 ∈ visited) ∨ depth ≤ path.length) :
    Searching next source goal depth ⟨visited, queue⟩ where
  sourceVisited := h.sourceVisited
  goalUnvisited := h.goalUnvisited
  shortest entry hentry := h.shortest entry (mem_cons_of_mem _ hentry)
  sorted := (pairwise_cons.mp h.sorted).2
  narrow x hx y hy := h.narrow x (mem_cons_of_mem _ hx) y (mem_cons_of_mem _ hy)
  accounted c hc := by
    rcases h.accounted c hc with ⟨queued, hqueued⟩ | hrest
    · rcases mem_cons.mp hqueued with heq | hqueued
      · obtain ⟨rfl, rfl⟩ := Prod.mk.inj heq
        refine Or.inr (hdone.imp id fun hfar other hother => ?_)
        exact hfar.trans ((h.shortest _ mem_cons_self).2 other hother)
      · exact Or.inl ⟨queued, hqueued⟩
    · exact Or.inr hrest

variable (hdepth : path.length < depth)

include hdepth

/-- A step out of the head of the queue is a shortest way to where it ends. -/
theorem Searching.shortest_step (hstep : (i, b) ∈ next a) (hb : b ∉ visited) :
    Shortest next source (path ++ [i]) b := by
  refine ⟨.snoc (h.shortest _ mem_cons_self).1 hstep, fun other hother => ?_⟩
  rw [length_append, length_singleton]
  rcases h.leaves hother hb with ⟨entry, hentry, hlt⟩ | hlt
  · rcases mem_cons.mp hentry with rfl | hentry
    · exact hlt
    · exact Nat.lt_of_le_of_lt ((pairwise_cons.mp h.sorted).1 entry hentry) hlt
  · exact Nat.lt_trans hdepth hlt

variable [DecidableEq α]

/-- A node that was not visited enters the queue. -/
theorem Searching.push (hstep : (i, b) ∈ next a) (hb : b ∉ visited) (hgoal : b ≠ goal) :
    Searching next source goal depth
      ⟨insert b visited, (a, path) :: (queue ++ [(b, path ++ [i])])⟩ := by
  -- The new entry is one longer than the head, and no entry is longer than that.
  have hlength : (path ++ [i]).length = path.length + 1 := length_append
  have hmem : ∀ {entry}, entry ∈ (a, path) :: (queue ++ [(b, path ++ [i])]) ↔
      entry ∈ (a, path) :: queue ∨ entry = (b, path ++ [i]) := by
    intro entry
    rw [← cons_append, mem_append, mem_singleton]
  have hhead : ∀ y ∈ (a, path) :: queue, path.length ≤ y.2.length := by
    intro y hy
    rcases mem_cons.mp hy with rfl | hy
    · exact Nat.le_refl _
    · exact (pairwise_cons.mp h.sorted).1 y hy
  have hwide : ∀ y ∈ (a, path) :: queue, y.2.length ≤ path.length + 1 :=
    h.narrow _ mem_cons_self
  refine ⟨Finset.mem_insert_of_mem h.sourceVisited, ?_, ?_, ?_, ?_, ?_⟩
  · rw [Finset.mem_insert, not_or]
    exact ⟨fun heq => hgoal heq.symm, h.goalUnvisited⟩
  · intro entry hentry
    rcases hmem.mp hentry with hentry | rfl
    · exact h.shortest entry hentry
    · exact h.shortest_step hdepth hstep hb
  · rw [← cons_append]
    refine pairwise_append.mpr ⟨h.sorted, pairwise_singleton _ _, ?_⟩
    intro x hx y hy
    rw [mem_singleton.mp hy, hlength]
    exact hwide x hx
  · intro x hx y hy
    rcases hmem.mp hx with hx | rfl
    · rcases hmem.mp hy with hy | rfl
      · exact h.narrow x hx y hy
      · rw [hlength]
        exact Nat.succ_le_succ (hhead x hx)
    · rw [hlength]
      rcases hmem.mp hy with hy | rfl
      · exact Nat.le_succ_of_le (hwide y hy)
      · rw [hlength]
        exact Nat.le_succ _
  · intro c hc
    rcases Finset.mem_insert.mp hc with rfl | hc
    · exact Or.inl ⟨path ++ [i], hmem.mpr (Or.inr rfl)⟩
    · rcases h.accounted c hc with ⟨queued, hqueued⟩ | hclosed | hfar
      · exact Or.inl ⟨queued, hmem.mpr (Or.inl hqueued)⟩
      · exact Or.inr (Or.inl fun step hstep => Finset.mem_insert_of_mem (hclosed step hstep))
      · exact Or.inr (Or.inr hfar)

/-- The loop over the steps of the head finds a shortest walk to the goal, or goes on. -/
theorem Searching.expand {steps : List (ι × α)} (hsteps : steps ⊆ next a) :
    match expand goal path steps ⟨visited, queue⟩ with
    | .inl found => Shortest next source found goal ∧ found.length ≤ depth
    | .inr f => Searching next source goal depth ⟨f.visited, (a, path) :: f.queue⟩ := by
  induction steps generalizing visited queue with
  | nil => exact h
  | cons step steps ih =>
    obtain ⟨hstep, hrest⟩ := cons_subset.mp hsteps
    rw [BreadthFirst.expand]
    by_cases hgoal : step.2 = goal
    · rw [if_pos hgoal]
      refine ⟨h.shortest_step hdepth (hgoal ▸ hstep) h.goalUnvisited, ?_⟩
      rw [length_append, length_singleton]
      exact hdepth
    · rw [if_neg hgoal]
      by_cases hold : step.2 ∈ visited
      · rw [if_pos hold]
        exact ih h hrest
      · rw [if_neg hold]
        exact ih (h.push hdepth hstep hold hgoal) hrest

end Turn

/-! ## Fuel -/

variable [DecidableEq α]

def pending (nodes : Finset α) (f : Frontier α ι) : Nat :=
  f.queue.length + (nodes \ f.visited).card

theorem pending_start_le (nodes : Finset α) (a : α) :
    pending nodes (start a : Frontier α ι) ≤ nodes.card + 1 := by
  rw [pending, Nat.add_comm]
  exact Nat.add_le_add_right (Finset.card_le_card Finset.sdiff_subset) _

/-- Without the goal, the loop leaves all steps inside.  A node that enters the queue leaves the
unvisited ones. -/
theorem expand_inr {steps : List (ι × α)} {path : List ι} {f' : Frontier α ι}
    (hdone : expand goal path steps f = .inr f') :
    f.visited ⊆ f'.visited ∧ (∀ step ∈ steps, step.2 ∈ f'.visited) ∧
      ∀ nodes : Finset α, (∀ step ∈ steps, step.2 ∈ nodes) →
        pending nodes f' = pending nodes f := by
  induction steps generalizing f with
  | nil =>
    cases hdone
    exact ⟨Finset.Subset.refl _, fun step hstep => (not_mem_nil hstep).elim, fun _ _ => rfl⟩
  | cons step steps ih =>
    simp only [forall_mem_cons]
    rw [expand] at hdone
    split at hdone
    case isTrue => cases hdone
    case isFalse =>
      split at hdone
      case isTrue hold =>
        obtain ⟨hsub, hinside, hkept⟩ := ih hdone
        exact ⟨hsub, ⟨hsub hold, hinside⟩, fun nodes hsteps => hkept nodes hsteps.2⟩
      case isFalse hnew =>
        obtain ⟨hsub, hinside, hkept⟩ := ih hdone
        obtain ⟨hin, hsub⟩ := Finset.insert_subset_iff.mp hsub
        refine ⟨hsub, ⟨hin, hinside⟩, fun nodes ⟨hstep, hrest⟩ => ?_⟩
        rw [hkept nodes hrest, pending, pending, Finset.sdiff_insert, length_append,
          length_singleton, Nat.add_assoc, Nat.add_comm 1,
          Finset.card_erase_add_one (Finset.mem_sdiff.mpr ⟨hstep, hnew⟩)]

/-! ## The search -/

/-- With fuel for every node that may enter the queue, the search finds a shortest walk within
the bound or there is none. -/
theorem Searching.search {nodes : Finset α} {fuel : Nat}
    (hnext : ∀ a, ∀ step ∈ next a, step.2 ∈ nodes) (h : Searching next source goal depth f)
    (hfuel : pending nodes f ≤ fuel) :
    match search next goal depth fuel f with
    | some found => Shortest next source found goal ∧ found.length ≤ depth
    | none => ∀ path, Walk next source path goal → depth < path.length := by
  induction fuel generalizing f with
  | zero =>
    rw [pending] at hfuel
    exact fun path hpath => h.lt_of_queue_eq_nil (length_eq_zero_iff.mp (by omega)) hpath
  | succ fuel ih =>
    obtain ⟨visited, queue⟩ := f
    cases queue with
    | nil => exact fun path hpath => h.lt_of_queue_eq_nil rfl hpath
    | cons entry queue =>
      have hpending : pending nodes ⟨visited, entry :: queue⟩ =
          pending nodes ⟨visited, queue⟩ + 1 := by
        rw [pending, pending, length_cons, Nat.add_right_comm]
      simp only [BreadthFirst.search]
      by_cases hfar : depth ≤ entry.2.length
      · rw [if_pos hfar]
        exact ih (h.pop (Or.inr hfar)) (by omega)
      · rw [if_neg hfar]
        have hexpand := h.expand (Nat.lt_of_not_le hfar) (List.Subset.refl _)
        cases hdone : BreadthFirst.expand goal entry.2 (next entry.1) ⟨visited, queue⟩ with
        | inl found =>
          rw [hdone] at hexpand
          exact hexpand
        | inr f =>
          rw [hdone] at hexpand
          obtain ⟨-, hinside, hkept⟩ := expand_inr hdone
          exact ih (hexpand.pop (Or.inl hinside)) (by rw [hkept nodes (hnext _)]; omega)

end BreadthFirst

import Innerwarden.Knowledge.Adjacency
import Innerwarden.Lib.BreadthFirst
import Mathlib.Combinatorics.SimpleGraph.Metric

/-!
# Paths between nodes

`path_between` of `graph.rs` is a breadth-first search over the positions listed at each node,
outgoing edges first.  `liveGraph` is the simple graph of the live edges.
`pathBetween_shortest` says that a path is found exactly if the distance is within the bound,
and that its length is the distance.
-/

namespace Innerwarden

open List

namespace KnowledgeGraph

/-- The steps out of a node, along the edges that leave it and then against those that reach
it, each with the position of its edge. -/
def steps (g : KnowledgeGraph) (a : NodeId) : List (Nat × NodeId) :=
  (adjacent g.outgoing a).filterMap (fun i => g.edges[i]?.map fun e => (i, e.toId)) ++
    (adjacent g.incoming a).filterMap fun i => g.edges[i]?.map fun e => (i, e.fromId)

/-- A node enters the queue at most once, and there are at most two for each edge. -/
def pathBetween (g : KnowledgeGraph) (fromId toId : NodeId) (maxDepth : Nat) :
    Option (List Edge) :=
  if fromId = toId then some []
  else
    let fuel := 2 * g.edges.length + 1
    (BreadthFirst.search g.steps toId maxDepth fuel (BreadthFirst.start fromId)).map fun path =>
      path.filterMap fun i => g.edges[i]?

/-! ## Walks -/

/-- Two nodes are adjacent if a live edge joins them, whichever way it points. -/
def liveGraph (g : KnowledgeGraph) : SimpleGraph NodeId :=
  SimpleGraph.fromRel fun a b =>
    ∃ i e, g.live i = true ∧ g.edges[i]? = some e ∧ e.fromId = a ∧ e.toId = b

/-- The live edges form a walk, each used in either direction. -/
inductive Traverses (g : KnowledgeGraph) (a : NodeId) : List Edge → NodeId → Prop where
  | nil : Traverses g a [] a
  | forth {path : List Edge} {i : Nat} {e : Edge} :
      Traverses g a path e.fromId → g.live i = true → g.edges[i]? = some e →
        Traverses g a (path ++ [e]) e.toId
  | back {path : List Edge} {i : Nat} {e : Edge} :
      Traverses g a path e.toId → g.live i = true → g.edges[i]? = some e →
        Traverses g a (path ++ [e]) e.fromId

variable {g : KnowledgeGraph} {a b : NodeId}

theorem Adjacency.mem_steps (h : g.Adjacency) {i : Nat} :
    (i, b) ∈ g.steps a ↔
      g.live i = true ∧ ∃ e, g.edges[i]? = some e ∧
        (e.fromId = a ∧ e.toId = b ∨ e.toId = a ∧ e.fromId = b) := by
  simp only [steps, mem_append, mem_filterMap, Option.map_eq_some_iff, Prod.mk.injEq,
    h.outgoing, h.incoming]
  grind

/-- A step is adjacent in the graph of the live edges, unless it stays where it is. -/
theorem edist_le_one {i : Nat} {e : Edge} (hlive : g.live i = true) (he : g.edges[i]? = some e) :
    g.liveGraph.edist e.fromId e.toId ≤ 1 := by
  rw [SimpleGraph.edist_le_one_iff_adj_or_eq, liveGraph, SimpleGraph.fromRel_adj]
  by_cases hne : e.fromId = e.toId
  · exact Or.inr hne
  · exact Or.inl ⟨hne, Or.inl ⟨i, e, hlive, he, rfl, rfl⟩⟩

theorem Traverses.edist_le {path : List Edge} (h : g.Traverses a path b) :
    g.liveGraph.edist a b ≤ path.length := by
  have hstep : ∀ {c d : NodeId} {path : List Edge} {e : Edge}, g.liveGraph.edist a c ≤ path.length →
      g.liveGraph.edist c d ≤ 1 → g.liveGraph.edist a d ≤ (path ++ [e]).length := by
    intro c d path e hpath hone
    rw [length_append, length_singleton, Nat.cast_add, Nat.cast_one]
    exact SimpleGraph.edist_triangle.trans (add_le_add hpath hone)
  induction h with
  | nil => rw [SimpleGraph.edist_self, length_nil, Nat.cast_zero]
  | forth _ hlive he ih => exact hstep ih (edist_le_one hlive he)
  | back _ hlive he ih =>
    exact hstep ih (SimpleGraph.edist_comm.trans_le (edist_le_one hlive he))

theorem Adjacency.traverses (h : g.Adjacency) {path : List Nat}
    (hwalk : BreadthFirst.Walk g.steps a path b) :
    g.Traverses a (path.filterMap fun i => g.edges[i]?) b ∧
      (path.filterMap fun i => g.edges[i]?).length = path.length := by
  induction hwalk with
  | nil => exact ⟨.nil, rfl⟩
  | @snoc path c b i _ hstep ih =>
    obtain ⟨hwalk, hlength⟩ := ih
    obtain ⟨hlive, e, he, hends⟩ := h.mem_steps.mp hstep
    have hedges : (path ++ [i]).filterMap (fun i => g.edges[i]?) =
        path.filterMap (fun i => g.edges[i]?) ++ [e] := by
      rw [filterMap_append, filterMap_cons_some he, filterMap_nil]
    rw [hedges, length_append, length_append, hlength]
    refine ⟨?_, rfl⟩
    rcases hends with ⟨rfl, rfl⟩ | ⟨rfl, rfl⟩
    · exact .forth hwalk hlive he
    · exact .back hwalk hlive he

theorem Adjacency.exists_walk (h : g.Adjacency) (p : g.liveGraph.Walk a b) :
    ∃ path, BreadthFirst.Walk g.steps a path b ∧ path.length = p.length := by
  induction p with
  | nil => exact ⟨[], .nil, rfl⟩
  | cons hadj p ih =>
    obtain ⟨path, hwalk, hlength⟩ := ih
    obtain ⟨-, ⟨i, e, hlive, he, hfrom, hto⟩ | ⟨i, e, hlive, he, hfrom, hto⟩⟩ :=
      (SimpleGraph.fromRel_adj _ _ _).mp hadj
    · have hstep := h.mem_steps.mpr ⟨hlive, e, he, Or.inl ⟨hfrom, hto⟩⟩
      exact ⟨i :: path, hwalk.cons hstep, congrArg (· + 1) hlength⟩
    · have hstep := h.mem_steps.mpr ⟨hlive, e, he, Or.inr ⟨hto, hfrom⟩⟩
      exact ⟨i :: path, hwalk.cons hstep, congrArg (· + 1) hlength⟩

theorem Adjacency.exists_walk_of_edist_le (h : g.Adjacency) {n : Nat}
    (hle : g.liveGraph.edist a b ≤ n) :
    ∃ path, BreadthFirst.Walk g.steps a path b ∧ path.length = g.liveGraph.edist a b := by
  have hfinite : g.liveGraph.edist a b ≠ ⊤ := ne_top_of_le_ne_top (ENat.natCast_ne_top n) hle
  obtain ⟨p, hp⟩ := SimpleGraph.exists_walk_of_edist_ne_top hfinite
  obtain ⟨path, hwalk, hlength⟩ := h.exists_walk p
  exact ⟨path, hwalk, by rw [hlength, hp]⟩

theorem Adjacency.edist_eq (h : g.Adjacency) {path : List Nat}
    (hshortest : BreadthFirst.Shortest g.steps a path b) :
    g.liveGraph.edist a b = path.length := by
  obtain ⟨htraverses, hlength⟩ := h.traverses hshortest.1
  have hle : g.liveGraph.edist a b ≤ path.length := hlength ▸ htraverses.edist_le
  obtain ⟨other, hother, hedist⟩ := h.exists_walk_of_edist_le hle
  refine le_antisymm hle ?_
  rw [← hedist, Nat.cast_le]
  exact hshortest.2 other hother

/-! ## The search -/

def ends (g : KnowledgeGraph) : Finset NodeId :=
  (g.edges.map Edge.fromId ++ g.edges.map Edge.toId).toFinset

theorem card_ends_le (g : KnowledgeGraph) : g.ends.card ≤ 2 * g.edges.length := by
  refine (toFinset_card_le _).trans (Nat.le_of_eq ?_)
  rw [length_append, length_map, length_map, Nat.two_mul]

theorem Adjacency.mem_ends (h : g.Adjacency) {step : Nat × NodeId} (hstep : step ∈ g.steps a) :
    step.2 ∈ g.ends := by
  obtain ⟨-, e, he, hends⟩ := h.mem_steps.mp hstep
  have hmem := mem_of_getElem? he
  rw [ends, mem_toFinset, mem_append]
  rcases hends with ⟨-, hto⟩ | ⟨-, hfrom⟩
  · exact Or.inr (hto ▸ mem_map_of_mem hmem)
  · exact Or.inl (hfrom ▸ mem_map_of_mem hmem)

/-- A path is found exactly if the two nodes are within the bound of each other over the live
edges, and then it is a walk between them of the length of their distance. -/
theorem pathBetween_shortest (h : g.Adjacency) (fromId toId : NodeId) (maxDepth : Nat) :
    ((g.pathBetween fromId toId maxDepth).isSome = true ↔
        g.liveGraph.edist fromId toId ≤ maxDepth) ∧
      ∀ path, g.pathBetween fromId toId maxDepth = some path →
        g.Traverses fromId path toId ∧ path.length = g.liveGraph.edist fromId toId := by
  by_cases heq : fromId = toId
  · subst heq
    have hpath : g.pathBetween fromId fromId maxDepth = some [] := if_pos rfl
    rw [hpath, SimpleGraph.edist_self]
    refine ⟨by simp, fun path hsome => ?_⟩
    cases hsome
    exact ⟨.nil, rfl⟩
  · have hstart : BreadthFirst.Searching g.steps fromId toId maxDepth (BreadthFirst.start fromId) :=
      .start heq
    have hfuel := (BreadthFirst.pending_start_le (ι := Nat) g.ends fromId).trans
      (Nat.add_le_add_right g.card_ends_le 1)
    have hfound := hstart.search (fun _ _ hstep => h.mem_ends hstep) hfuel
    simp only [pathBetween, if_neg heq]
    cases hsearch : BreadthFirst.search g.steps toId maxDepth (2 * g.edges.length + 1)
        (BreadthFirst.start fromId) with
    | none =>
      -- The fuel was enough, so it is the distance that is too great.
      rw [Option.map_none]
      refine ⟨iff_of_false (by simp) fun hle => ?_, fun path hsome => by cases hsome⟩
      obtain ⟨path, hwalk, hlength⟩ := h.exists_walk_of_edist_le hle
      rw [hsearch] at hfound
      rw [← hlength, Nat.cast_le] at hle
      exact absurd hle (Nat.not_le_of_lt (hfound path hwalk))
    | some path =>
      rw [hsearch] at hfound
      obtain ⟨hshortest, hdepth⟩ := hfound
      obtain ⟨htraverses, hlength⟩ := h.traverses hshortest.1
      rw [Option.map_some, h.edist_eq hshortest]
      refine ⟨iff_of_true rfl (Nat.cast_le.mpr hdepth), fun edges hsome => ?_⟩
      cases hsome
      exact ⟨htraverses, congrArg _ hlength⟩

/-- Three users, and edges from the first and the last to the one between. -/
def forkOps : List Op :=
  [.addNode (.user ⟨"root", none⟩), .addNode (.user ⟨"www", none⟩),
   .addNode (.user ⟨"git", none⟩), .addEdge ⟨1, 2, .runAs, 0, ∅⟩, .addEdge ⟨3, 2, .runAs, 0, ∅⟩]

theorem pathBetween_shortest_fork :
    let g := (machine (fun t n => 5 * t < n) 0).exec (new 0) forkOps
    g.Adjacency ∧ g.liveGraph.edist 1 3 ≤ 2 ∧ ¬ g.liveGraph.edist 1 3 ≤ 1 := by
  intro g
  have hadj : g.Adjacency := (tracked_exec (fun t n => 5 * t < n) 0 forkOps).adjacency
  have hsome : (g.pathBetween 1 3 2).isSome = true ∧ ¬ (g.pathBetween 1 3 1).isSome = true := by
    decide +kernel
  refine ⟨hadj, (pathBetween_shortest hadj 1 3 2).1.mp hsome.1, fun hle => hsome.2 ?_⟩
  exact (pathBetween_shortest hadj 1 3 1).1.mpr hle

end KnowledgeGraph

end Innerwarden

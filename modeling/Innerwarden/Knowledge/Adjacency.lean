import Innerwarden.Knowledge.Invariant

/-!
# Edges with any ends

`add_edge` does not look whether the ends of the edge are there.  `Tracked` is what holds in any
case: a live edge is listed at both its ends, a tombstone nowhere, and the estimate is the size
of the nodes and of all the edges (`tracked_exec`).  A removal makes the edges of the node
tombstones and no others (`Adjacency.live_removeNode`).
-/

namespace Innerwarden

open List

namespace KnowledgeGraph

/-- What is left of the invariant when an edge may have lost an end. -/
structure Tracked (g : KnowledgeGraph) : Prop where
  ids : ∀ id ∈ g.nodes, id < g.nextId
  adjacency : g.Adjacency
  weighed : g.Weighed

/-- The order a map is iterated in: all its nodes, each once. -/
structure Enumerates (g : KnowledgeGraph) (order : List NodeId) : Prop where
  nodup : order.Nodup
  mem : ∀ id, id ∈ order ↔ id ∈ g.nodes

theorem exists_enumerates (g : KnowledgeGraph) : ∃ order, g.Enumerates order :=
  ⟨g.nodes.keys.toList, Finset.nodup_toList _, fun id => by
    rw [Finset.mem_toList, Finmap.mem_keys]⟩

variable {g : KnowledgeGraph} {id : NodeId} {i : Nat}

theorem Adjacency.getElem?_of_live (h : g.Adjacency) (hlive : g.live i = true) :
    ∃ e, g.edges[i]? = some e := by
  obtain ⟨a, ha⟩ := live_iff_exists.mp hlive
  obtain ⟨-, e, he, -⟩ := (h.outgoing a i).mp ha
  exact ⟨e, he⟩

theorem Adjacency.lt_length (h : g.Adjacency) (hlive : g.live i = true) : i < g.edges.length := by
  obtain ⟨e, he⟩ := h.getElem?_of_live hlive
  exact (List.getElem?_eq_some_iff.mp he).1

theorem pairwise_mergeSort_ts {α : Type*} (ts : α → DateTime) (l : List α) :
    (l.mergeSort fun a b => ts a ≤ ts b).Pairwise fun a b => ts a ≤ ts b := by
  have hsorted : (l.mergeSort fun a b => ts a ≤ ts b).Pairwise
      fun a b => decide (ts a ≤ ts b) = true := by
    refine pairwise_mergeSort (fun a b c hab hbc => ?_) (fun a b => ?_) l
    · rw [decide_eq_true_eq] at hab hbc ⊢
      exact Int.le_trans hab hbc
    · rw [Bool.or_eq_true, decide_eq_true_eq, decide_eq_true_eq]
      exact Int.le_total (ts a) (ts b)
  exact hsorted.imp fun h => of_decide_eq_true h

/-! ## Edges added -/

theorem live_pushEdge (edge : Edge) :
    (g.pushEdge edge).live i = true ↔ g.live i = true ∨ i = g.edges.length := by
  rw [live_iff_exists, live_iff_exists]
  simp only [pushEdge, adjacent_pushAdjacent, mem_append]
  constructor
  · rintro ⟨a, h | h⟩
    · exact Or.inl ⟨a, h⟩
    · split at h
      · exact Or.inr (mem_singleton.mp h)
      · cases h
  · rintro (⟨a, h⟩ | rfl)
    · exact ⟨a, Or.inl h⟩
    · exact ⟨edge.fromId, Or.inr (by simp)⟩

variable {m : FiniteMap NodeId (List Nat)} {endOf : Edge → NodeId}

/-- One list per end, with the new position where it belongs. -/
theorem mem_pushAdjacent_iff (hlt : ∀ i, g.live i = true → i < g.edges.length)
    (h : ∀ a i, i ∈ adjacent m a ↔ g.live i = true ∧ ∃ e, g.edges[i]? = some e ∧ endOf e = a)
    (edge : Edge) (a : NodeId) (i : Nat) :
    i ∈ adjacent (pushAdjacent m (endOf edge) g.edges.length) a ↔
      (g.pushEdge edge).live i = true ∧
        ∃ e, (g.pushEdge edge).edges[i]? = some e ∧ endOf e = a := by
  have hedges : (g.pushEdge edge).edges = g.edges ++ [edge] := rfl
  rw [adjacent_pushAdjacent, mem_append, live_pushEdge, h, hedges]
  by_cases hi : i = g.edges.length
  · have hdead : ¬ g.live i = true := fun hlive => absurd (hlt i hlive) (hi ▸ Nat.lt_irrefl _)
    by_cases hend : endOf edge = a
    · simp [hi, hend]
    · simp [hi ▸ hdead, hi, hend]
  · have hnew : i ∉ if endOf edge = a then [g.edges.length] else [] := by
      split
      · exact fun hmem => hi (mem_singleton.mp hmem)
      · exact not_mem_nil
    constructor
    · rintro (⟨hlive, e, he, hend⟩ | hmem)
      · exact ⟨Or.inl hlive, e, by rwa [getElem?_append_left (hlt i hlive)], hend⟩
      · exact absurd hmem hnew
    · rintro ⟨hlive, e, he, hend⟩
      have hlive := hlive.resolve_right hi
      rw [getElem?_append_left (hlt i hlive)] at he
      exact Or.inl ⟨hlive, e, he, hend⟩

theorem Adjacency.pushEdge (h : g.Adjacency) (edge : Edge) : (g.pushEdge edge).Adjacency where
  outgoing := mem_pushAdjacent_iff (fun _ => h.lt_length) h.outgoing edge
  incoming := mem_pushAdjacent_iff (fun _ => h.lt_length) h.incoming edge

/-! ## Nodes removed -/

theorem removeNode_lists (hid : id ∈ g.nodes) :
    (g.removeNode id).outgoing =
        (g.incidentIdxs id).foldl (dropEdge g.edges id) (g.outgoing.erase id) ∧
      (g.removeNode id).incoming =
        (g.incidentIdxs id).foldl (dropEdge g.edges id) (g.incoming.erase id) := by
  obtain ⟨node, hnode⟩ := Finmap.mem_iff.mp hid
  simp only [removeNode, hnode, foldl_detachEdge, eraseNode, deindexNode]
  repeat' split
  all_goals exact ⟨rfl, rfl⟩

theorem Adjacency.live_removeNode (h : g.Adjacency) (hid : id ∈ g.nodes) :
    (g.removeNode id).live i = true ↔
      g.live i = true ∧ ∃ e, g.edges[i]? = some e ∧ touches id e = false := by
  rw [live_iff_exists, (removeNode_lists hid).1]
  simp only [h.mem_remove_iff (fun _ => Or.inl rfl) h.outgoing]
  constructor
  · rintro ⟨a, hlive, e, he, -, htouch⟩
    exact ⟨hlive, e, he, htouch⟩
  · rintro ⟨hlive, e, he, htouch⟩
    exact ⟨e.fromId, hlive, e, he, rfl, htouch⟩

theorem Adjacency.removeNode (h : g.Adjacency) (id : NodeId) : (g.removeNode id).Adjacency := by
  by_cases hid : id ∈ g.nodes
  · obtain ⟨hout, hin⟩ := removeNode_lists hid
    have hedges := (g.removeNode_frame id).2.1
    refine ⟨fun a i => ?_, fun a i => ?_⟩
    · rw [hout, h.mem_remove_iff (fun _ => Or.inl rfl) h.outgoing, h.live_removeNode hid, hedges]
      grind
    · rw [hin, h.mem_remove_iff (fun _ => Or.inr rfl) h.incoming, h.live_removeNode hid, hedges]
      grind
  · rw [removeNode_of_none (Finmap.lookup_eq_none.mpr hid)]
    exact h

theorem mem_foldl_removeNode {ids : List NodeId} {n : NodeId} :
    n ∈ (ids.foldl removeNode g).nodes ↔ n ∈ g.nodes ∧ n ∉ ids := by
  induction ids generalizing g with
  | nil => simp
  | cons id ids ih =>
    rw [foldl_cons, ih, (g.removeNode_frame id).1, Finmap.mem_erase, mem_cons]
    tauto

/-! ## Compaction -/

theorem getElem?_compact {j : Nat} (h : g.compaction.oldToNew.lookup i = some j) :
    g.compact.edges[j]? = g.edges[i]? := by
  obtain ⟨hnew, hrank, -⟩ := foldl_visit g.live g.memoryEstimate g.edges
  have hedges : g.compact.edges =
      (g.edges.zipIdx.filter fun entry => g.live entry.2).map Prod.fst := hnew
  have hj := getElem?_of_rank ((hrank i).symm.trans h)
  rw [hedges, getElem?_map, hj, ← getElem?_map, zipIdx_map_fst]

theorem mem_compact {a : NodeId} {j : Nat} :
    j ∈ adjacent (FiniteMap.mapValues
        (fun idxs => idxs.filterMap fun i => g.compaction.oldToNew.lookup i) m) a ↔
      ∃ i ∈ adjacent m a, g.compaction.oldToNew.lookup i = some j := by
  rw [adjacent_mapValues, mem_filterMap]

theorem live_compact {j : Nat} :
    g.compact.live j = true ↔
      ∃ i, g.live i = true ∧ g.compaction.oldToNew.lookup i = some j := by
  rw [live_iff_exists]
  simp only [compact, mem_compact, live_iff_exists]
  constructor
  · rintro ⟨a, i, hi, hj⟩
    exact ⟨i, ⟨a, hi⟩, hj⟩
  · rintro ⟨i, ⟨a, hi⟩, hj⟩
    exact ⟨a, i, hi, hj⟩

theorem mem_compact_iff
    (hm : ∀ a i, i ∈ adjacent m a ↔ g.live i = true ∧ ∃ e, g.edges[i]? = some e ∧ endOf e = a)
    (a : NodeId) (j : Nat) :
    j ∈ adjacent (FiniteMap.mapValues
        (fun idxs => idxs.filterMap fun i => g.compaction.oldToNew.lookup i) m) a ↔
      g.compact.live j = true ∧ ∃ e, g.compact.edges[j]? = some e ∧ endOf e = a := by
  rw [mem_compact, live_compact]
  constructor
  · rintro ⟨i, hi, hj⟩
    obtain ⟨hlive, e, he, hend⟩ := (hm a i).mp hi
    exact ⟨⟨i, hlive, hj⟩, e, (getElem?_compact hj).trans he, hend⟩
  · rintro ⟨⟨i, hlive, hj⟩, e, he, hend⟩
    exact ⟨i, (hm a i).mpr ⟨hlive, e, (getElem?_compact hj).symm.trans he, hend⟩, hj⟩

theorem Adjacency.compact (h : g.Adjacency) : g.compact.Adjacency where
  outgoing := mem_compact_iff h.outgoing
  incoming := mem_compact_iff h.incoming

/-! ## Runs -/

theorem Tracked.nextId_notMem (h : g.Tracked) : g.nextId ∉ g.nodes :=
  fun hmem => Nat.lt_irrefl _ (h.ids _ hmem)

theorem Tracked.addNode (h : g.Tracked) (node : Node) : (g.addNode node).1.Tracked := by
  refine addNode_induction h fun _ => ⟨fun id hid => ?_,
    ⟨h.adjacency.outgoing, h.adjacency.incoming⟩, h.weighed.insertNode h.nextId_notMem⟩
  rcases Finmap.mem_insert.mp hid with rfl | hid
  · exact Nat.lt_succ_self _
  · exact Nat.lt_succ_of_lt (h.ids id hid)

theorem Tracked.upsertNode (h : g.Tracked) (node : Node) : (g.upsertNode node).1.Tracked := by
  cases hfind : g.index.lookup node.key with
  | none =>
    rw [upsertNode_of_none hfind]
    exact h.addNode node
  | some id =>
    simp only [KnowledgeGraph.upsertNode, findExisting, hfind]
    refine ⟨?_, ⟨h.adjacency.outgoing, h.adjacency.incoming⟩, ?_⟩
    · intro a ha
      rw [FiniteMap.mem_adjust] at ha
      exact h.ids a ha
    · have htotal := FiniteMap.total_adjust id g.nodes fun old =>
        estimateNodeSize_mergeNode old node
      simp only [Weighed, htotal]
      exact h.weighed

theorem Tracked.pushEdge (h : g.Tracked) (edge : Edge) : (g.pushEdge edge).Tracked :=
  ⟨h.ids, h.adjacency.pushEdge edge, h.weighed.pushEdge⟩

theorem Tracked.removeNode (h : g.Tracked) (id : NodeId) : (g.removeNode id).Tracked := by
  obtain ⟨hnodes, hedges, -, hnext⟩ := g.removeNode_frame id
  refine ⟨fun a ha => ?_, h.adjacency.removeNode id, h.weighed.removeNode id⟩
  rw [hnodes, Finmap.mem_erase] at ha
  rw [hnext]
  exact h.ids a ha.2

theorem Tracked.compact (h : g.Tracked) : g.compact.Tracked :=
  ⟨h.ids, h.adjacency.compact, h.weighed.compact⟩

theorem tracked_new (now : DateTime) : (new now).Tracked where
  ids _ hid := absurd hid Finmap.notMem_empty
  adjacency := (consistent_new now).linked.adjacency
  weighed := rfl

theorem kept_tracked {belowRatio : Nat → Nat → Bool} : Kept belowRatio Tracked where
  addNode h := h.addNode
  upsertNode h := h.upsertNode
  removeNode h := h.removeNode
  compact h := h.compact
  setCurrentEvent h _ _ _ _ :=
    ⟨h.ids, ⟨h.adjacency.outgoing, h.adjacency.incoming⟩, h.weighed⟩

theorem Tracked.step {belowRatio : Nat → Nat → Bool} {op : Op} (h : g.Tracked) :
    (g.step belowRatio op).Tracked :=
  kept_tracked.step h fun _ _ => h.pushEdge _

/-- Every graph a run reaches, whatever edges it adds. -/
theorem tracked_exec (belowRatio : Nat → Nat → Bool) (now : DateTime) (ops : List Op) :
    ((machine belowRatio now).exec (new now) ops).Tracked :=
  StateMachine.exec_invariant (fun _ _ h => h.step) ops (tracked_new now)

end KnowledgeGraph

end Innerwarden

import Innerwarden.Knowledge.Graph
import Innerwarden.Lib.Positions

/-!
# The representation invariant of the knowledge graph

An edge *joins* if both its ends are there.  Ids are never given out twice, so an edge that was
cut off stays cut off.  The adjacency lists are the positions of the joining edges with the
given end.  The invariant has three parts, one lemma per operation each.

* `Linked`: ids, adjacency lists and tombstones.
* `Weighed`: the estimate of the memory.
* `Indexed`: the index and the threat intelligence set.

`repInvariant_of_run` reads off the form in which the source thinks of them.
-/

namespace Innerwarden

open List FiniteMap Finmap

namespace KnowledgeGraph

/-! ## The three parts -/

def joins (g : KnowledgeGraph) (e : Edge) : Bool :=
  decide (e.fromId ∈ g.nodes) && decide (e.toId ∈ g.nodes)

/-- The map lists, for each node, the positions of the edges that pass and end in it, at the
end that is looked at. -/
def Lists (edges : List Edge) (p : Edge → Bool) (endOf : Edge → NodeId)
    (m : FiniteMap NodeId (List Nat)) : Prop :=
  ∀ a, adjacent m a = edges.positions fun e => p e && decide (endOf e = a)

/-- Ids, adjacency lists and tombstones. -/
structure Linked (g : KnowledgeGraph) : Prop where
  ids : ∀ id ∈ g.nodes, id < g.nextId
  ends : ∀ e ∈ g.edges, e.fromId < g.nextId ∧ e.toId < g.nextId
  outgoing : Lists g.edges g.joins Edge.fromId g.outgoing
  incoming : Lists g.edges g.joins Edge.toId g.incoming
  tombstoned : g.tombstonedEdges + g.edges.countP g.joins = g.edges.length

def Weighed (g : KnowledgeGraph) : Prop :=
  g.memoryEstimate =
    FiniteMap.total estimateNodeSize g.nodes + (g.edges.map estimateEdgeSize).sum

/-- The index and the set follow the nodes. -/
structure Indexed (g : KnowledgeGraph) : Prop where
  index : ∀ key id, g.index.lookup key = some id ↔ ∃ n, g.nodes.lookup id = some n ∧ n.key = key
  threatIntel : ∀ id, id ∈ g.threatIntelNodes ↔
    ∃ n, g.nodes.lookup id = some n ∧ n.hasDatasets = true

/-- The invariant of the graph. -/
structure Consistent (g : KnowledgeGraph) : Prop where
  linked : g.Linked
  weighed : g.Weighed
  indexed : g.Indexed

variable {g g' : KnowledgeGraph} {id : NodeId} {node : Node} {edge : Edge}

variable {e : Edge} {endOf : Edge → NodeId} {m : FiniteMap NodeId (List Nat)} {edges : List Edge}
  {p : Edge → Bool}

theorem joins_eq_true : g.joins e = true ↔ e.fromId ∈ g.nodes ∧ e.toId ∈ g.nodes := by
  simp [joins]

theorem Lists.congr {q : Edge → Bool} (h : Lists edges p endOf m) (hpq : ∀ e ∈ edges, p e = q e) :
    Lists edges q endOf m := by
  intro a
  refine (h a).trans (positions_congr fun e he => ?_)
  rw [hpq e he]

theorem joins_congr (hfrom : e.fromId ∈ g'.nodes ↔ e.fromId ∈ g.nodes)
    (hto : e.toId ∈ g'.nodes ↔ e.toId ∈ g.nodes) : g'.joins e = g.joins e := by
  simp only [joins, hfrom, hto]

/-! ## Live edges -/

/-- A position is listed at both ends of the edge it has if the edge is live. -/
structure Adjacency (g : KnowledgeGraph) : Prop where
  outgoing : ∀ a i, i ∈ adjacent g.outgoing a ↔
    g.live i = true ∧ ∃ e, g.edges[i]? = some e ∧ e.fromId = a
  incoming : ∀ a i, i ∈ adjacent g.incoming a ↔
    g.live i = true ∧ ∃ e, g.edges[i]? = some e ∧ e.toId = a

theorem live_iff_exists {i : Nat} : g.live i = true ↔ ∃ a, i ∈ adjacent g.outgoing a := by
  rw [live, anyValue_eq_true]
  simp only [decide_eq_true_eq]
  constructor
  · rintro ⟨a, idxs, hlookup, hmem⟩
    exact ⟨a, by rw [adjacent, hlookup]; exact hmem⟩
  · rintro ⟨a, hadj⟩
    rw [adjacent] at hadj
    cases hlookup : g.outgoing.lookup a with
    | none => simp [hlookup] at hadj
    | some idxs => exact ⟨a, idxs, hlookup, by simpa [hlookup] using hadj⟩

theorem Linked.live_iff (h : g.Linked) {i : Nat} :
    g.live i = true ↔ ∃ e, g.edges[i]? = some e ∧ g.joins e = true := by
  rw [live_iff_exists]
  simp only [h.outgoing _, mem_positions, Bool.and_eq_true, decide_eq_true_eq]
  constructor
  · rintro ⟨a, e, he, hjoins, -⟩
    exact ⟨e, he, hjoins⟩
  · rintro ⟨e, he, hjoins⟩
    exact ⟨e.fromId, e, he, hjoins, rfl⟩

theorem Linked.live_eq (h : g.Linked) {i : Nat} (he : g.edges[i]? = some e) :
    g.live i = g.joins e := by
  rw [Bool.eq_iff_iff, h.live_iff]
  simp [he]

theorem Lists.mem_iff (h : g.Linked) (hm : Lists g.edges g.joins endOf m) (a : NodeId) (i : Nat) :
    i ∈ adjacent m a ↔ g.live i = true ∧ ∃ e, g.edges[i]? = some e ∧ endOf e = a := by
  rw [hm a, h.live_iff]
  simp only [mem_positions, Bool.and_eq_true, decide_eq_true_eq]
  constructor
  · rintro ⟨e, he, hj, hend⟩
    exact ⟨⟨e, he, hj⟩, e, he, hend⟩
  · rintro ⟨⟨e, he, hj⟩, e', he', hend⟩
    rw [he] at he'
    exact ⟨e, he, hj, Option.some.inj he' ▸ hend⟩

theorem Linked.adjacency (h : g.Linked) : g.Adjacency :=
  ⟨h.outgoing.mem_iff h, h.incoming.mem_iff h⟩

/-! ## Adding and merging nodes -/

/-- What `addNode` does to a key that is not there. -/
def insertNode (g : KnowledgeGraph) (node : Node) : KnowledgeGraph :=
  { g with
    nextId := g.nextId + 1
    index := g.index.insert node.key g.nextId
    threatIntelNodes :=
      if node.hasDatasets then insert g.nextId g.threatIntelNodes else g.threatIntelNodes
    memoryEstimate := g.memoryEstimate + estimateNodeSize node
    nodes := g.nodes.insert g.nextId node }

theorem addNode_of_none (h : g.index.lookup node.key = none) :
    (g.addNode node).1 = g.insertNode node := by
  simp only [addNode, findExisting, h]
  rfl

theorem addNode_induction {P : KnowledgeGraph → Prop} (h : P g)
    (hinsert : g.index.lookup node.key = none → P (g.insertNode node)) : P (g.addNode node).1 := by
  cases hfind : g.index.lookup node.key with
  | some id => simpa only [addNode, findExisting, hfind] using h
  | none =>
    rw [addNode_of_none hfind]
    exact hinsert hfind

theorem Linked.nextId_notMem (h : g.Linked) : g.nextId ∉ g.nodes :=
  fun hmem => Nat.lt_irrefl _ (h.ids _ hmem)

/-- No stored edge has the id that is given out next, so none is joined by a new node. -/
theorem Linked.joins_insertNode (h : g.Linked) (he : e ∈ g.edges) :
    (g.insertNode node).joins e = g.joins e := by
  have hmem : ∀ a < g.nextId, a ∈ (g.insertNode node).nodes ↔ a ∈ g.nodes := by
    intro a ha
    simp [insertNode, Nat.ne_of_lt ha]
  exact joins_congr (hmem _ (h.ends e he).1) (hmem _ (h.ends e he).2)

theorem Linked.insertNode (h : g.Linked) : (g.insertNode node).Linked := by
  have hjoins : ∀ e ∈ g.edges, g.joins e = (g.insertNode node).joins e :=
    fun e he => (h.joins_insertNode he).symm
  refine ⟨?_, ?_, ?_, ?_, ?_⟩
  · intro id hid
    rcases mem_insert.mp hid with rfl | hid
    · exact Nat.lt_succ_self _
    · exact Nat.lt_succ_of_lt (h.ids id hid)
  · intro e he
    exact ⟨Nat.lt_succ_of_lt (h.ends e he).1, Nat.lt_succ_of_lt (h.ends e he).2⟩
  · exact h.outgoing.congr hjoins
  · exact h.incoming.congr hjoins
  · have hcount : g.edges.countP g.joins = g.edges.countP (g.insertNode node).joins :=
      countP_congr fun e he => by rw [hjoins e he]
    exact hcount ▸ h.tombstoned

theorem Weighed.insertNode (h : g.Weighed) (hfresh : g.nextId ∉ g.nodes) :
    (g.insertNode node).Weighed := by
  have htotal : FiniteMap.total estimateNodeSize (g.nodes.insert g.nextId node) =
      estimateNodeSize node + FiniteMap.total estimateNodeSize g.nodes :=
    total_insert_of_notMem hfresh _ _
  simp only [Weighed, KnowledgeGraph.insertNode, htotal]
  rw [h]
  omega

theorem lookup_insertNode_iff (h : g.Linked) {P : Node → Prop} :
    (∃ n, (g.insertNode node).nodes.lookup id = some n ∧ P n) ↔
      (id = g.nextId ∧ P node) ∨ ∃ n, g.nodes.lookup id = some n ∧ P n := by
  simp only [insertNode, lookup_insert_eq]
  split
  case isTrue hid =>
    subst hid
    have hnone : g.nodes.lookup g.nextId = none := lookup_eq_none.mpr h.nextId_notMem
    simp [hnone]
  case isFalse hid => simp [hid]

theorem Indexed.insertNode (h : g.Indexed) (hlinked : g.Linked)
    (hfresh : g.index.lookup node.key = none) : (g.insertNode node).Indexed := by
  refine ⟨fun key id => ?_, fun id => ?_⟩
  · rw [lookup_insertNode_iff hlinked, ← h.index]
    simp only [KnowledgeGraph.insertNode, lookup_insert_eq]
    split
    case isTrue hkey =>
      subst hkey
      simp [hfresh, eq_comm]
    case isFalse hkey =>
      have hne : node.key ≠ key := fun h => hkey h.symm
      simp [hne]
  · rw [lookup_insertNode_iff hlinked, ← h.threatIntel]
    simp only [KnowledgeGraph.insertNode]
    split
    case isTrue hds => simp [hds]
    case isFalse hds => simp [hds]

theorem Consistent.addNode (h : g.Consistent) (node : Node) : (g.addNode node).1.Consistent :=
  addNode_induction h fun hfind => ⟨h.linked.insertNode,
    h.weighed.insertNode h.linked.nextId_notMem, h.indexed.insertNode h.linked hfind⟩

/-- What `upsertNode` does to a node that is there. -/
def mergeInto (g : KnowledgeGraph) (id : NodeId) (old node : Node) : KnowledgeGraph :=
  { g with
    nodes := g.nodes.insert id (mergeNode old node)
    threatIntelNodes :=
      if node.hasDatasets then insert id g.threatIntelNodes else g.threatIntelNodes }

theorem Indexed.upsertNode_eq (h : g.Indexed) (hfind : g.index.lookup node.key = some id) :
    ∃ old, g.nodes.lookup id = some old ∧ old.key = node.key ∧
      (g.upsertNode node).1 = g.mergeInto id old node := by
  obtain ⟨old, hold, hkey⟩ := (h.index _ _).mp hfind
  refine ⟨old, hold, hkey, ?_⟩
  simp only [upsertNode, findExisting, hfind, FiniteMap.adjust, hold]
  rfl

theorem upsertNode_of_none (h : g.index.lookup node.key = none) :
    g.upsertNode node = g.addNode node := by
  simp only [upsertNode, findExisting, h]

theorem mem_mergeInto {old : Node} (hold : g.nodes.lookup id = some old) (a : NodeId) :
    a ∈ (g.mergeInto id old node).nodes ↔ a ∈ g.nodes := by
  have hid : id ∈ g.nodes := mem_of_lookup_eq_some hold
  rw [mergeInto, mem_insert]
  exact or_iff_right_of_imp fun ha => ha ▸ hid

theorem joins_mergeInto {old : Node} (hold : g.nodes.lookup id = some old) :
    (g.mergeInto id old node).joins = g.joins :=
  funext fun _ => joins_congr (mem_mergeInto hold _) (mem_mergeInto hold _)

theorem Linked.mergeInto {old : Node} (h : g.Linked) (hold : g.nodes.lookup id = some old) :
    (g.mergeInto id old node).Linked := by
  have hjoins : (g.mergeInto id old node).joins = g.joins := joins_mergeInto hold
  refine ⟨fun a ha => h.ids a ((mem_mergeInto hold a).mp ha), h.ends, ?_, ?_, ?_⟩
  all_goals rw [hjoins]
  exacts [h.outgoing, h.incoming, h.tombstoned]

theorem Weighed.mergeInto {old : Node} (h : g.Weighed) (hold : g.nodes.lookup id = some old) :
    (g.mergeInto id old node).Weighed := by
  have htotal : FiniteMap.total estimateNodeSize (g.nodes.insert id (mergeNode old node)) =
      FiniteMap.total estimateNodeSize g.nodes :=
    total_insert_of_eq hold (estimateNodeSize_mergeNode old node)
  simp only [Weighed, KnowledgeGraph.mergeInto, htotal]
  exact h

theorem lookup_mergeInto_iff {old : Node} {a : NodeId} {P : Node → Prop} :
    (∃ n, (g.mergeInto id old node).nodes.lookup a = some n ∧ P n) ↔
      if a = id then P (mergeNode old node) else ∃ n, g.nodes.lookup a = some n ∧ P n := by
  simp only [mergeInto, lookup_insert_eq]
  split
  · simp
  · rfl

theorem Indexed.mergeInto {old : Node} (h : g.Indexed) (hold : g.nodes.lookup id = some old)
    (hkey : old.key = node.key) : (g.mergeInto id old node).Indexed := by
  refine ⟨fun key a => ?_, fun a => ?_⟩
  · rw [lookup_mergeInto_iff]
    split
    case isTrue ha =>
      subst ha
      have hindex := h.index key a
      simp only [hold, Option.some.injEq, exists_eq_left'] at hindex
      rw [key_mergeNode]
      exact hindex
    case isFalse => exact h.index key a
  · rw [lookup_mergeInto_iff]
    have hset : a ∈ (g.mergeInto id old node).threatIntelNodes ↔
        a ∈ g.threatIntelNodes ∨ (a = id ∧ node.hasDatasets = true) := by
      simp only [KnowledgeGraph.mergeInto]
      split
      case isTrue hds => simp [hds, or_comm]
      case isFalse hds => simp [hds]
    rw [hset]
    split
    case isTrue ha =>
      subst ha
      have hthreat := h.threatIntel a
      simp only [hold, Option.some.injEq, exists_eq_left'] at hthreat
      rw [hasDatasets_mergeNode hkey.symm, hthreat, Bool.or_eq_true]
      simp
    case isFalse ha => simp [ha, h.threatIntel a]

theorem Consistent.upsertNode (h : g.Consistent) (node : Node) :
    (g.upsertNode node).1.Consistent := by
  cases hfind : g.index.lookup node.key with
  | some id =>
    obtain ⟨old, hold, hkey, heq⟩ := h.indexed.upsertNode_eq hfind
    rw [heq]
    exact ⟨h.linked.mergeInto hold, h.weighed.mergeInto hold, h.indexed.mergeInto hold hkey⟩
  | none =>
    rw [upsertNode_of_none hfind]
    exact h.addNode node

/-! ## Adding edges -/

theorem ends_enrich (g : KnowledgeGraph) (edge : Edge) :
    (g.enrich edge).fromId = edge.fromId ∧ (g.enrich edge).toId = edge.toId := by
  simp only [enrich]
  cases g.currentEventSource <;> cases g.currentEventKind <;> cases g.currentEventSummary <;>
    cases g.currentEventSeverity <;> simp only [Option.elim] <;> try split
  all_goals simp only [Edge.fromId_setMissing, Edge.toId_setMissing, and_self]

theorem adjacent_pushAdjacent (m : FiniteMap NodeId (List Nat)) (a b : NodeId) (idx : Nat) :
    adjacent (pushAdjacent m b idx) a = adjacent m a ++ if b = a then [idx] else [] := by
  rw [adjacent, pushAdjacent, lookup_insert_eq]
  by_cases hab : a = b
  · simp [hab]
  · have hba : b ≠ a := fun h => hab h.symm
    simp [hab, hba, adjacent]

theorem Lists.push (h : Lists edges p endOf m) (hedge : p edge = true) :
    Lists (edges ++ [edge]) p endOf (pushAdjacent m (endOf edge) edges.length) := by
  intro a
  rw [adjacent_pushAdjacent, h a, positions_concat, hedge, Bool.true_and]
  simp only [decide_eq_true_eq]

theorem Linked.pushEdge (h : g.Linked) (hfrom : edge.fromId ∈ g.nodes)
    (hto : edge.toId ∈ g.nodes) : (g.pushEdge edge).Linked := by
  have hjoins : g.joins edge = true := joins_eq_true.mpr ⟨hfrom, hto⟩
  refine ⟨h.ids, ?_, h.outgoing.push hjoins, h.incoming.push hjoins, ?_⟩
  · intro e he
    rcases mem_append.mp he with he | he
    · exact h.ends e he
    · rw [mem_singleton.mp he]
      exact ⟨h.ids _ hfrom, h.ids _ hto⟩
  · have hcount : (g.edges ++ [edge]).countP g.joins = g.edges.countP g.joins + 1 := by
      rw [countP_append, countP_singleton, if_pos hjoins]
    have hlength : (g.edges ++ [edge]).length = g.edges.length + 1 := length_append
    exact (congrArg _ hcount).trans ((congrArg (· + 1) h.tombstoned).trans hlength.symm)

theorem Weighed.pushEdge (h : g.Weighed) : (g.pushEdge edge).Weighed := by
  simp only [Weighed, KnowledgeGraph.pushEdge, map_append, map_cons, map_nil,
    sum_append, sum_singleton]
  rw [h, Nat.add_assoc]

theorem Consistent.addEdge (h : g.Consistent) (hfrom : edge.fromId ∈ g.nodes)
    (hto : edge.toId ∈ g.nodes) : (g.addEdge edge).1.Consistent where
  linked := h.linked.pushEdge (by rwa [(ends_enrich ..).1]) (by rwa [(ends_enrich ..).2])
  weighed := h.weighed.pushEdge
  indexed := ⟨h.indexed.index, h.indexed.threatIntel⟩

/-! ## Removing nodes -/

theorem adjacent_dropAdjacent (m : FiniteMap NodeId (List Nat)) (a b : NodeId) (idx : Nat) :
    adjacent (dropAdjacent m b idx) a =
      (adjacent m a).filter fun i => !(decide (i = idx) && decide (b = a)) := by
  rw [adjacent, dropAdjacent]
  by_cases hab : a = b
  · subst hab
    rw [lookup_adjust_self, adjacent]
    cases m.lookup a with
    | none => rfl
    | some idxs => simp
  · have hba : b ≠ a := fun h => hab h.symm
    rw [lookup_adjust_of_ne hab]
    simp [hba, adjacent]

theorem adjacent_dropEdge (edges : List Edge) (id : NodeId) (m : FiniteMap NodeId (List Nat))
    (idx : Nat) (a : NodeId) :
    adjacent (dropEdge edges id m idx) a =
      (adjacent m a).filter fun i =>
        !(decide (i = idx) && edges[i]?.any fun e => decide (otherEnd id e = a)) := by
  rw [dropEdge]
  split
  case h_1 e he =>
    rw [adjacent_dropAdjacent]
    refine filter_congr fun i _ => ?_
    by_cases hi : i = idx
    · simp [hi, he]
    · simp [hi]
  case h_2 he =>
    rw [filter_eq_self.mpr]
    intro i _
    by_cases hi : i = idx
    · simp [hi, he]
    · simp [hi]

theorem adjacent_foldl_dropEdge (edges : List Edge) (id : NodeId) (idxs : List Nat)
    (m : FiniteMap NodeId (List Nat)) (a : NodeId) :
    adjacent (idxs.foldl (dropEdge edges id) m) a =
      (adjacent m a).filter fun i =>
        !(decide (i ∈ idxs) && edges[i]?.any fun e => decide (otherEnd id e = a)) := by
  induction idxs generalizing m with
  | nil => simp
  | cons idx idxs ih =>
    rw [foldl_cons, ih, adjacent_dropEdge, filter_filter]
    refine filter_congr fun i _ => ?_
    cases edges[i]?.any fun e => decide (otherEnd id e = a) with
    | false => simp
    | true => simp [Bool.and_comm]

theorem foldl_detachEdge (id : NodeId) (idxs : List Nat) (g : KnowledgeGraph) :
    idxs.foldl (detachEdge id) g =
      { g with
        outgoing := idxs.foldl (dropEdge g.edges id) g.outgoing
        incoming := idxs.foldl (dropEdge g.edges id) g.incoming
        tombstonedEdges := g.tombstonedEdges + idxs.length } := by
  induction idxs generalizing g with
  | nil => rfl
  | cons idx idxs ih =>
    rw [foldl_cons, ih, length_cons, Nat.add_comm idxs.length 1, ← Nat.add_assoc]
    rfl

theorem deindexNode_eq (h : g.index.lookup node.key = some id) :
    g.deindexNode id node = { g with index := g.index.erase node.key } := by
  cases node with
  | system n => exact if_pos h
  | _ => rfl

/-- What `removeNode` does to a node that is there and indexed. -/
def cutNode (g : KnowledgeGraph) (id : NodeId) (node : Node) : KnowledgeGraph :=
  { g with
    nodes := g.nodes.erase id
    memoryEstimate := g.memoryEstimate - estimateNodeSize node
    index := g.index.erase node.key
    threatIntelNodes := g.threatIntelNodes.erase id
    lastEdgeTs := g.lastEdgeTs.erase id
    outgoing := (g.incidentIdxs id).foldl (dropEdge g.edges id) (g.outgoing.erase id)
    incoming := (g.incidentIdxs id).foldl (dropEdge g.edges id) (g.incoming.erase id)
    tombstonedEdges := g.tombstonedEdges + (g.incidentIdxs id).length }

theorem removeNode_of_none (hnode : g.nodes.lookup id = none) : g.removeNode id = g := by
  simp only [removeNode, hnode]

theorem removeNode_of_some (hnode : g.nodes.lookup id = some node)
    (hindex : g.index.lookup node.key = some id) : g.removeNode id = g.cutNode id node := by
  simp only [removeNode, hnode]
  rw [foldl_detachEdge, eraseNode, deindexNode_eq]
  · rfl
  · exact hindex

theorem removeNode_frame (g : KnowledgeGraph) (id : NodeId) :
    (g.removeNode id).nodes = g.nodes.erase id ∧ (g.removeNode id).edges = g.edges ∧
      (g.removeNode id).maxMemory = g.maxMemory ∧ (g.removeNode id).nextId = g.nextId := by
  cases hnode : g.nodes.lookup id with
  | none =>
    rw [removeNode_of_none hnode]
    exact ⟨(erase_of_notMem (lookup_eq_none.mp hnode)).symm, rfl, rfl, rfl⟩
  | some node =>
    simp only [removeNode, hnode, foldl_detachEdge, eraseNode, deindexNode]
    repeat' split
    all_goals exact ⟨rfl, rfl, rfl, rfl⟩

def touches (id : NodeId) (e : Edge) : Bool := decide (e.fromId = id) || decide (e.toId = id)

theorem joins_cutNode (e : Edge) :
    (g.cutNode id node).joins e = (g.joins e && !touches id e) := by
  simp only [joins, cutNode, touches, mem_erase]
  by_cases hfrom : e.fromId = id
  · simp [hfrom]
  · by_cases hto : e.toId = id
    · simp [hto]
    · simp [hfrom, hto]

theorem otherEnd_eq (hend : ∀ e, endOf e = e.fromId ∨ endOf e = e.toId) {a : NodeId} (ha : a ≠ id)
    (hea : endOf e = a) (htouch : touches id e = true) : otherEnd id e = a := by
  simp only [touches, Bool.or_eq_true, decide_eq_true_eq] at htouch
  rw [otherEnd]
  rcases hend e with h | h
  · have hfrom : e.fromId = a := h.symm.trans hea
    rw [if_neg (by rw [hfrom]; exact ha), hfrom]
  · have hto : e.toId = a := h.symm.trans hea
    have hfrom : e.fromId = id := htouch.resolve_right (by rw [hto]; exact ha)
    rw [if_pos hfrom, hto]

theorem Adjacency.mem_incidentIdxs (h : g.Adjacency) {i : Nat} :
    i ∈ g.incidentIdxs id ↔
      g.live i = true ∧ ∃ e, g.edges[i]? = some e ∧ touches id e = true := by
  rw [incidentIdxs, mem_dedup, mem_mergeSort, mem_append, h.outgoing, h.incoming,
    ← and_or_left, ← exists_or]
  simp [touches, and_or_left]

/-- The lists without those of the node and without its edges. -/
theorem Adjacency.mem_remove_iff (h : g.Adjacency)
    (hend : ∀ e, endOf e = e.fromId ∨ endOf e = e.toId)
    (hm : ∀ a i, i ∈ adjacent m a ↔ g.live i = true ∧ ∃ e, g.edges[i]? = some e ∧ endOf e = a)
    (a : NodeId) (i : Nat) :
    i ∈ adjacent ((g.incidentIdxs id).foldl (dropEdge g.edges id) (m.erase id)) a ↔
      g.live i = true ∧ ∃ e, g.edges[i]? = some e ∧ endOf e = a ∧ touches id e = false := by
  rw [adjacent_foldl_dropEdge, mem_filter]
  by_cases ha : a = id
  · -- The list of the node went with it, and its edges touch it.
    have hnil : adjacent (m.erase id) a = [] := by rw [adjacent, ha, Finmap.lookup_erase]; rfl
    rw [hnil]
    refine iff_of_false (fun hmem => not_mem_nil hmem.1) ?_
    rintro ⟨-, e, -, hea, htouch⟩
    simp only [touches, Bool.or_eq_false_iff, decide_eq_false_iff_not] at htouch
    rcases hend e with heq | heq
    · exact htouch.1 (by rw [← heq, hea, ha])
    · exact htouch.2 (by rw [← heq, hea, ha])
  · have hkeep : adjacent (m.erase id) a = adjacent m a := by
      rw [adjacent, Finmap.lookup_erase_ne ha, adjacent]
    rw [hkeep, hm]
    constructor
    · rintro ⟨⟨hlive, e, he, hea⟩, hdrop⟩
      refine ⟨hlive, e, he, hea, ?_⟩
      cases htouch : touches id e with
      | false => rfl
      | true =>
        have hmem := h.mem_incidentIdxs.mpr ⟨hlive, e, he, htouch⟩
        simp [hmem, he, otherEnd_eq hend ha hea htouch] at hdrop
    · rintro ⟨hlive, e, he, hea, htouch⟩
      refine ⟨⟨hlive, e, he, hea⟩, ?_⟩
      have hmem : i ∉ g.incidentIdxs id := by
        rw [h.mem_incidentIdxs]
        simp [he, htouch]
      simp [hmem]

theorem Linked.length_incidentIdxs (h : g.Linked) :
    (g.incidentIdxs id).length = g.edges.countP fun e => g.joins e && touches id e := by
  have hnodup : (g.incidentIdxs id).Nodup := nodup_dedup _
  rw [← length_positions]
  refine ((perm_ext_iff_of_nodup hnodup (nodup_positions _ _)).mpr fun i => ?_).length_eq
  rw [h.adjacency.mem_incidentIdxs, h.live_iff, mem_positions]
  grind

theorem Lists.remove (h : g.Linked) (hend : ∀ e, endOf e = e.fromId ∨ endOf e = e.toId)
    (hm : Lists g.edges g.joins endOf m) :
    Lists g.edges (fun e => g.joins e && !touches id e) endOf
      ((g.incidentIdxs id).foldl (dropEdge g.edges id) (m.erase id)) := by
  intro a
  refine eq_positions ?_ fun i => ?_
  · rw [adjacent_foldl_dropEdge]
    refine Pairwise.filter _ ?_
    have hlt : (adjacent m a).Pairwise (· < ·) := hm a ▸ pairwise_lt_positions _ _
    rw [adjacent, lookup_erase_eq]
    split
    · exact Pairwise.nil
    · exact hlt
  · rw [h.adjacency.mem_remove_iff hend (hm.mem_iff h), h.live_iff]
    grind

theorem Linked.cutNode (h : g.Linked) : (g.cutNode id node).Linked := by
  have hjoins : ∀ e ∈ g.edges,
      (g.joins e && !touches id e) = (g.cutNode id node).joins e :=
    fun e _ => (joins_cutNode e).symm
  refine ⟨?_, h.ends, ?_, ?_, ?_⟩
  · intro a ha
    exact h.ids a (mem_erase.mp ha).2
  · exact (h.outgoing.remove h fun e => Or.inl rfl).congr hjoins
  · exact (h.incoming.remove h fun e => Or.inr rfl).congr hjoins
  · have hcount : g.edges.countP g.joins =
        g.edges.countP (fun e => g.joins e && touches id e) +
          g.edges.countP (g.cutNode id node).joins := by
      have hrest : (fun e => g.joins e && !touches id e) = (g.cutNode id node).joins :=
        funext fun e => (joins_cutNode e).symm
      rw [countP_eq_countP_filter_add g.edges g.joins (touches id), countP_filter,
        countP_filter, hrest]
    have htomb := h.tombstoned
    rw [hcount, ← h.length_incidentIdxs] at htomb
    exact (Nat.add_assoc _ _ _).trans htomb

theorem Weighed.removeNode (h : g.Weighed) (id : NodeId) : (g.removeNode id).Weighed := by
  cases hnode : g.nodes.lookup id with
  | none =>
    rw [removeNode_of_none hnode]
    exact h
  | some node =>
    have hmemory : (g.removeNode id).memoryEstimate =
        g.memoryEstimate - estimateNodeSize node := by
      simp only [KnowledgeGraph.removeNode, hnode, foldl_detachEdge, eraseNode, deindexNode]
      repeat' split
      all_goals rfl
    obtain ⟨hnodes, hedges, -⟩ := g.removeNode_frame id
    have htotal := total_erase hnode estimateNodeSize
    rw [Weighed, hmemory, hnodes, hedges, h, ← htotal, Nat.add_assoc, Nat.add_sub_cancel_left]

theorem lookup_cutNode_iff {a : NodeId} {P : Node → Prop} :
    (∃ n, (g.cutNode id node).nodes.lookup a = some n ∧ P n) ↔
      a ≠ id ∧ ∃ n, g.nodes.lookup a = some n ∧ P n := by
  simp only [cutNode, lookup_erase_eq]
  split
  case isTrue ha => simp [ha]
  case isFalse ha => simp [ha]

theorem Indexed.cutNode (h : g.Indexed) (hnode : g.nodes.lookup id = some node) :
    (g.cutNode id node).Indexed := by
  refine ⟨fun key a => ?_, fun a => ?_⟩
  · rw [lookup_cutNode_iff, ← h.index]
    have hid : g.index.lookup node.key = some id := (h.index _ _).mpr ⟨node, hnode, rfl⟩
    simp only [KnowledgeGraph.cutNode, lookup_erase_eq]
    split
    case isTrue hkey =>
      -- The key was that of the node alone.
      rw [hkey, hid]
      simp [eq_comm]
    case isFalse hkey =>
      refine ⟨fun ha => ⟨?_, ha⟩, And.right⟩
      rintro rfl
      obtain ⟨n, hn, hnkey⟩ := (h.index key a).mp ha
      rw [hnode] at hn
      exact hkey (by rw [← hnkey, Option.some.inj hn])
  · rw [lookup_cutNode_iff, ← h.threatIntel]
    exact Finset.mem_erase

theorem Consistent.removeNode (h : g.Consistent) (id : NodeId) : (g.removeNode id).Consistent := by
  cases hnode : g.nodes.lookup id with
  | none =>
    rw [removeNode_of_none hnode]
    exact h
  | some node =>
    have hweighed := h.weighed.removeNode id
    rw [removeNode_of_some hnode ((h.indexed.index _ _).mpr ⟨node, hnode, rfl⟩)] at hweighed ⊢
    exact ⟨h.linked.cutNode, hweighed, h.indexed.cutNode hnode⟩

/-! ## Compaction -/

/-- The loop keeps the edges that pass, numbers them by rank and gives back the memory of the
others. -/
theorem foldl_visit (live : Nat → Bool) (memory : Nat) (edges : List Edge) :
    let c := edges.zipIdx.foldl (Compaction.visit live) ⟨[], ∅, memory⟩
    c.newEdges = (edges.zipIdx.filter fun entry => live entry.2).map Prod.fst ∧
      (∀ i, c.oldToNew.lookup i = edges.zipIdx.rank (fun entry => live entry.2) i) ∧
      c.memoryEstimate = memory -
        ((edges.zipIdx.filter fun entry => !live entry.2).map fun entry =>
          estimateEdgeSize entry.1).sum := by
  induction edges using List.reverseRecOn with
  | nil => exact ⟨rfl, fun i => rfl, rfl⟩
  | append_singleton edges e ih =>
    obtain ⟨hnew, hrank, hmemory⟩ := ih
    have hlength : (edges.zipIdx.filter fun entry => live entry.2).length =
        ((edges.zipIdx.filter fun entry => live entry.2).map Prod.fst).length := by
      rw [length_map]
    simp only [zipIdx_append, foldl_append, zipIdx_cons, zipIdx_nil,
      foldl_cons, foldl_nil, Nat.zero_add, Compaction.visit]
    cases hlive : live edges.length with
    | true =>
      refine ⟨by simp [hnew, hlive], fun i => ?_, by simp [hmemory, hlive]⟩
      simp only [if_true, lookup_insert_eq, rank_concat, length_zipIdx,
        hlive, hnew, hrank, hlength]
    | false =>
      refine ⟨by simp [hnew, hlive], fun i => ?_, by simp [hmemory, hlive, Nat.sub_sub]⟩
      simp only [Bool.false_eq_true, if_false, rank_concat, length_zipIdx, hlive,
        hrank]
      split
      case isTrue hi =>
        exact rank_of_ge _ (by rw [length_zipIdx]; exact Nat.le_of_eq hi.symm)
      case isFalse => rfl

theorem Linked.live_entry (h : g.Linked) {entry : Edge × Nat} (hentry : entry ∈ g.edges.zipIdx) :
    g.live entry.2 = g.joins entry.1 :=
  h.live_eq (mem_zipIdx_iff_getElem?.mp hentry)

theorem Linked.newEdges_compaction (h : g.Linked) :
    g.compaction.newEdges = g.edges.filter g.joins := by
  have hmap := filter_map (f := Prod.fst) (p := g.joins) (l := g.edges.zipIdx)
  rw [zipIdx_map_fst] at hmap
  rw [compaction, (foldl_visit g.live g.memoryEstimate g.edges).1, hmap]
  exact congrArg _ (filter_congr fun entry hentry => h.live_entry hentry)

theorem Linked.lookup_oldToNew (h : g.Linked) (i : Nat) :
    g.compaction.oldToNew.lookup i = g.edges.rank g.joins i := by
  have hmap := rank_map (p := g.joins) Prod.fst g.edges.zipIdx i
  rw [zipIdx_map_fst] at hmap
  rw [compaction, (foldl_visit g.live g.memoryEstimate g.edges).2.1, hmap]
  exact rank_congr (fun entry hentry => h.live_entry hentry) i

theorem adjacent_mapValues (f : Nat → Option Nat) (m : FiniteMap NodeId (List Nat)) (a : NodeId) :
    adjacent (FiniteMap.mapValues (fun idxs => idxs.filterMap f) m) a =
      (adjacent m a).filterMap f := by
  rw [adjacent, lookup_mapValues, adjacent]
  cases m.lookup a with
  | none => rfl
  | some idxs => rfl

theorem Lists.compact (h : Lists edges p endOf m) :
    Lists (edges.filter p) p endOf
      (FiniteMap.mapValues (fun idxs => idxs.filterMap (edges.rank p)) m) := by
  intro a
  rw [adjacent_mapValues, h a, filterMap_rank]
  refine positions_congr fun e he => ?_
  rw [(mem_filter.mp he).2, Bool.true_and]

theorem Linked.compact_eq (h : g.Linked) :
    g.compact =
      { g with
        memoryEstimate := g.compaction.memoryEstimate
        outgoing :=
          FiniteMap.mapValues (fun idxs => idxs.filterMap (g.edges.rank g.joins)) g.outgoing
        incoming :=
          FiniteMap.mapValues (fun idxs => idxs.filterMap (g.edges.rank g.joins)) g.incoming
        edges := g.edges.filter g.joins
        tombstonedEdges := 0 } := by
  have hrank : (fun i => g.compaction.oldToNew.lookup i) = g.edges.rank g.joins :=
    funext h.lookup_oldToNew
  simp only [compact, hrank, h.newEdges_compaction]

theorem Linked.compact (h : g.Linked) : g.compact.Linked := by
  rw [h.compact_eq]
  refine ⟨h.ids, ?_, h.outgoing.compact, h.incoming.compact, ?_⟩
  · intro e he
    exact h.ends e (mem_filter.mp he).1
  · have hall : (g.edges.filter g.joins).countP g.joins = (g.edges.filter g.joins).length :=
      countP_eq_length.mpr fun e he => (mem_filter.mp he).2
    exact (Nat.zero_add _).trans hall

/-- The size of the edges that pass, by position. -/
def edgeSizes (g : KnowledgeGraph) (p : Edge × Nat → Bool) : Nat :=
  ((g.edges.zipIdx.filter p).map fun entry => estimateEdgeSize entry.1).sum

theorem edgeSizes_add_not (g : KnowledgeGraph) (p : Edge × Nat → Bool) :
    g.edgeSizes p + g.edgeSizes (fun entry => !p entry) =
      (g.edges.map estimateEdgeSize).sum := by
  have hmap : g.edges.map estimateEdgeSize =
      g.edges.zipIdx.map fun entry => estimateEdgeSize entry.1 := by
    conv_lhs => rw [← zipIdx_map_fst 0 g.edges, map_map]
    rfl
  rw [edgeSizes, edgeSizes, ← sum_append, ← map_append, hmap]
  exact ((filter_append_perm p g.edges.zipIdx).map _).sum_eq

theorem sum_compact (g : KnowledgeGraph) :
    (g.compact.edges.map estimateEdgeSize).sum = g.edgeSizes fun entry => g.live entry.2 := by
  have hnew : g.compact.edges = _ := (foldl_visit g.live g.memoryEstimate g.edges).1
  rw [hnew, map_map]
  rfl

theorem Weighed.compact (h : g.Weighed) : g.compact.Weighed := by
  have hmemory : g.compact.memoryEstimate =
      g.memoryEstimate - g.edgeSizes fun entry => !g.live entry.2 :=
    (foldl_visit g.live g.memoryEstimate g.edges).2.2
  have hsum := g.edgeSizes_add_not fun entry => g.live entry.2
  have hnodes : g.compact.nodes = g.nodes := rfl
  rw [Weighed, hmemory, h, hnodes, sum_compact, ← hsum, ← Nat.add_assoc, Nat.add_sub_cancel]

theorem Consistent.compact (h : g.Consistent) : g.compact.Consistent :=
  ⟨h.linked.compact, h.weighed.compact, ⟨h.indexed.index, h.indexed.threatIntel⟩⟩

theorem compactEdges_induction {P : KnowledgeGraph → Prop} (h : P g) (hcompact : P g.compact)
    (belowRatio : Nat → Nat → Bool) : P (g.compactEdges belowRatio) ∧ P g.compactEdgesForce := by
  rw [compactEdges, compactEdgesForce]
  constructor
  · split
    · exact h
    · split
      · exact h
      · exact hcompact
  · split
    · exact h
    · exact hcompact

/-! ## Runs -/

/-- What every operation but `addEdge` keeps.  Expiry and eviction are removals. -/
structure Kept (belowRatio : Nat → Nat → Bool) (P : KnowledgeGraph → Prop) : Prop where
  addNode : ∀ {g}, P g → ∀ node, P (g.addNode node).1
  upsertNode : ∀ {g}, P g → ∀ node, P (g.upsertNode node).1
  removeNode : ∀ {g}, P g → ∀ id, P (g.removeNode id)
  compact : ∀ {g}, P g → P g.compact
  setCurrentEvent : ∀ {g}, P g → ∀ source kind summary severity,
    P (g.step belowRatio (.setCurrentEvent source kind summary severity))

section Kept

variable {belowRatio : Nat → Nat → Bool} {P : KnowledgeGraph → Prop}

theorem Kept.foldl_removeNode (hP : Kept belowRatio P) (h : P g) (ids : List NodeId) :
    P (ids.foldl KnowledgeGraph.removeNode g) := by
  induction ids generalizing g with
  | nil => exact h
  | cons id ids ih => exact ih (hP.removeNode h id)

theorem Kept.evict (hP : Kept belowRatio P) (h : P g) (candidates : List (NodeId × DateTime)) :
    P (g.evict candidates) := by
  induction candidates generalizing g with
  | nil => exact h
  | cons c candidates ih =>
    rw [KnowledgeGraph.evict]
    split
    · exact h
    · exact ih (hP.removeNode h c.1)

theorem Kept.step (hP : Kept belowRatio P) {op : Op} (h : P g)
    (hedge : ∀ edge, op = .addEdge edge → P (g.addEdge edge).1) : P (g.step belowRatio op) := by
  cases op with
  | addNode node => exact hP.addNode h node
  | upsertNode node => exact hP.upsertNode h node
  | addEdge edge => exact hedge edge rfl
  | removeNode id => exact hP.removeNode h id
  | compactEdges => exact (compactEdges_induction h (hP.compact h) belowRatio).1
  | compactEdgesForce => exact (compactEdges_induction h (hP.compact h) belowRatio).2
  | cleanupExpired now order => exact hP.foldl_removeNode h _
  | enforceMemoryLimit order =>
    simp only [KnowledgeGraph.step, enforceMemoryLimit]
    split
    · exact h
    · exact hP.evict h _
  | setCurrentEvent source kind summary severity =>
    exact hP.setCurrentEvent h source kind summary severity

end Kept

variable {belowRatio : Nat → Nat → Bool}

theorem consistent_new (now : DateTime) : (new now).Consistent where
  linked :=
    { ids := fun id hid => absurd hid notMem_empty
      ends := fun e he => by cases he
      outgoing := fun a => rfl
      incoming := fun a => rfl
      tombstoned := rfl }
  weighed := rfl
  indexed :=
    { index := fun key id => by simp [new]
      threatIntel := fun id => by simp [new] }

theorem Consistent.setCurrentEvent (h : g.Consistent)
    (source kind summary severity : Option String) :
    (g.step belowRatio (.setCurrentEvent source kind summary severity)).Consistent :=
  ⟨⟨h.linked.ids, h.linked.ends, h.linked.outgoing, h.linked.incoming, h.linked.tombstoned⟩,
    h.weighed, ⟨h.indexed.index, h.indexed.threatIntel⟩⟩

theorem kept_consistent : Kept belowRatio Consistent where
  addNode h := h.addNode
  upsertNode h := h.upsertNode
  removeNode h := h.removeNode
  compact h := h.compact
  setCurrentEvent h := h.setCurrentEvent

theorem Consistent.step {op : Op} (h : g.Consistent) (hop : g.EndsPresent op) :
    (g.step belowRatio op).Consistent := by
  refine kept_consistent.step h fun edge hedge => ?_
  subst hedge
  exact h.addEdge hop.1 hop.2

/-- Every graph a run reaches is consistent. -/
theorem consistent_exec (belowRatio : Nat → Nat → Bool) (now : DateTime) (ops : List Op)
    (hops : (machine belowRatio now).Meets EndsPresent (new now) ops) :
    ((machine belowRatio now).exec (new now) ops).Consistent :=
  StateMachine.exec_invariant_of_meets (fun _ _ h hop => h.step hop) ops
    (consistent_new now) hops

/-- The invariant as the source states it, over the live edges. -/
structure RepInvariant (g : KnowledgeGraph) : Prop where
  /-- A position is listed under the node a live edge leaves. -/
  outgoing : ∀ a i, i ∈ adjacent g.outgoing a ↔
    g.live i = true ∧ ∃ e, g.edges[i]? = some e ∧ e.fromId = a
  /-- A position is listed under the node a live edge reaches. -/
  incoming : ∀ a i, i ∈ adjacent g.incoming a ↔
    g.live i = true ∧ ∃ e, g.edges[i]? = some e ∧ e.toId = a
  outgoingIncreasing : ∀ a, (adjacent g.outgoing a).Pairwise (· < ·)
  incomingIncreasing : ∀ a, (adjacent g.incoming a).Pairwise (· < ·)
  /-- The live edges are those that join two nodes that are there. -/
  live : ∀ i, g.live i = true ↔
    ∃ e, g.edges[i]? = some e ∧ e.fromId ∈ g.nodes ∧ e.toId ∈ g.nodes
  tombstoned : g.tombstonedEdges =
    g.edges.length - (List.range g.edges.length).countP g.live
  memory : g.memoryEstimate =
    FiniteMap.total estimateNodeSize g.nodes + (g.edges.map estimateEdgeSize).sum
  /-- The index maps the key of each node to it, and no other key. -/
  index : ∀ key id, g.index.lookup key = some id ↔ ∃ n, g.nodes.lookup id = some n ∧ n.key = key
  /-- No two nodes share a key. -/
  keyInjective : ∀ id id' n n', g.nodes.lookup id = some n → g.nodes.lookup id' = some n' →
    n.key = n'.key → id = id'

theorem Linked.countP_live (h : g.Linked) :
    (List.range g.edges.length).countP g.live = g.edges.countP g.joins := by
  have hfilter : (List.range g.edges.length).filter g.live = g.edges.positions g.joins := by
    refine filter_congr fun i hi => ?_
    have he := getElem?_eq_getElem (mem_range.mp hi)
    rw [he, Option.any_some]
    exact h.live_eq he
  rw [countP_eq_length_filter, hfilter, length_positions]

theorem Consistent.repInvariant (h : g.Consistent) : g.RepInvariant where
  outgoing := h.linked.adjacency.outgoing
  incoming := h.linked.adjacency.incoming
  outgoingIncreasing a := h.linked.outgoing a ▸ pairwise_lt_positions _ _
  incomingIncreasing a := h.linked.incoming a ▸ pairwise_lt_positions _ _
  live i := by simp only [h.linked.live_iff, joins_eq_true]
  tombstoned := by
    have htomb := h.linked.tombstoned
    rw [h.linked.countP_live]
    omega
  memory := h.weighed
  index := h.indexed.index
  keyInjective id id' n n' hn hn' hkey := by
    have hid := (h.indexed.index n.key id).mpr ⟨n, hn, rfl⟩
    have hid' := (h.indexed.index n.key id').mpr ⟨n', hn', hkey.symm⟩
    exact Option.some.inj (hid.symm.trans hid')

/-- The representation invariant holds in every graph that a run of operations reaches from
the empty one, when edges are added between nodes that are there. -/
theorem repInvariant_of_run (belowRatio : Nat → Nat → Bool) (now : DateTime) (ops : List Op)
    (hops : (machine belowRatio now).Meets EndsPresent (new now) ops) :
    ((machine belowRatio now).exec (new now) ops).RepInvariant :=
  (consistent_exec belowRatio now ops hops).repInvariant

theorem repInvariant_sampleRun :
    (machine (fun t n => 5 * t < n) 0).Meets EndsPresent (new 0) (sampleRun ++ [.compactEdges]) ∧
      ((machine (fun t n => 5 * t < n) 0).exec (new 0)
        (sampleRun ++ [.compactEdges])).RepInvariant := by
  have hops : (machine (fun t n => 5 * t < n) 0).Meets EndsPresent (new 0)
      (sampleRun ++ [.compactEdges]) := by decide +kernel
  exact ⟨hops, repInvariant_of_run _ 0 _ hops⟩

end KnowledgeGraph

end Innerwarden

import Innerwarden.Knowledge.Invariant

/-!
# Snapshots of the knowledge graph

`agent/src/knowledge_graph/persistence.rs`.  A snapshot holds the nodes, the edges and the
counters.  The loader rebuilds every index, list and set, and prunes edges with a missing end.
The graph is compacted before, so there is nothing to prune.  `restore_of_run` follows a graph
through compaction, snapshot and loader.

A codec stands for JSON in gzip.  The order in which the loaded map is iterated is an argument.
-/

namespace Innerwarden

open List

namespace KnowledgeGraph

/-- What is saved of a graph. -/
structure GraphSnapshot where
  nodes : FiniteMap NodeId Node
  edges : List Edge
  nextId : NodeId
  sourceCounts : FiniteMap String Nat
  kindCounts : FiniteMap String Nat
  eventTimeline : FiniteMap String (FiniteMap String Nat)
  totalEventsIngested : Nat

/-- Snapshots as bytes. -/
structure SnapshotCodec where
  /-- `serde_json::to_vec`, then gzip. -/
  encode : GraphSnapshot → List UInt8
  /-- The way back. -/
  decode : List UInt8 → Option GraphSnapshot

/-- The snapshot is read back from its bytes. -/
def SnapshotCodec.Reads (codec : SnapshotCodec) (s : GraphSnapshot) : Prop :=
  codec.decode (codec.encode s) = some s

/-- `GraphSnapshotRef::from_graph`. -/
def toSnapshot (g : KnowledgeGraph) : GraphSnapshot where
  nodes := g.nodes
  edges := g.edges
  nextId := g.nextId
  sourceCounts := g.sourceCounts
  kindCounts := g.kindCounts
  eventTimeline := g.eventTimeline
  totalEventsIngested := g.totalEventsIngested

def serializeSnapshotBytes (codec : SnapshotCodec) (g : KnowledgeGraph) : List UInt8 :=
  codec.encode g.toSnapshot

/-! ## The loader -/

def restoreNode (g : KnowledgeGraph) (entry : (_ : NodeId) × Node) : KnowledgeGraph :=
  let g := g.indexNode entry.1 entry.2
  { g with memoryEstimate := g.memoryEstimate + estimateNodeSize entry.2 }

/-- The edge in the lists and in the instants, at its position in the snapshot. -/
def restoreEdge (g : KnowledgeGraph) (entry : Edge × Nat) : KnowledgeGraph :=
  let edge := entry.1
  let touched := touch g.lastEdgeTs edge.fromId edge.ts
  { g with
    outgoing := pushAdjacent g.outgoing edge.fromId entry.2
    incoming := pushAdjacent g.incoming edge.toId entry.2
    memoryEstimate := g.memoryEstimate + estimateEdgeSize edge
    lastEdgeTs :=
      if edge.toId ≠ edge.fromId then touch touched edge.toId edge.ts else touched }

/-- The lists of positions of a vector of edges, by the end that is looked at. -/
def listEdges (endOf : Edge → NodeId) (edges : List Edge) : FiniteMap NodeId (List Nat) :=
  edges.zipIdx.foldl (fun m entry => pushAdjacent m (endOf entry.1) entry.2) ∅

/-- The edges with both ends, in lists of their own.  The estimate and the instants stay. -/
def pruneDangling (g : KnowledgeGraph) : KnowledgeGraph :=
  if g.edges.any fun e => !g.joins e then
    { g with
      edges := g.edges.filter g.joins
      outgoing := listEdges Edge.fromId (g.edges.filter g.joins)
      incoming := listEdges Edge.toId (g.edges.filter g.joins) }
  else g

/-- What the loader has rebuilt before its checks.  `now` is `Utc::now()`, `order` the nodes as
the map is iterated.  Interning the keys of properties again does not change them. -/
def restored (now : DateTime) (order : List ((_ : NodeId) × Node)) (s : GraphSnapshot) :
    KnowledgeGraph :=
  let g := { order.foldl restoreNode { new now with nextId := s.nextId } with nodes := s.nodes }
  let g := s.edges.zipIdx.foldl restoreEdge g
  { g with
    edges := s.edges
    sourceCounts := s.sourceCounts
    kindCounts := s.kindCounts
    eventTimeline := s.eventTimeline
    totalEventsIngested := s.totalEventsIngested }

def reconstructFromSnapshot (now : DateTime) (order : List ((_ : NodeId) × Node))
    (s : GraphSnapshot) : Option KnowledgeGraph :=
  let g := restored now order s
  if g.index.keys.card = 0 ∧ 0 < g.nodes.keys.card then none else some g.pruneDangling

def load (codec : SnapshotCodec) (now : DateTime) (order : List ((_ : NodeId) × Node))
    (bytes : List UInt8) : Option KnowledgeGraph :=
  (codec.decode bytes).bind (reconstructFromSnapshot now order)

/-! ## The pass over the nodes -/

theorem foldl_restoreNode (order : List ((_ : NodeId) × Node)) (g : KnowledgeGraph) :
    order.foldl restoreNode g =
      { g with
        index := order.foldl (fun m e => m.insert e.2.key e.1) g.index
        threatIntelNodes :=
          order.foldl (fun t e => if e.2.hasDatasets then insert e.1 t else t) g.threatIntelNodes
        memoryEstimate := g.memoryEstimate + (order.map fun e => estimateNodeSize e.2).sum } := by
  induction order generalizing g with
  | nil => rfl
  | cons e order ih =>
    rw [foldl_cons, ih, map_cons, sum_cons, ← Nat.add_assoc]
    rfl

variable {order : List ((_ : NodeId) × Node)} {g : KnowledgeGraph}

theorem exists_of_lookup_foldl {key : NodeKey} {id : NodeId}
    (h : (order.foldl (fun m e => m.insert e.2.key e.1) (∅ : FiniteMap NodeKey NodeId)).lookup key =
      some id) : ∃ e ∈ order, e.1 = id ∧ e.2.key = key := by
  induction order using List.reverseRecOn with
  | nil => simp at h
  | append_singleton order e ih =>
    rw [foldl_append, foldl_cons, foldl_nil, FiniteMap.lookup_insert_eq] at h
    split at h
    case isTrue hkey => exact ⟨e, by simp, Option.some.inj h, hkey.symm⟩
    case isFalse =>
      obtain ⟨e', he', hid, hkey⟩ := ih h
      exact ⟨e', by simp [he'], hid, hkey⟩

theorem isSome_lookup_foldl {e : (_ : NodeId) × Node} (he : e ∈ order) :
    ((order.foldl (fun m e => m.insert e.2.key e.1) (∅ : FiniteMap NodeKey NodeId)).lookup
      e.2.key).isSome = true := by
  induction order using List.reverseRecOn with
  | nil => cases he
  | append_singleton order e' ih =>
    rw [foldl_append, foldl_cons, foldl_nil, FiniteMap.lookup_insert_eq]
    split
    case isTrue => rfl
    case isFalse hkey =>
      rcases mem_append.mp he with he | he
      · exact ih he
      · rw [mem_singleton.mp he] at hkey
        exact absurd rfl hkey

theorem mem_foldl_threatIntel {id : NodeId} :
    id ∈ order.foldl (fun t e => if e.2.hasDatasets then insert e.1 t else t)
        (∅ : Finset NodeId) ↔ ∃ e ∈ order, e.1 = id ∧ e.2.hasDatasets = true := by
  induction order using List.reverseRecOn with
  | nil => simp
  | append_singleton order e ih =>
    have hlast : (∃ x ∈ order ++ [e], x.1 = id ∧ x.2.hasDatasets = true) ↔
        (e.1 = id ∧ e.2.hasDatasets = true) ∨
          ∃ x ∈ order, x.1 = id ∧ x.2.hasDatasets = true := by
      simp only [mem_append, mem_singleton, or_and_right, exists_or, exists_eq_left]
      exact or_comm
    rw [foldl_append, foldl_cons, foldl_nil, hlast]
    split
    case isTrue hds =>
      rw [Finset.mem_insert, ih, hds]
      simp only [and_true]
      exact or_congr_left eq_comm
    case isFalse hds =>
      rw [ih]
      simp [hds]

/-! ## The pass over the edges -/

def touchEdges (m : FiniteMap NodeId DateTime) (entry : Edge × Nat) : FiniteMap NodeId DateTime :=
  let touched := touch m entry.1.fromId entry.1.ts
  if entry.1.toId ≠ entry.1.fromId then touch touched entry.1.toId entry.1.ts else touched

theorem foldl_restoreEdge (entries : List (Edge × Nat)) (g : KnowledgeGraph) :
    entries.foldl restoreEdge g =
      { g with
        outgoing := entries.foldl (fun m e => pushAdjacent m e.1.fromId e.2) g.outgoing
        incoming := entries.foldl (fun m e => pushAdjacent m e.1.toId e.2) g.incoming
        memoryEstimate := g.memoryEstimate + (entries.map fun e => estimateEdgeSize e.1).sum
        lastEdgeTs := entries.foldl touchEdges g.lastEdgeTs } := by
  induction entries generalizing g with
  | nil => rfl
  | cons e entries ih =>
    rw [foldl_cons, ih, map_cons, sum_cons, ← Nat.add_assoc]
    rfl

theorem lists_listEdges (endOf : Edge → NodeId) (edges : List Edge) :
    Lists edges (fun _ => true) endOf (listEdges endOf edges) := by
  induction edges using List.reverseRecOn with
  | nil => exact fun a => rfl
  | append_singleton edges e ih =>
    have hpass : listEdges endOf (edges ++ [e]) =
        pushAdjacent (listEdges endOf edges) (endOf e) edges.length := by
      simp [listEdges, zipIdx_append]
    rw [hpass]
    exact ih.push rfl

theorem Lists.filterMap_getElem? {edges : List Edge} {p : Edge → Bool} {endOf : Edge → NodeId}
    {m : FiniteMap NodeId (List Nat)} (h : Lists edges p endOf m) (a : NodeId) :
    (adjacent m a).filterMap (fun i => edges[i]?) =
      (edges.filter p).filter fun e => decide (endOf e = a) := by
  rw [h a, filterMap_getElem?_positions, filter_filter]
  exact filter_congr fun e _ => Bool.and_comm _ _

/-! ## The round trip -/

theorem restored_eq (now : DateTime) (order : List ((_ : NodeId) × Node)) (s : GraphSnapshot) :
    restored now order s =
      { new now with
        nodes := s.nodes
        edges := s.edges
        nextId := s.nextId
        index := order.foldl (fun m e => m.insert e.2.key e.1) ∅
        threatIntelNodes := order.foldl (fun t e => if e.2.hasDatasets then insert e.1 t else t) ∅
        memoryEstimate :=
          (order.map fun e => estimateNodeSize e.2).sum + (s.edges.map estimateEdgeSize).sum
        outgoing := listEdges Edge.fromId s.edges
        incoming := listEdges Edge.toId s.edges
        lastEdgeTs := s.edges.zipIdx.foldl touchEdges ∅
        sourceCounts := s.sourceCounts
        kindCounts := s.kindCounts
        eventTimeline := s.eventTimeline
        totalEventsIngested := s.totalEventsIngested } := by
  have hsizes : s.edges.zipIdx.map (fun e => estimateEdgeSize e.1) =
      s.edges.map estimateEdgeSize := by
    rw [← zipIdx_map_fst 0 s.edges, map_map, zipIdx_map_fst]
    rfl
  rw [restored, foldl_restoreNode, foldl_restoreEdge, hsizes]
  simp only [new, Nat.zero_add, listEdges]

/-- The rebuilt index is the index of a graph with these nodes. -/
theorem Indexed.index_restored (h : g.Indexed) (now : DateTime)
    (horder : ↑order = g.nodes.entries) : (restored now order g.toSnapshot).index = g.index := by
  have hmem : ∀ e, e ∈ order ↔ g.nodes.lookup e.1 = some e.2 := by
    intro e
    rw [Finmap.lookup_eq_some_iff, ← horder, Multiset.mem_coe]
  have hsub : ∀ key id, (restored now order g.toSnapshot).index.lookup key = some id →
      g.index.lookup key = some id := by
    intro key id hlookup
    rw [restored_eq] at hlookup
    obtain ⟨e, he, rfl, rfl⟩ := exists_of_lookup_foldl hlookup
    exact (h.index _ _).mpr ⟨e.2, (hmem e).mp he, rfl⟩
  refine Finmap.ext_lookup fun key => ?_
  cases hkey : g.index.lookup key with
  | none =>
    cases hlookup : (restored now order g.toSnapshot).index.lookup key with
    | none => rfl
    | some id =>
      rw [hsub key id hlookup] at hkey
      cases hkey
  | some id =>
    obtain ⟨n, hn, rfl⟩ := (h.index _ _).mp hkey
    have hsome := isSome_lookup_foldl ((hmem ⟨id, n⟩).mpr hn)
    obtain ⟨id', hlookup⟩ := Option.isSome_iff_exists.mp hsome
    have hrestored : (restored now order g.toSnapshot).index.lookup n.key = some id' := by
      rw [restored_eq]
      exact hlookup
    rw [hrestored, ← hkey, hsub _ _ hrestored]

theorem Indexed.threatIntelNodes_restored (h : g.Indexed) (now : DateTime)
    (horder : ↑order = g.nodes.entries) :
    (restored now order g.toSnapshot).threatIntelNodes = g.threatIntelNodes := by
  ext id
  rw [restored_eq, mem_foldl_threatIntel, h.threatIntel]
  constructor
  · rintro ⟨e, he, rfl, hds⟩
    refine ⟨e.2, ?_, hds⟩
    rw [Finmap.lookup_eq_some_iff, ← horder]
    exact he
  · rintro ⟨n, hn, hds⟩
    rw [Finmap.lookup_eq_some_iff, ← horder] at hn
    exact ⟨⟨id, n⟩, hn, rfl, hds⟩

theorem Weighed.memoryEstimate_restored (h : g.Weighed) (now : DateTime)
    (horder : ↑order = g.nodes.entries) :
    (restored now order g.toSnapshot).memoryEstimate = g.memoryEstimate := by
  have htotal : (order.map fun e => estimateNodeSize e.2).sum =
      FiniteMap.total estimateNodeSize g.nodes := by
    rw [FiniteMap.total, ← horder, Multiset.map_coe, Multiset.sum_coe]
  rw [restored_eq, h, ← htotal]
  rfl

theorem Indexed.integrity (h : g.Indexed) : ¬ (g.index.keys.card = 0 ∧ 0 < g.nodes.keys.card) := by
  rintro ⟨hindex, hnodes⟩
  obtain ⟨id, hid⟩ := Finset.card_pos.mp hnodes
  obtain ⟨n, hn⟩ := Finmap.mem_iff.mp (Finmap.mem_keys.mp hid)
  have hkey : n.key ∈ g.index :=
    Finmap.mem_of_lookup_eq_some ((h.index n.key id).mpr ⟨n, hn, rfl⟩)
  have hnone : n.key ∉ g.index.keys := by simp [Finset.card_eq_zero.mp hindex]
  exact hnone (Finmap.mem_keys.mpr hkey)

/-! ### Compaction before the snapshot -/

/-- The sizes of the edges that were cut off, together. -/
def tombstonedSize (g : KnowledgeGraph) : Nat :=
  ((g.edges.filter fun e => !g.joins e).map estimateEdgeSize).sum

theorem Linked.edges_compactEdgesForce (h : g.Linked) :
    g.compactEdgesForce.edges = g.edges.filter g.joins := by
  rw [compactEdgesForce]
  split
  case isTrue hnothing =>
    have hall : g.edges.countP g.joins = g.edges.length := by
      have htomb := h.tombstoned
      rcases Bool.or_eq_true_iff.mp hnothing with hempty | hzero
      · rw [List.isEmpty_iff.mp hempty]
        rfl
      · rw [of_decide_eq_true hzero, Nat.zero_add] at htomb
        exact htomb
    exact (filter_eq_self.mpr (countP_eq_length.mp hall)).symm
  case isFalse => rw [h.compact_eq]

/-- Compaction changes the edges and their numbers only. -/
theorem Linked.compactEdgesForce_frame (h : g.Linked) :
    g.compactEdgesForce.nodes = g.nodes ∧ g.compactEdgesForce.nextId = g.nextId ∧
      g.compactEdgesForce.index = g.index ∧
      g.compactEdgesForce.threatIntelNodes = g.threatIntelNodes := by
  rw [compactEdgesForce]
  split
  · exact ⟨rfl, rfl, rfl, rfl⟩
  · rw [h.compact_eq]
    exact ⟨rfl, rfl, rfl, rfl⟩

theorem Consistent.compactEdgesForce (h : g.Consistent) : g.compactEdgesForce.Consistent :=
  (compactEdges_induction h h.compact fun _ _ => true).2

theorem Consistent.memoryEstimate_compactEdgesForce (h : g.Consistent) :
    g.compactEdgesForce.memoryEstimate + g.tombstonedSize = g.memoryEstimate := by
  have hweighed : g.compactEdgesForce.memoryEstimate = _ := h.compactEdgesForce.weighed
  have hsplit : ((g.edges.filter g.joins).map estimateEdgeSize).sum + g.tombstonedSize =
      (g.edges.map estimateEdgeSize).sum := by
    rw [tombstonedSize, ← sum_append, ← map_append]
    exact ((filter_append_perm g.joins g.edges).map estimateEdgeSize).sum_eq
  rw [hweighed, h.weighed, h.linked.edges_compactEdgesForce, h.linked.compactEdgesForce_frame.1,
    Nat.add_assoc, hsplit]

/-- Every lookup by a key answers alike. -/
structure SameLookups (g g' : KnowledgeGraph) : Prop where
  pid : g.findByPid = g'.findByPid
  ip : g.findByIp = g'.findByIp
  path : g.findByPath = g'.findByPath
  user : g.findByUser = g'.findByUser
  domain : g.findByDomain = g'.findByDomain
  port : g.findByPort = g'.findByPort
  container : g.findByContainer = g'.findByContainer
  incident : g.findByIncident = g'.findByIncident
  campaign : g.findByCampaign = g'.findByCampaign

theorem sameLookups_of_index {g' : KnowledgeGraph} (h : g.index = g'.index) : SameLookups g g' := by
  constructor <;> funext <;>
    simp only [findByPid, findByIp, findByPath, findByUser, findByDomain, findByPort,
      findByContainer, findByIncident, findByCampaign, h]

/-- What the loader makes of a saved graph. -/
def reloaded (now : DateTime) (order : List ((_ : NodeId) × Node)) (g : KnowledgeGraph) :
    KnowledgeGraph :=
  { restored now order g.toSnapshot with
    edges := g.edges.filter g.joins
    outgoing := listEdges Edge.fromId (g.edges.filter g.joins)
    incoming := listEdges Edge.toId (g.edges.filter g.joins) }

theorem Indexed.reconstruct_eq (h : g.Indexed) (now : DateTime)
    (horder : ↑order = g.nodes.entries) :
    reconstructFromSnapshot now order g.toSnapshot = some (g.reloaded now order) := by
  have hnodes : (restored now order g.toSnapshot).nodes = g.nodes := by rw [restored_eq]; rfl
  have hcheck := h.integrity
  rw [← h.index_restored now horder, ← hnodes] at hcheck
  rw [reconstructFromSnapshot, if_neg hcheck]
  have hjoins : (restored now order g.toSnapshot).joins = g.joins :=
    funext fun e => joins_congr (by rw [hnodes]) (by rw [hnodes])
  have hedges : (restored now order g.toSnapshot).edges = g.edges := by rw [restored_eq]; rfl
  rw [pruneDangling, hjoins, hedges, reloaded]
  split
  case isTrue => rfl
  case isFalse hnone =>
    -- Nothing is pruned, and the lists are those of the edges already.
    have hall : g.edges.filter g.joins = g.edges :=
      filter_eq_self.mpr fun e he => by
        by_contra hdangling
        exact hnone (any_eq_true.mpr ⟨e, he, by simpa using hdangling⟩)
    rw [hall, restored_eq]
    rfl

theorem edges_reloaded (now : DateTime) (order : List ((_ : NodeId) × Node)) (g : KnowledgeGraph)
    (a : NodeId) :
    (g.reloaded now order).outgoingEdges a =
        (g.edges.filter g.joins).filter (fun e => decide (e.fromId = a)) ∧
      (g.reloaded now order).incomingEdges a =
        (g.edges.filter g.joins).filter fun e => decide (e.toId = a) := by
  have hlists := fun endOf : Edge → NodeId =>
    (lists_listEdges endOf (g.edges.filter g.joins)).filterMap_getElem? a
  simp only [filter_true] at hlists
  exact ⟨hlists Edge.fromId, hlists Edge.toId⟩

/-- A graph that a run reaches, compacted, saved and loaded, has the nodes, the next id and the
threat intelligence set it had.  Every lookup answers as before.  Every node has the edges it
had, in their order.  The estimate is less by the edges that were cut off. -/
theorem restore_of_run (belowRatio : Nat → Nat → Bool) (now later : DateTime)
    (codec : SnapshotCodec) (ops : List Op)
    (hops : (machine belowRatio now).Meets EndsPresent (new now) ops)
    (order : List ((_ : NodeId) × Node))
    (horder : ↑order = ((machine belowRatio now).exec (new now) ops).nodes.entries)
    (hcodec : codec.Reads
      ((machine belowRatio now).exec (new now) ops).compactEdgesForce.toSnapshot) :
    let g := (machine belowRatio now).exec (new now) ops
    ∃ g', load codec later order (g.compactEdgesForce.serializeSnapshotBytes codec) = some g' ∧
      g'.nodes = g.nodes ∧ g'.nextId = g.nextId ∧ g'.threatIntelNodes = g.threatIntelNodes ∧
      g'.memoryEstimate + g.tombstonedSize = g.memoryEstimate ∧
      SameLookups g' g ∧
      ∀ a, g'.outgoingEdges a = g.outgoingEdges a ∧ g'.incomingEdges a = g.incomingEdges a := by
  intro g
  have h : g.Consistent := consistent_exec belowRatio now ops hops
  have hc : g.compactEdgesForce.Consistent := h.compactEdgesForce
  obtain ⟨hnodes, hnext, hindex, hthreat⟩ := h.linked.compactEdgesForce_frame
  have hedges := h.linked.edges_compactEdgesForce
  have hjoins : g.compactEdgesForce.joins = g.joins :=
    funext fun e => joins_congr (by rw [hnodes]) (by rw [hnodes])
  have hall :
      g.compactEdgesForce.edges.filter g.compactEdgesForce.joins = g.edges.filter g.joins := by
    rw [hedges, hjoins, filter_filter]
    simp only [Bool.and_self]
  have horder' : ↑order = g.compactEdgesForce.nodes.entries := by rw [hnodes]; exact horder
  refine ⟨g.compactEdgesForce.reloaded later order, ?_, ?_, ?_, ?_, ?_, ?_, ?_⟩
  · rw [load, serializeSnapshotBytes, hcodec, Option.bind_some]
    exact hc.indexed.reconstruct_eq later horder'
  · rw [reloaded, restored_eq]
    exact hnodes
  · rw [reloaded, restored_eq]
    exact hnext
  · exact (hc.indexed.threatIntelNodes_restored later horder').trans hthreat
  · rw [← h.memoryEstimate_compactEdgesForce, ← hc.weighed.memoryEstimate_restored later horder']
    rfl
  · exact sameLookups_of_index ((hc.indexed.index_restored later horder').trans hindex)
  · intro a
    obtain ⟨hout, hinc⟩ := edges_reloaded later order g.compactEdgesForce a
    rw [hall] at hout hinc
    exact ⟨hout.trans (h.linked.outgoing.filterMap_getElem? a).symm,
      hinc.trans (h.linked.incoming.filterMap_getElem? a).symm⟩

/-! ### A run with an edge that was cut off -/

def sampleCodec (s : GraphSnapshot) : SnapshotCodec where
  encode _ := [0x1f, 0x8b]
  decode _ := some s

/-- The graph of the sample run, with one edge of two cut off. -/
def sampleGraph : KnowledgeGraph := (machine (fun t n => 5 * t < n) 0).exec (new 0) sampleRun

theorem restore_sampleRun :
    ∃ g', load (sampleCodec sampleGraph.compactEdgesForce.toSnapshot) 0
        [⟨1, .user ⟨"root", none⟩⟩]
        (sampleGraph.compactEdgesForce.serializeSnapshotBytes
          (sampleCodec sampleGraph.compactEdgesForce.toSnapshot)) = some g' ∧
      g'.nodes = sampleGraph.nodes ∧ g'.nextId = sampleGraph.nextId ∧
      g'.threatIntelNodes = sampleGraph.threatIntelNodes ∧
      g'.memoryEstimate + sampleGraph.tombstonedSize = sampleGraph.memoryEstimate ∧
      SameLookups g' sampleGraph ∧
      ∀ a, g'.outgoingEdges a = sampleGraph.outgoingEdges a ∧
        g'.incomingEdges a = sampleGraph.incomingEdges a :=
  restore_of_run (fun t n => 5 * t < n) 0 0 (sampleCodec sampleGraph.compactEdgesForce.toSnapshot)
    sampleRun (by decide +kernel) [⟨1, .user ⟨"root", none⟩⟩] (by with_unfolding_all rfl) rfl

/-- The estimate of the loaded graph is that of the compacted one, not that of the graph
before: the edge that was cut off weighed 120. -/
theorem memoryEstimate_restore_sampleRun :
    (machine (fun t n => 5 * t < n) 0).Meets EndsPresent (new 0) sampleRun ∧
      sampleGraph.memoryEstimate = 340 ∧
      (load (sampleCodec sampleGraph.compactEdgesForce.toSnapshot) 0 [⟨1, .user ⟨"root", none⟩⟩]
        (sampleGraph.compactEdgesForce.serializeSnapshotBytes
          (sampleCodec sampleGraph.compactEdgesForce.toSnapshot))).map memoryEstimate =
        some 220 := by
  decide +kernel

end KnowledgeGraph

end Innerwarden

import Innerwarden.Knowledge.Persistence
import Mathlib.Algebra.Order.Ring.Int

/-!
# The last activity of a node

`last_edge_ts` caches the instant of the last edge of each node.  `add_edge` moves it forward,
and the loader builds it before edges with a missing end are pruned.  Nothing moves it back:
`remove_node` leaves the entries of the neighbours.

`Cached` holds in any case: the cache is no earlier than any edge of a node.  It is the last
*live* edge as long as every removal leaves each neighbour a live edge that is as late as those
it takes (`cacheExact_iff`).
-/

namespace Innerwarden

open List Finmap

namespace KnowledgeGraph

/-! ## Maxima of lists -/

theorem max?_concat (l : List DateTime) (t : DateTime) :
    (l ++ [t]).max? = some (l.max?.elim t fun s => max s t) := by
  induction l with
  | nil => rfl
  | cons x l ih =>
    rw [cons_append, max?_cons, ih, max?_cons]
    cases l.max? with
    | none => rfl
    | some s => simp [max_assoc]

/-- A part of a list has its maximum exactly if it has something as large as each of the
others. -/
theorem max?_filter_eq_iff (l : List Edge) (p : Edge → Bool) :
    ((l.filter p).map Edge.ts).max? = (l.map Edge.ts).max? ↔
      ∀ e ∈ l, p e = false → ∃ e' ∈ l, p e' = true ∧ e.ts ≤ e'.ts := by
  constructor
  · intro h e he hpe
    cases hmax : (l.map Edge.ts).max? with
    | none => simp [map_eq_nil_iff.mp (max?_eq_none_iff.mp hmax)] at he
    | some t =>
      have hle := (max?_eq_some_iff.mp hmax).2 e.ts (mem_map_of_mem he)
      obtain ⟨e', he', hts⟩ := mem_map.mp (max?_eq_some_iff.mp (h.trans hmax)).1
      obtain ⟨hmem, hp⟩ := mem_filter.mp he'
      exact ⟨e', hmem, hp, hts ▸ hle⟩
  · intro h
    cases hmax : (l.map Edge.ts).max? with
    | none =>
      rw [map_eq_nil_iff.mp (max?_eq_none_iff.mp hmax)]
      rfl
    | some t =>
      obtain ⟨hmem, hle⟩ := max?_eq_some_iff.mp hmax
      obtain ⟨e, he, rfl⟩ := mem_map.mp hmem
      refine max?_eq_some_iff.mpr ⟨?_, fun t ht => ?_⟩
      · cases hpe : p e with
        | true => exact mem_map_of_mem (mem_filter.mpr ⟨he, hpe⟩)
        | false =>
          obtain ⟨e', he', hp, hts⟩ := h e he hpe
          have heq : e.ts = e'.ts := Int.le_antisymm hts (hle _ (mem_map_of_mem he'))
          exact heq ▸ mem_map_of_mem (mem_filter.mpr ⟨he', hp⟩)
      · obtain ⟨e', he', rfl⟩ := mem_map.mp ht
        exact hle _ (mem_map_of_mem (mem_filter.mp he').1)

/-! ## The scan and the cache -/

/-- The live edges of a node, by a scan of the vector. -/
def liveEdgesAt (g : KnowledgeGraph) (n : NodeId) : List Edge :=
  (g.edges.zipIdx.filter fun entry => g.live entry.2 && touches n entry.1).map Prod.fst

def lastActivity (g : KnowledgeGraph) (n : NodeId) : Option DateTime :=
  ((g.liveEdgesAt n).map Edge.ts).max?

/-- The cache holds what the scan finds. -/
def CacheExact (g : KnowledgeGraph) : Prop :=
  ∀ n ∈ g.nodes, g.lastEdgeTs.lookup n = g.lastActivity n

variable {g : KnowledgeGraph} {n id : NodeId} {node : Node} {edge : Edge}

theorem Linked.liveEdgesAt_eq (h : g.Linked) (n : NodeId) :
    g.liveEdgesAt n = g.edges.filter fun e => g.joins e && touches n e := by
  have hlive : g.edges.zipIdx.filter (fun entry => g.live entry.2 && touches n entry.1) =
      g.edges.zipIdx.filter fun entry => g.joins entry.1 && touches n entry.1 := by
    refine filter_congr fun entry hentry => ?_
    rw [h.live_entry hentry]
  have hfilter := filter_map (f := Prod.fst) (p := fun e => g.joins e && touches n e)
    (l := g.edges.zipIdx)
  rw [zipIdx_map_fst] at hfilter
  rw [liveEdgesAt, hlive, hfilter]
  rfl

theorem Linked.lastActivity_eq (h : g.Linked) (n : NodeId) :
    g.lastActivity n = ((g.edges.filter fun e => g.joins e && touches n e).map Edge.ts).max? := by
  rw [lastActivity, h.liveEdgesAt_eq]

theorem lookup_touch (m : FiniteMap NodeId DateTime) (a n : NodeId) (ts : DateTime) :
    (touch m a ts).lookup n =
      if n = a then some ((m.lookup n).elim ts fun t => max t ts) else m.lookup n := by
  rw [touch, FiniteMap.lookup_insert_eq]
  simp only [max_def_lt]
  split
  case isTrue heq => rw [heq]
  case isFalse => rfl

theorem lookup_touchEdges (m : FiniteMap NodeId DateTime) (edge : Edge) (i : Nat) (n : NodeId) :
    (touchEdges m (edge, i)).lookup n =
      if touches n edge then some ((m.lookup n).elim edge.ts fun t => max t edge.ts)
      else m.lookup n := by
  have hto : ∀ m : FiniteMap NodeId DateTime, edge.toId ≠ edge.fromId → n = edge.toId →
      (touch m edge.fromId edge.ts).lookup n = m.lookup n := by
    intro m hne hn
    rw [lookup_touch, if_neg (by rw [hn]; exact hne)]
  simp only [touchEdges, touches, Bool.or_eq_true, decide_eq_true_eq]
  split
  case isTrue hne =>
    rw [lookup_touch]
    by_cases hn : n = edge.toId
    · rw [if_pos hn, hto m hne hn, if_pos (Or.inr hn.symm)]
    · rw [if_neg hn, lookup_touch]
      simp [Ne.symm hn, eq_comm]
  case isFalse heq =>
    have heq : edge.toId = edge.fromId := not_not.mp heq
    rw [lookup_touch, heq]
    simp [eq_comm]

theorem lookup_foldl_touchEdges (edges : List Edge) (n : NodeId) :
    (edges.zipIdx.foldl touchEdges ∅).lookup n =
      ((edges.filter (touches n)).map Edge.ts).max? := by
  induction edges using List.reverseRecOn with
  | nil => rfl
  | append_singleton edges e ih =>
    rw [zipIdx_append, foldl_append]
    simp only [zipIdx_cons, zipIdx_nil, foldl_cons, foldl_nil,
      lookup_touchEdges, ih]
    cases htouch : touches n e with
    | true =>
      rw [if_pos rfl, filter_append, filter_cons_of_pos htouch, filter_nil,
        map_append, map_singleton, max?_concat]
    | false =>
      rw [if_neg Bool.false_ne_true, filter_append,
        filter_cons_of_neg (by rw [htouch]; exact Bool.false_ne_true), filter_nil,
        append_nil]

/-! ## What always holds of the cache -/

/-- The cache has entries for ids that were given out.  For a node that is there it is no
earlier than any edge the vector has for it, live or not. -/
structure Cached (g : KnowledgeGraph) : Prop where
  linked : g.Linked
  indexed : g.Indexed
  fresh : ∀ id ∈ g.lastEdgeTs, id < g.nextId
  covers : ∀ n ∈ g.nodes, ∀ e ∈ g.edges, touches n e = true →
    ∃ t, g.lastEdgeTs.lookup n = some t ∧ e.ts ≤ t

theorem Linked.not_touches_nextId (h : g.Linked) {e : Edge} (he : e ∈ g.edges) :
    touches g.nextId e = false := by
  obtain ⟨hfrom, hto⟩ := h.ends e he
  simp [touches, Nat.ne_of_lt hfrom, Nat.ne_of_lt hto]

theorem Cached.insertNode (h : g.Cached) (hfresh : g.index.lookup node.key = none) :
    (g.insertNode node).Cached where
  linked := h.linked.insertNode
  indexed := h.indexed.insertNode h.linked hfresh
  fresh id hid := Nat.lt_succ_of_lt (h.fresh id hid)
  covers n hn e he htouch := by
    rcases mem_insert.mp hn with rfl | hn
    · rw [h.linked.not_touches_nextId he] at htouch
      cases htouch
    · exact h.covers n hn e he htouch

theorem CacheExact.insertNode (h : g.CacheExact) (hcached : g.Cached) :
    (g.insertNode node).CacheExact := by
  have hlinked := hcached.linked
  intro n hn
  rw [hlinked.insertNode.lastActivity_eq]
  have hscan : (g.edges.filter fun e => (g.insertNode node).joins e && touches n e) =
      g.edges.filter fun e => g.joins e && touches n e :=
    filter_congr fun e he => by rw [hlinked.joins_insertNode he]
  refine Eq.trans ?_ (congrArg (fun l => (l.map Edge.ts).max?) hscan.symm)
  rcases mem_insert.mp hn with rfl | hn
  · -- Nothing is cached for the new node, and it has no edge.
    have hnone : g.lastEdgeTs.lookup g.nextId = none := by
      refine lookup_eq_none.mpr fun hmem => ?_
      exact Nat.lt_irrefl _ (hcached.fresh _ hmem)
    have hnil : (g.edges.filter fun e => g.joins e && touches g.nextId e) = [] :=
      filter_eq_nil_iff.mpr fun e he => by simp [hlinked.not_touches_nextId he]
    rw [hnil]
    exact hnone
  · exact (h n hn).trans (hlinked.lastActivity_eq n)

theorem Cached.mergeInto {old : Node} (h : g.Cached) (hold : g.nodes.lookup id = some old)
    (hkey : old.key = node.key) : (g.mergeInto id old node).Cached where
  linked := h.linked.mergeInto hold
  indexed := h.indexed.mergeInto hold hkey
  fresh := h.fresh
  covers n hn := h.covers n ((mem_mergeInto hold n).mp hn)

theorem CacheExact.mergeInto {old : Node} (h : g.CacheExact) (hlinked : g.Linked)
    (hold : g.nodes.lookup id = some old) : (g.mergeInto id old node).CacheExact := by
  intro n hn
  rw [(hlinked.mergeInto hold).lastActivity_eq, joins_mergeInto hold]
  exact (h n ((mem_mergeInto hold n).mp hn)).trans (hlinked.lastActivity_eq n)

/-- `add_edge` enters the instant as the loader does. -/
theorem lastEdgeTs_pushEdge (g : KnowledgeGraph) (edge : Edge) :
    (g.pushEdge edge).lastEdgeTs = touchEdges g.lastEdgeTs (edge, 0) := rfl

theorem Cached.pushEdge (h : g.Cached) (hfrom : edge.fromId ∈ g.nodes)
    (hto : edge.toId ∈ g.nodes) : (g.pushEdge edge).Cached where
  linked := h.linked.pushEdge hfrom hto
  indexed := ⟨h.indexed.index, h.indexed.threatIntel⟩
  fresh id hid := by
    obtain ⟨t, ht⟩ := mem_iff.mp hid
    rw [lastEdgeTs_pushEdge, lookup_touchEdges] at ht
    split at ht
    case isTrue htouch =>
      rcases Bool.or_eq_true_iff.mp htouch with heq | heq
      · exact of_decide_eq_true heq ▸ h.linked.ids _ hfrom
      · exact of_decide_eq_true heq ▸ h.linked.ids _ hto
    case isFalse => exact h.fresh id (mem_of_lookup_eq_some ht)
  covers n hn e he htouch := by
    rw [lastEdgeTs_pushEdge, lookup_touchEdges]
    rcases mem_append.mp he with he | he
    · obtain ⟨t, ht, hle⟩ := h.covers n hn e he htouch
      rw [ht]
      split
      · exact ⟨_, rfl, hle.trans (le_max_left _ _)⟩
      · exact ⟨t, rfl, hle⟩
    · obtain rfl := mem_singleton.mp he
      rw [if_pos htouch]
      cases g.lastEdgeTs.lookup n with
      | none => exact ⟨_, rfl, le_rfl⟩
      | some t => exact ⟨_, rfl, le_max_right _ _⟩

theorem CacheExact.pushEdge (h : g.CacheExact) (hlinked : g.Linked)
    (hfrom : edge.fromId ∈ g.nodes) (hto : edge.toId ∈ g.nodes) :
    (g.pushEdge edge).CacheExact := by
  have hjoins : g.joins edge = true := joins_eq_true.mpr ⟨hfrom, hto⟩
  intro n hn
  have hold := (h n hn).trans (hlinked.lastActivity_eq n)
  have hscan : ((g.pushEdge edge).edges.filter fun e => (g.pushEdge edge).joins e && touches n e) =
      (g.edges.filter fun e => g.joins e && touches n e) ++
        [edge].filter fun e => g.joins e && touches n e := filter_append ..
  rw [(hlinked.pushEdge hfrom hto).lastActivity_eq, hscan, lastEdgeTs_pushEdge, lookup_touchEdges,
    hold]
  cases htouch : touches n edge with
  | true => simp [hjoins, htouch, max?_concat]
  | false => simp [htouch]

/-! ## Removal -/

/-- Each other node keeps a live edge that is as late as those it shares with the node. -/
def KeepsLatest (g : KnowledgeGraph) (id : NodeId) : Prop :=
  ∀ n ∈ g.nodes, n ≠ id → ∀ e ∈ g.liveEdgesAt n, touches id e = true →
    ∃ e' ∈ g.liveEdgesAt n, touches id e' = false ∧ e.ts ≤ e'.ts

theorem Cached.cutNode (h : g.Cached) (hnode : g.nodes.lookup id = some node) :
    (g.cutNode id node).Cached where
  linked := h.linked.cutNode
  indexed := h.indexed.cutNode hnode
  fresh a ha := h.fresh a (mem_erase.mp ha).2
  covers n hn e he htouch := by
    obtain ⟨hne, hn⟩ := mem_erase.mp hn
    obtain ⟨t, ht, hle⟩ := h.covers n hn e he htouch
    exact ⟨t, (lookup_erase_ne hne).trans ht, hle⟩

/-- A removal keeps the cache exact exactly if its neighbours do not lose their last edge. -/
theorem CacheExact.cutNode_iff (h : g.CacheExact) (hlinked : g.Linked) :
    (g.cutNode id node).CacheExact ↔ g.KeepsLatest id := by
  have hcut : ∀ n, ((g.cutNode id node).edges.filter fun e =>
      (g.cutNode id node).joins e && touches n e) =
        (g.liveEdgesAt n).filter fun e => !touches id e := by
    intro n
    rw [hlinked.liveEdgesAt_eq, filter_filter]
    refine filter_congr fun e _ => ?_
    rw [joins_cutNode, Bool.and_right_comm, Bool.and_comm]
  have hnode : ∀ n ∈ g.nodes, n ≠ id →
      ((g.cutNode id node).lastEdgeTs.lookup n = (g.cutNode id node).lastActivity n ↔
        ∀ e ∈ g.liveEdgesAt n, touches id e = true →
          ∃ e' ∈ g.liveEdgesAt n, touches id e' = false ∧ e.ts ≤ e'.ts) := by
    intro n hn hne
    have hcache : (g.cutNode id node).lastEdgeTs.lookup n = g.lastActivity n :=
      (lookup_erase_ne hne).trans (h n hn)
    rw [hcache, hlinked.cutNode.lastActivity_eq, hcut, lastActivity, eq_comm, max?_filter_eq_iff]
    simp only [Bool.not_eq_false', Bool.not_eq_true']
  constructor
  · intro hexact n hn hne
    exact (hnode n hn hne).mp (hexact n (mem_erase.mpr ⟨hne, hn⟩))
  · intro hkeeps n hn
    obtain ⟨hne, hn⟩ := mem_erase.mp hn
    exact (hnode n hn hne).mpr (hkeeps n hn hne)

/-! ## Compaction -/

theorem Cached.compact (h : g.Cached) : g.compact.Cached := by
  have hlinked := h.linked.compact
  rw [h.linked.compact_eq] at hlinked ⊢
  refine ⟨hlinked, ⟨h.indexed.index, h.indexed.threatIntel⟩, h.fresh, fun n hn e he => ?_⟩
  exact h.covers n hn e (mem_filter.mp he).1

theorem CacheExact.compact (h : g.CacheExact) (hlinked : g.Linked) : g.compact.CacheExact := by
  intro n hn
  have hcompact := hlinked.compact
  have hscan : (g.compact.edges.filter fun e => g.compact.joins e && touches n e) =
      g.edges.filter fun e => g.joins e && touches n e := by
    rw [hlinked.compact_eq]
    refine (filter_filter ..).trans (filter_congr fun e _ => ?_)
    change (g.joins e && touches n e && g.joins e) = (g.joins e && touches n e)
    rw [Bool.and_right_comm, Bool.and_self]
  rw [hcompact.lastActivity_eq, hscan]
  rw [hlinked.compact_eq] at hn ⊢
  exact (h n hn).trans (hlinked.lastActivity_eq n)

/-! ## Snapshots -/

theorem Cached.max?_touches (h : g.Cached) (hexact : g.CacheExact) (hn : n ∈ g.nodes) :
    ((g.edges.filter (touches n)).map Edge.ts).max? =
      ((g.edges.filter fun e => g.joins e && touches n e).map Edge.ts).max? := by
  rw [← filter_filter, eq_comm, max?_filter_eq_iff]
  intro e he _
  obtain ⟨hmem, htouch⟩ := mem_filter.mp he
  obtain ⟨t, ht, hle⟩ := h.covers n hn e hmem htouch
  rw [hexact n hn, h.linked.lastActivity_eq] at ht
  obtain ⟨e', he', rfl⟩ := mem_map.mp (max?_eq_some_iff.mp ht).1
  obtain ⟨hmem', hjoins⟩ := mem_filter.mp he'
  obtain ⟨hjoins, htouch'⟩ := Bool.and_eq_true_iff.mp hjoins
  exact ⟨e', mem_filter.mpr ⟨hmem', htouch'⟩, hjoins, hle⟩

variable {order : List ((_ : NodeId) × Node)}

theorem lastEdgeTs_reloaded (now : DateTime) (order : List ((_ : NodeId) × Node))
    (g : KnowledgeGraph) (n : NodeId) :
    (g.reloaded now order).lastEdgeTs.lookup n =
      ((g.edges.filter (touches n)).map Edge.ts).max? := by
  rw [reloaded, restored_eq]
  exact lookup_foldl_touchEdges g.edges n

theorem nodes_reloaded (now : DateTime) (order : List ((_ : NodeId) × Node))
    (g : KnowledgeGraph) : (g.reloaded now order).nodes = g.nodes := by
  rw [reloaded, restored_eq]
  rfl

theorem Linked.reloaded (h : g.Linked) (now : DateTime) (order : List ((_ : NodeId) × Node)) :
    (g.reloaded now order).Linked := by
  have hjoins : ∀ e ∈ g.edges.filter g.joins, true = g.joins e :=
    fun e he => (mem_filter.mp he).2.symm
  rw [KnowledgeGraph.reloaded, restored_eq]
  refine ⟨h.ids, ?_, ?_, ?_, ?_⟩
  · exact fun e he => h.ends e (mem_filter.mp he).1
  · exact (lists_listEdges Edge.fromId _).congr hjoins
  · exact (lists_listEdges Edge.toId _).congr hjoins
  · have hall : (g.edges.filter g.joins).countP g.joins = (g.edges.filter g.joins).length :=
      countP_eq_length.mpr fun e he => (mem_filter.mp he).2
    exact (Nat.zero_add _).trans hall

theorem Indexed.reloaded (h : g.Indexed) (now : DateTime) (horder : ↑order = g.nodes.entries) :
    (g.reloaded now order).Indexed := by
  have hindex := h.index_restored now horder
  have hthreat := h.threatIntelNodes_restored now horder
  have hnodes : (restored now order g.toSnapshot).nodes = g.nodes := nodes_reloaded now order g
  constructor
  · simp only [KnowledgeGraph.reloaded, hindex, hnodes]
    exact h.index
  · simp only [KnowledgeGraph.reloaded, hthreat, hnodes]
    exact h.threatIntel

theorem Cached.reloaded (h : g.Cached) (now : DateTime) (horder : ↑order = g.nodes.entries) :
    (g.reloaded now order).Cached := by
  have hnext : (g.reloaded now order).nextId = g.nextId := by
    rw [KnowledgeGraph.reloaded, restored_eq]; rfl
  refine ⟨h.linked.reloaded now order, h.indexed.reloaded now horder, fun id hid => ?_,
    fun n hn e he htouch => ?_⟩
  · obtain ⟨t, ht⟩ := mem_iff.mp hid
    rw [lastEdgeTs_reloaded] at ht
    obtain ⟨e, he, -⟩ := mem_map.mp (max?_eq_some_iff.mp ht).1
    obtain ⟨hmem, htouch⟩ := mem_filter.mp he
    rw [hnext]
    rcases Bool.or_eq_true_iff.mp htouch with heq | heq
    · exact of_decide_eq_true heq ▸ (h.linked.ends e hmem).1
    · exact of_decide_eq_true heq ▸ (h.linked.ends e hmem).2
  · have hmem : e.ts ∈ (g.edges.filter (touches n)).map Edge.ts :=
      mem_map_of_mem (mem_filter.mpr ⟨(mem_filter.mp he).1, htouch⟩)
    rw [lastEdgeTs_reloaded]
    cases hmax : ((g.edges.filter (touches n)).map Edge.ts).max? with
    | none => rw [max?_eq_none_iff.mp hmax] at hmem; cases hmem
    | some t => exact ⟨t, rfl, (max?_eq_some_iff.mp hmax).2 _ hmem⟩

theorem CacheExact.reloaded (h : g.CacheExact) (hcached : g.Cached) (now : DateTime)
    (order : List ((_ : NodeId) × Node)) : (g.reloaded now order).CacheExact := by
  have hnodes := nodes_reloaded now order g
  have hjoins : (g.reloaded now order).joins = g.joins :=
    funext fun e => joins_congr (by rw [hnodes]) (by rw [hnodes])
  intro n hn
  rw [hnodes] at hn
  rw [lastEdgeTs_reloaded, (hcached.linked.reloaded now order).lastActivity_eq, hjoins,
    hcached.max?_touches h hn]
  refine congrArg (fun l : List Edge => (l.map Edge.ts).max?) ?_
  refine Eq.symm ((filter_filter ..).trans (filter_congr fun e _ => ?_))
  rw [Bool.and_right_comm, Bool.and_self]

/-! ## The operations -/

theorem Cached.addNode (h : g.Cached) (node : Node) :
    (g.addNode node).1.Cached ∧ (g.CacheExact → (g.addNode node).1.CacheExact) :=
  addNode_induction (P := fun g' => g'.Cached ∧ (g.CacheExact → g'.CacheExact)) ⟨h, id⟩
    fun hfind => ⟨h.insertNode hfind, fun hexact => hexact.insertNode h⟩

theorem Cached.upsertNode (h : g.Cached) (node : Node) :
    (g.upsertNode node).1.Cached ∧ (g.CacheExact → (g.upsertNode node).1.CacheExact) := by
  cases hfind : g.index.lookup node.key with
  | some id =>
    obtain ⟨old, hold, hkey, heq⟩ := h.indexed.upsertNode_eq hfind
    rw [heq]
    exact ⟨h.mergeInto hold hkey, fun hexact => hexact.mergeInto h.linked hold⟩
  | none =>
    rw [upsertNode_of_none hfind]
    exact h.addNode node

theorem Cached.addEdge (h : g.Cached) (hfrom : edge.fromId ∈ g.nodes) (hto : edge.toId ∈ g.nodes) :
    (g.addEdge edge).1.Cached ∧ (g.CacheExact → (g.addEdge edge).1.CacheExact) := by
  have hfrom' : (g.enrich edge).fromId ∈ g.nodes := by rwa [(ends_enrich ..).1]
  have hto' : (g.enrich edge).toId ∈ g.nodes := by rwa [(ends_enrich ..).2]
  exact ⟨h.pushEdge hfrom' hto', fun hexact => hexact.pushEdge h.linked hfrom' hto'⟩

theorem Cached.removeNode (h : g.Cached) (id : NodeId) :
    (g.removeNode id).Cached ∧
      (g.CacheExact → ((g.removeNode id).CacheExact ↔ (id ∈ g.nodes → g.KeepsLatest id))) := by
  cases hnode : g.nodes.lookup id with
  | none =>
    have habsent : id ∉ g.nodes := lookup_eq_none.mp hnode
    rw [removeNode_of_none hnode]
    exact ⟨h, fun hexact => iff_of_true hexact fun hid => absurd hid habsent⟩
  | some node =>
    have hid : id ∈ g.nodes := mem_of_lookup_eq_some hnode
    rw [removeNode_of_some hnode ((h.indexed.index _ _).mpr ⟨node, hnode, rfl⟩)]
    refine ⟨h.cutNode hnode, fun hexact => ?_⟩
    rw [hexact.cutNode_iff h.linked]
    exact ⟨fun hkeeps _ => hkeeps, fun hkeeps => hkeeps hid⟩

theorem Cached.compactEdges (h : g.Cached) (belowRatio : Nat → Nat → Bool) :
    ((g.compactEdges belowRatio).Cached ∧
        (g.CacheExact → (g.compactEdges belowRatio).CacheExact)) ∧
      g.compactEdgesForce.Cached ∧ (g.CacheExact → g.compactEdgesForce.CacheExact) :=
  compactEdges_induction (P := fun g' => g'.Cached ∧ (g.CacheExact → g'.CacheExact)) ⟨h, id⟩
    ⟨h.compact, fun hexact => hexact.compact h.linked⟩ belowRatio

theorem cached_new (now : DateTime) : (new now).Cached where
  linked := (consistent_new now).linked
  indexed := (consistent_new now).indexed
  fresh _ hid := absurd hid notMem_empty
  covers _ hn := absurd hn notMem_empty

end KnowledgeGraph

/-! ## Runs -/

/-- A graph and the snapshot of it that was saved last.  The bytes of the snapshot are left
out, they are read back as they were written. -/
structure PersistedGraph where
  graph : KnowledgeGraph
  saved : Option KnowledgeGraph.GraphSnapshot

namespace PersistedGraph

open KnowledgeGraph

/-- The operations on the graph, with the reads of the cache. -/
inductive Op where
  | addNode (node : Node)
  | upsertNode (node : Node)
  | addEdge (edge : Edge)
  | removeNode (id : NodeId)
  | compactEdges
  | compactEdgesForce
  | save
  /-- `order` lists the nodes of the snapshot as the loaded map is iterated. -/
  | load (now : DateTime) (order : List ((_ : NodeId) × Node))

def step (belowRatio : Nat → Nat → Bool) (s : PersistedGraph) : Op → PersistedGraph
  | .addNode node => { s with graph := (s.graph.addNode node).1 }
  | .upsertNode node => { s with graph := (s.graph.upsertNode node).1 }
  | .addEdge edge => { s with graph := (s.graph.addEdge edge).1 }
  | .removeNode id => { s with graph := s.graph.removeNode id }
  | .compactEdges => { s with graph := s.graph.compactEdges belowRatio }
  | .compactEdgesForce => { s with graph := s.graph.compactEdgesForce }
  | .save => { s with saved := some s.graph.toSnapshot }
  | .load now order =>
    match s.saved.bind (reconstructFromSnapshot now order) with
    | some g => { s with graph := g }
    | none => s

def machine (belowRatio : Nat → Nat → Bool) (now : DateTime) :
    StateMachine PersistedGraph Op Unit where
  init := ⟨.new now, none⟩
  step s op := (s.step belowRatio op, ())

/-- Edges are added between nodes that are there, and the loader passes over the nodes of the
snapshot. -/
def Proper (s : PersistedGraph) : Op → Prop
  | .addEdge edge => edge.fromId ∈ s.graph.nodes ∧ edge.toId ∈ s.graph.nodes
  | .load _ order => ∀ snapshot, s.saved = some snapshot → ↑order = snapshot.nodes.entries
  | _ => True

/-- A node that is removed leaves its neighbours a live edge as late as those it takes. -/
def KeepsCache (s : PersistedGraph) : Op → Prop
  | .removeNode id => id ∈ s.graph.nodes → s.graph.KeepsLatest id
  | _ => True

/-- What holds as long as the cache was exact: the snapshot is one of a graph whose cache
was. -/
structure Sound (s : PersistedGraph) : Prop where
  graph : s.graph.Cached
  saved : ∀ snapshot, s.saved = some snapshot →
    ∃ g : KnowledgeGraph, snapshot = g.toSnapshot ∧ g.Cached ∧ g.CacheExact

variable {belowRatio : Nat → Nat → Bool} {s : PersistedGraph} {op : Op}

theorem Sound.withGraph {g : KnowledgeGraph} (h : s.Sound) (hg : g.Cached) :
    ({ s with graph := g } : PersistedGraph).Sound :=
  ⟨hg, h.saved⟩

theorem Sound.load (h : s.Sound) (belowRatio : Nat → Nat → Bool) {now : DateTime}
    {order : List ((_ : NodeId) × Node)}
    (hproper : s.Proper (.load now order)) :
    s.step belowRatio (.load now order) = s ∨
      ∃ g : KnowledgeGraph, g.Cached ∧ g.CacheExact ∧ ↑order = g.nodes.entries ∧
        s.step belowRatio (.load now order) = { s with graph := g.reloaded now order } := by
  cases hsaved : s.saved with
  | none => exact Or.inl (by simp [step, hsaved])
  | some snapshot =>
    obtain ⟨g, rfl, hcached, hexact⟩ := h.saved snapshot hsaved
    have horder : ↑order = g.nodes.entries := hproper _ hsaved
    refine Or.inr ⟨g, hcached, hexact, horder, ?_⟩
    simp only [step, hsaved, Option.bind_some, hcached.indexed.reconstruct_eq now horder]

theorem Sound.step (h : s.Sound) (hexact : s.graph.CacheExact) (hproper : s.Proper op) :
    (s.step belowRatio op).Sound := by
  cases op with
  | addNode node => exact h.withGraph (h.graph.addNode node).1
  | upsertNode node => exact h.withGraph (h.graph.upsertNode node).1
  | addEdge edge => exact h.withGraph (h.graph.addEdge hproper.1 hproper.2).1
  | removeNode id => exact h.withGraph (h.graph.removeNode id).1
  | compactEdges => exact h.withGraph (h.graph.compactEdges belowRatio).1.1
  | compactEdgesForce => exact h.withGraph (h.graph.compactEdges belowRatio).2.1
  | save =>
    refine ⟨h.graph, fun snapshot hsaved => ?_⟩
    exact ⟨s.graph, (Option.some.inj hsaved).symm, h.graph, hexact⟩
  | load now order =>
    rcases h.load belowRatio hproper with heq | ⟨g, hcached, -, horder, heq⟩
    · rwa [heq]
    · rw [heq]
      exact h.withGraph (hcached.reloaded now horder)

/-- A step keeps the cache exact exactly if it does not take a neighbour its last edge. -/
theorem Sound.cacheExact_step_iff (h : s.Sound) (hexact : s.graph.CacheExact)
    (hproper : s.Proper op) :
    (s.step belowRatio op).graph.CacheExact ↔ s.KeepsCache op := by
  cases op with
  | addNode node => exact iff_of_true ((h.graph.addNode node).2 hexact) trivial
  | upsertNode node => exact iff_of_true ((h.graph.upsertNode node).2 hexact) trivial
  | addEdge edge => exact iff_of_true ((h.graph.addEdge hproper.1 hproper.2).2 hexact) trivial
  | removeNode id => exact (h.graph.removeNode id).2 hexact
  | compactEdges => exact iff_of_true ((h.graph.compactEdges belowRatio).1.2 hexact) trivial
  | compactEdgesForce => exact iff_of_true ((h.graph.compactEdges belowRatio).2.2 hexact) trivial
  | save => exact iff_of_true hexact trivial
  | load now order =>
    refine iff_of_true ?_ trivial
    rcases h.load belowRatio hproper with heq | ⟨g, hcached, hg, -, heq⟩
    · rwa [heq]
    · rw [heq]
      exact hg.reloaded hcached now order

/-- The cache holds what a scan finds in every graph of a run exactly if every removal leaves
the neighbours of the node a live edge as late as those it takes. -/
theorem cacheExact_iff (belowRatio : Nat → Nat → Bool) (now : DateTime) (ops : List Op)
    (hproper : (machine belowRatio now).Meets Proper (machine belowRatio now).init ops) :
    (∀ pre, pre <+: ops →
        ((machine belowRatio now).exec (machine belowRatio now).init pre).graph.CacheExact) ↔
      (machine belowRatio now).Meets KeepsCache (machine belowRatio now).init ops := by
  have hsound : (machine belowRatio now).init.Sound :=
    ⟨cached_new now, fun snapshot hsaved => by cases hsaved⟩
  have hexact : (machine belowRatio now).init.graph.CacheExact :=
    fun n hn => absurd hn notMem_empty
  exact StateMachine.forall_exec_iff_meets_of_meets
    (P := fun s : PersistedGraph => s.graph.CacheExact)
    (fun _ _ h hs hW => h.step hs hW) (fun _ _ h hs hW => h.cacheExact_step_iff hs hW) ops hsound
    hexact hproper

/-- Two users and an edge between them, saved and loaded. -/
def sampleOps : List Op :=
  [.addNode (.user ⟨"root", none⟩), .addNode (.user ⟨"www", none⟩), .addEdge ⟨1, 2, .runAs, 0, ∅⟩,
   .save, .load 0 [⟨2, .user ⟨"www", none⟩⟩, ⟨1, .user ⟨"root", none⟩⟩]]

theorem cacheExact_sampleOps :
    let M := machine (fun t n => 5 * t < n) 0
    M.Meets Proper M.init sampleOps ∧
      ∀ pre, pre <+: sampleOps → (M.exec M.init pre).graph.CacheExact := by
  intro M
  have hproper : M.Meets Proper M.init sampleOps := by
    refine ⟨trivial, trivial, ⟨by decide +kernel, by decide +kernel⟩, trivial, ?_, trivial⟩
    intro snapshot hsaved
    obtain rfl := Option.some.inj hsaved
    with_unfolding_all rfl
  refine ⟨hproper, (cacheExact_iff _ 0 sampleOps hproper).mpr ?_⟩
  exact ⟨trivial, trivial, trivial, trivial, trivial, trivial⟩

/-- The second of two users is removed.  The first has no live edge left, and the cache still
has the instant of the one it had. -/
theorem stale_cache_after_removal :
    let M := machine (fun t n => 5 * t < n) 0
    let g := (M.exec M.init [.addNode (.user ⟨"root", none⟩), .addNode (.user ⟨"www", none⟩),
      .addEdge ⟨1, 2, .runAs, 5, ∅⟩, .removeNode 2]).graph
    1 ∈ g.nodes ∧ g.lastEdgeTs.lookup 1 = some 5 ∧ g.lastActivity 1 = none := by
  decide +kernel

end PersistedGraph

end Innerwarden

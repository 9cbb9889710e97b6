import Innerwarden.Knowledge.Adjacency
import Innerwarden.Knowledge.LastActivity

/-!
# What eviction removes

`enforce_memory_limit` removes nodes, those with the oldest cached activity first, until the
estimate is within the limit.  The edges of a removed node become tombstones, whose size stays
on the estimate until a compaction.  So nodes go on being removed while a compaction would do.

`removals` are the removals of a call, each with the graph it was made in.
`enforceMemoryLimit_exact_iff` says when all of them were needed and in order.
-/

namespace Innerwarden

open List

namespace KnowledgeGraph

/-! ## The removals of a call -/

def compactedSize (g : KnowledgeGraph) : Nat :=
  FiniteMap.total estimateNodeSize g.nodes + g.edgeSizes fun entry => g.live entry.2

def cachedActivity (g : KnowledgeGraph) (id : NodeId) : DateTime :=
  (g.lastEdgeTs.lookup id).getD g.createdAt

def evictable (g : KnowledgeGraph) (id : NodeId) : Bool :=
  (g.nodes.lookup id).any fun node => !node.isSystem

/-- The candidates of a call, oldest cached activity first. -/
def evictionOrder (g : KnowledgeGraph) (order : List NodeId) : List (NodeId × DateTime) :=
  ((order.filter g.evictable).map fun id => (id, g.cachedActivity id)).mergeSort
    fun a b => a.2 ≤ b.2

/-- The nodes the loop removes, each with the graph just before. -/
def evictions (g : KnowledgeGraph) : List NodeId → List (KnowledgeGraph × NodeId)
  | [] => []
  | id :: ids =>
    if g.memoryEstimate ≤ g.maxMemory then [] else (g, id) :: evictions (g.removeNode id) ids

/-- The removals of a call of `enforce_memory_limit`. -/
def removals (g : KnowledgeGraph) (order : List NodeId) : List (KnowledgeGraph × NodeId) :=
  g.evictions ((g.evictionOrder order).map Prod.fst)

variable {g : KnowledgeGraph}

/-! ## Without the first candidates -/

def nodesWithout (g : KnowledgeGraph) (gone : List NodeId) : FiniteMap NodeId Node :=
  gone.foldl (fun nodes id => nodes.erase id) g.nodes

/-- The estimate without some of the nodes: all edges still count. -/
def sizeWithout (g : KnowledgeGraph) (gone : List NodeId) : Nat :=
  FiniteMap.total estimateNodeSize (g.nodesWithout gone) + (g.edges.map estimateEdgeSize).sum

/-- The size after a compaction without some of the nodes: only the live edges that do not
touch them count. -/
def compactedWithout (g : KnowledgeGraph) (gone : List NodeId) : Nat :=
  FiniteMap.total estimateNodeSize (g.nodesWithout gone) +
    g.edgeSizes fun entry => g.live entry.2 && !gone.any fun id => touches id entry.1

theorem foldl_removeNode_frame (g : KnowledgeGraph) (gone : List NodeId) :
    (gone.foldl removeNode g).nodes = g.nodesWithout gone ∧
      (gone.foldl removeNode g).edges = g.edges := by
  induction gone generalizing g with
  | nil => exact ⟨rfl, rfl⟩
  | cons id gone ih =>
    obtain ⟨hnodes, hedges, -⟩ := g.removeNode_frame id
    obtain ⟨ihnodes, ihedges⟩ := ih (g.removeNode id)
    refine ⟨ihnodes.trans ?_, ihedges.trans hedges⟩
    rw [nodesWithout, hnodes]
    rfl

theorem sizeWithout_cons (g : KnowledgeGraph) (id : NodeId) (gone : List NodeId) :
    g.sizeWithout (id :: gone) = (g.removeNode id).sizeWithout gone := by
  obtain ⟨hnodes, hedges, -⟩ := g.removeNode_frame id
  rw [sizeWithout, sizeWithout, nodesWithout, nodesWithout, hnodes, hedges]
  rfl

theorem sizeWithout_le (g : KnowledgeGraph) (gone : List NodeId) :
    g.sizeWithout gone ≤ g.sizeWithout [] := by
  induction gone generalizing g with
  | nil => exact Nat.le_refl _
  | cons id gone ih =>
    obtain ⟨hnodes, hedges, -⟩ := g.removeNode_frame id
    rw [sizeWithout_cons]
    refine (ih (g.removeNode id)).trans ?_
    rw [sizeWithout, sizeWithout, nodesWithout, nodesWithout, hnodes, hedges]
    exact Nat.add_le_add_right (FiniteMap.total_erase_le id g.nodes _) _

/-- A removal is made exactly where the nodes before it leave the estimate above the limit. -/
theorem Weighed.mem_evictions (h : g.Weighed) {ids : List NodeId} {r : KnowledgeGraph × NodeId} :
    r ∈ g.evictions ids ↔
      ∃ gone id rest, ids = gone ++ id :: rest ∧ g.maxMemory < g.sizeWithout gone ∧
        r = (gone.foldl KnowledgeGraph.removeNode g, id) := by
  -- The graph changes with every turn of the loop, and with it what the sizes are taken of.
  induction ids generalizing g with
  | nil => simp [evictions]
  | cons a ids ih =>
    have hsize : g.memoryEstimate = g.sizeWithout [] := h
    rw [evictions]
    split
    case isTrue hle =>
      refine iff_of_false not_mem_nil ?_
      rintro ⟨gone, id, rest, -, hlt, -⟩
      have := g.sizeWithout_le gone
      omega
    case isFalse hgt =>
      rw [mem_cons, ih (h.removeNode a), (g.removeNode_frame a).2.2.1]
      constructor
      · rintro (rfl | ⟨gone, id, rest, rfl, hlt, rfl⟩)
        · exact ⟨[], a, ids, rfl, by omega, rfl⟩
        · exact ⟨a :: gone, id, rest, rfl, by rwa [sizeWithout_cons], rfl⟩
      · rintro ⟨gone, id, rest, hids, hlt, rfl⟩
        cases gone with
        | nil =>
          rw [nil_append, List.cons.injEq] at hids
          exact Or.inl (by rw [← hids.1]; rfl)
        | cons b gone =>
          rw [cons_append, List.cons.injEq] at hids
          obtain ⟨rfl, rfl⟩ := hids
          exact Or.inr ⟨gone, id, rest, rfl, by rwa [← sizeWithout_cons], rfl⟩

/-- What holds between each removed node and those removed before it. -/
theorem Weighed.pairwise_evictions (h : g.Weighed) {ids : List NodeId}
    {R : NodeId → NodeId → Prop} :
    ((g.evictions ids).map Prod.snd).Pairwise R ↔
      ∀ gone id rest, ids = gone ++ id :: rest → g.maxMemory < g.sizeWithout gone →
        ∀ a ∈ gone, R a id := by
  induction ids generalizing g with
  | nil => simp [evictions]
  | cons b ids ih =>
    rw [evictions]
    split
    case isTrue hle =>
      refine iff_of_true List.Pairwise.nil fun gone id rest _ hlt => ?_
      have hsize : g.memoryEstimate = g.sizeWithout [] := h
      have := g.sizeWithout_le gone
      omega
    case isFalse =>
      have hb := h.removeNode b
      have hmax := (g.removeNode_frame b).2.2.1
      rw [map_cons, pairwise_cons, ih hb, hmax]
      constructor
      · rintro ⟨hfirst, hrest⟩ gone id rest hids hlt a ha
        cases gone with
        | nil => cases ha
        | cons c gone =>
          rw [cons_append, List.cons.injEq] at hids
          obtain ⟨rfl, rfl⟩ := hids
          rw [sizeWithout_cons] at hlt
          rcases mem_cons.mp ha with rfl | ha
          · have hr := hb.mem_evictions.mpr ⟨gone, id, rest, rfl, by rwa [hmax], rfl⟩
            exact hfirst id (mem_map_of_mem hr)
          · exact hrest gone id rest rfl hlt a ha
      · intro hall
        refine ⟨fun id hid => ?_, fun gone id rest hids hlt a ha => ?_⟩
        · obtain ⟨r, hr, rfl⟩ := mem_map.mp hid
          obtain ⟨gone, id, rest, rfl, hlt, rfl⟩ := hb.mem_evictions.mp hr
          rw [hmax, ← sizeWithout_cons] at hlt
          exact hall (b :: gone) id rest rfl hlt b mem_cons_self
        · rw [← sizeWithout_cons] at hlt
          exact hall (b :: gone) id rest (by rw [hids]; rfl) hlt a (mem_cons_of_mem b ha)

theorem Adjacency.live_foldl_removeNode (h : g.Adjacency) {gone : List NodeId}
    (hnodup : gone.Nodup) (hgone : ∀ a ∈ gone, a ∈ g.nodes) {entry : Edge × Nat}
    (hentry : entry ∈ g.edges.zipIdx) :
    (gone.foldl KnowledgeGraph.removeNode g).live entry.2 =
      (g.live entry.2 && !gone.any fun id => touches id entry.1) := by
  induction gone generalizing g with
  | nil => simp
  | cons a gone ih =>
    obtain ⟨hnodes, hedges, -⟩ := g.removeNode_frame a
    obtain ⟨hfresh, hnodup⟩ := nodup_cons.mp hnodup
    have hleft : ∀ b ∈ gone, b ∈ (g.removeNode a).nodes := by
      intro b hb
      rw [hnodes, Finmap.mem_erase]
      exact ⟨fun heq => hfresh (heq ▸ hb), hgone b (mem_cons_of_mem a hb)⟩
    have hone : (g.removeNode a).live entry.2 = (g.live entry.2 && !touches a entry.1) := by
      rw [Bool.eq_iff_iff, h.live_removeNode (hgone a mem_cons_self)]
      simp [mem_zipIdx_iff_getElem?.mp hentry]
    rw [foldl_cons, ih (h.removeNode a) hnodup hleft (by rwa [hedges]), hone,
      any_cons, Bool.not_or, Bool.and_assoc]

theorem Adjacency.compactedSize_foldl_removeNode (h : g.Adjacency) {gone : List NodeId}
    (hnodup : gone.Nodup) (hgone : ∀ a ∈ gone, a ∈ g.nodes) :
    (gone.foldl KnowledgeGraph.removeNode g).compactedSize = g.compactedWithout gone := by
  obtain ⟨hnodes, hedges⟩ := g.foldl_removeNode_frame gone
  rw [compactedSize, compactedWithout, hnodes, edgeSizes, edgeSizes, hedges]
  rw [filter_congr fun entry hentry => h.live_foldl_removeNode hnodup hgone hentry]

/-! ## The order of the candidates -/

/-- All nodes but the system, each once, the oldest cached activity first. -/
structure Arranged (g : KnowledgeGraph) (ids : List NodeId) : Prop where
  nodup : ids.Nodup
  mem : ∀ id, id ∈ ids ↔ g.evictable id = true
  sorted : ids.Pairwise fun a b => g.cachedActivity a ≤ g.cachedActivity b

theorem mem_of_evictable {id : NodeId} (h : g.evictable id = true) : id ∈ g.nodes := by
  by_contra hid
  rw [evictable, Finmap.lookup_eq_none.mpr hid] at h
  cases h

theorem Enumerates.arranged {order : List NodeId} (h : g.Enumerates order) :
    g.Arranged ((g.evictionOrder order).map Prod.fst) := by
  have hperm : (g.evictionOrder order).Perm
      ((order.filter g.evictable).map fun id => (id, g.cachedActivity id)) :=
    mergeSort_perm _ _
  have hids : ((g.evictionOrder order).map Prod.fst).Perm (order.filter g.evictable) := by
    have hfst := hperm.map Prod.fst
    rw [map_map] at hfst
    exact hfst.trans (List.Perm.of_eq (map_id _))
  refine ⟨hids.nodup_iff.mpr (h.nodup.filter _), fun id => ?_, ?_⟩
  · rw [hids.mem_iff, mem_filter, h.mem, and_iff_right_of_imp mem_of_evictable]
  · have hcached : ∀ c ∈ g.evictionOrder order, c.2 = g.cachedActivity c.1 := by
      intro c hc
      obtain ⟨id, -, rfl⟩ := mem_map.mp (hperm.mem_iff.mp hc)
      rfl
    have hsorted : (g.evictionOrder order).Pairwise fun a b => a.2 ≤ b.2 :=
      pairwise_mergeSort_ts Prod.snd _
    rw [pairwise_map]
    refine hsorted.imp_of_mem fun {a b} ha hb hle => ?_
    rwa [← hcached a ha, ← hcached b hb]

/-- Any arrangement is the order of the candidates for some order of the map. -/
theorem Arranged.exists_enumerates {ids : List NodeId} (h : g.Arranged ids) :
    ∃ order, g.Enumerates order ∧ (g.evictionOrder order).map Prod.fst = ids := by
  -- The system stands anywhere, here at the end.
  let others := g.nodes.keys.toList.filter fun id => !g.evictable id
  have hfilter : (ids ++ others).filter g.evictable = ids := by
    rw [filter_append, filter_eq_self.mpr fun id hid => (h.mem id).mp hid,
      filter_eq_nil_iff.mpr, append_nil]
    intro id hid
    simpa using (mem_filter.mp hid).2
  refine ⟨ids ++ others, ⟨?_, fun id => ?_⟩, ?_⟩
  · refine nodup_append.mpr ⟨h.nodup, (Finset.nodup_toList _).filter _, ?_⟩
    rintro a ha b hb rfl
    simp [(h.mem a).mp ha, others] at hb
  · rw [mem_append, h.mem, mem_filter, Finset.mem_toList, Finmap.mem_keys]
    cases hid : g.evictable id with
    | true => simp [mem_of_evictable hid]
    | false => simp
  · have hsorted : (ids.map fun id => (id, g.cachedActivity id)).Pairwise
        fun a b => decide (a.2 ≤ b.2) = true := by
      rw [pairwise_map]
      exact h.sorted.imp fun hle => decide_eq_true hle
    rw [evictionOrder, hfilter, mergeSort_of_pairwise hsorted, map_map]
    exact map_id _

/-! ## When a call removes no more than needed -/

/-- The last live edge of one node is no later than that of another. -/
def NoLater (g : KnowledgeGraph) (a b : NodeId) : Prop :=
  ∀ s ∈ g.lastActivity a, ∀ t ∈ g.lastActivity b, s ≤ t

/-- A call removes nodes only while the graph would not fit after a compaction, and removes
them in the order of their last live edges, exactly if this holds of the nodes in any order
sorted by cached activity.  As long as the first of them leave an estimate above the limit
with all edges, they leave more than the limit with the live edges alone, and the next node
has no earlier a live edge than they have. -/
theorem enforceMemoryLimit_exact_iff (h : g.Tracked) :
    (∀ order, g.Enumerates order →
        (∀ r ∈ g.removals order, g.maxMemory < r.1.compactedSize) ∧
          ((g.removals order).map Prod.snd).Pairwise g.NoLater) ↔
      ∀ gone id rest, g.Arranged (gone ++ id :: rest) → g.maxMemory < g.sizeWithout gone →
        g.maxMemory < g.compactedWithout gone ∧ ∀ a ∈ gone, g.NoLater a id := by
  have hsize : ∀ {gone id rest}, g.Arranged (gone ++ id :: rest) →
      (gone.foldl removeNode g).compactedSize = g.compactedWithout gone := by
    intro gone id rest harr
    refine h.adjacency.compactedSize_foldl_removeNode (nodup_append.mp harr.nodup).1 ?_
    intro a ha
    exact mem_of_evictable ((harr.mem a).mp (mem_append_left _ ha))
  constructor
  · intro hcall gone id rest harr hlt
    obtain ⟨order, horder, hids⟩ := harr.exists_enumerates
    obtain ⟨hneeded, hpairwise⟩ := hcall order horder
    rw [removals, hids] at hneeded hpairwise
    have hr := hneeded _ (h.weighed.mem_evictions.mpr ⟨gone, id, rest, rfl, hlt, rfl⟩)
    exact ⟨hsize harr ▸ hr, h.weighed.pairwise_evictions.mp hpairwise gone id rest rfl hlt⟩
  · intro hall order horder
    have harr := horder.arranged
    refine ⟨fun r hr => ?_, h.weighed.pairwise_evictions.mpr fun gone id rest hids hlt => ?_⟩
    · obtain ⟨gone, id, rest, hids, hlt, rfl⟩ := h.weighed.mem_evictions.mp hr
      rw [hids] at harr
      exact hsize harr ▸ (hall gone id rest harr hlt).1
    · rw [hids] at harr
      exact (hall gone id rest harr hlt).2

/-- Three users with an edge between the first two, and room for two of them. -/
def crowded : KnowledgeGraph :=
  { (machine (fun t n => 5 * t < n) 10).exec (new 10)
      [.addNode (.user ⟨"root", none⟩), .addNode (.user ⟨"www", none⟩),
       .addNode (.user ⟨"git", none⟩), .addEdge ⟨1, 2, .runAs, 5, ∅⟩] with
    maxMemory := 250 }

theorem tracked_crowded : crowded.Tracked :=
  let h := tracked_exec (fun t n => 5 * t < n) 10
    [.addNode (.user ⟨"root", none⟩), .addNode (.user ⟨"www", none⟩),
     .addNode (.user ⟨"git", none⟩), .addEdge ⟨1, 2, .runAs, 5, ∅⟩]
  ⟨h.ids, ⟨h.adjacency.outgoing, h.adjacency.incoming⟩, h.weighed⟩

theorem enforceMemoryLimit_exact_iff_crowded :
    crowded.Tracked ∧
      ((∀ order, crowded.Enumerates order →
          (∀ r ∈ crowded.removals order, crowded.maxMemory < r.1.compactedSize) ∧
            ((crowded.removals order).map Prod.snd).Pairwise crowded.NoLater) ↔
        ∀ gone id rest, crowded.Arranged (gone ++ id :: rest) →
          crowded.maxMemory < crowded.sizeWithout gone →
          crowded.maxMemory < crowded.compactedWithout gone ∧ ∀ a ∈ gone, crowded.NoLater a id) :=
  ⟨tracked_crowded, enforceMemoryLimit_exact_iff tracked_crowded⟩

/-- The second removal is made in a graph of two users, which has room for both, because the
edge of the first is still counted. -/
theorem removal_within_limit :
    crowded.Enumerates [1, 2, 3] ∧
      ∃ r ∈ crowded.removals [1, 2, 3], r.2 = 2 ∧ r.1.memoryEstimate = 320 ∧
        r.1.compactedSize = 200 ∧ crowded.maxMemory = 250 := by
  have hnodes : crowded.nodes = (((∅ : FiniteMap NodeId Node).insert 1
    (.user ⟨"root", none⟩)).insert 2 (.user ⟨"www", none⟩)).insert 3 (.user ⟨"git", none⟩) := rfl
  have hsorted : crowded.evictionOrder [1, 2, 3] = [(1, 5), (2, 5), (3, 10)] :=
    (mergeSort_of_pairwise (by decide +kernel)).trans (by decide +kernel)
  refine ⟨⟨by decide, fun id => ?_⟩, ?_⟩
  · rw [hnodes]
    simp only [Finmap.mem_insert, mem_cons, Finmap.notMem_empty, not_mem_nil]
    grind
  · rw [removals, hsorted]
    decide +kernel

end KnowledgeGraph

end Innerwarden

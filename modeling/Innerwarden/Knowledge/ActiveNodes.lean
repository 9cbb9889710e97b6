import Innerwarden.Knowledge.Invariant

/-!
# Recently active nodes

`active_nodes_since` collects the ends of edges from the end of the vector and stops at the
first edge that is older.  But `add_edge` appends whatever instant it is given, and
`remove_node` leaves tombstones.

An edge is in the *recent tail* if neither it nor an edge after it is older.  The ends of these
are found (`mem_activeNodesSince`).  `activeNodesSince_iff` says when they are the ends of the
live edges that are not older.
-/

namespace Innerwarden

open List

namespace KnowledgeGraph

/-- The loop over the edges, latest first, with its early exit. -/
def collectSince (since : DateTime) : List Edge → Finset NodeId → Finset NodeId
  | [], active => active
  | e :: edges, active =>
    if e.ts < since then active
    else collectSince since edges (insert e.toId (insert e.fromId active))

def activeNodesSince (g : KnowledgeGraph) (since : DateTime) : Finset NodeId :=
  collectSince since g.edges.reverse ∅

/-- No edge from the position on is older. -/
def RecentFrom (edges : List Edge) (since : DateTime) (i : Nat) : Prop :=
  ∀ j e, i ≤ j → edges[j]? = some e → since ≤ e.ts

variable {g : KnowledgeGraph} {since : DateTime} {n : NodeId}

theorem recentFrom_concat {edges : List Edge} {e : Edge} {i : Nat} (hi : i ≤ edges.length) :
    RecentFrom (edges ++ [e]) since i ↔ RecentFrom edges since i ∧ since ≤ e.ts := by
  constructor
  · intro h
    refine ⟨fun j e' hij hj => h j e' hij ?_, h edges.length e hi (by simp)⟩
    rw [getElem?_append_left (List.getElem?_eq_some_iff.mp hj).1, hj]
  · rintro ⟨h, he⟩ j e' hij hj
    rcases Nat.lt_or_ge j edges.length with hlt | hge
    · rw [getElem?_append_left hlt] at hj
      exact h j e' hij hj
    · rw [getElem?_append_right hge, getElem?_singleton] at hj
      split at hj
      · exact Option.some.inj hj ▸ he
      · cases hj

/-- With a last edge that is not older, its ends are found, and what was found without it. -/
theorem exists_recent_concat {edges : List Edge} {last : Edge} (hnew : since ≤ last.ts) :
    (∃ i e, (edges ++ [last])[i]? = some e ∧ RecentFrom (edges ++ [last]) since i ∧
        touches n e = true) ↔
      touches n last = true ∨
        ∃ i e, edges[i]? = some e ∧ RecentFrom edges since i ∧ touches n e = true := by
  constructor
  · rintro ⟨i, e, he, hrecent, htouch⟩
    rcases Nat.lt_or_ge i edges.length with hlt | hge
    · rw [getElem?_append_left hlt] at he
      exact Or.inr ⟨i, e, he, ((recentFrom_concat hlt.le).mp hrecent).1, htouch⟩
    · rw [getElem?_append_right hge, getElem?_singleton] at he
      split at he
      · exact Or.inl (Option.some.inj he ▸ htouch)
      · cases he
  · rintro (htouch | ⟨i, e, he, hrecent, htouch⟩)
    · refine ⟨edges.length, last, by simp, (recentFrom_concat le_rfl).mpr ⟨?_, hnew⟩, htouch⟩
      intro j e hj he
      exact absurd (List.getElem?_eq_some_iff.mp he).1 (Nat.not_lt.mpr hj)
    · have hlt := (List.getElem?_eq_some_iff.mp he).1
      refine ⟨i, e, ?_, (recentFrom_concat hlt.le).mpr ⟨hrecent, hnew⟩, htouch⟩
      rw [getElem?_append_left hlt, he]

theorem mem_collectSince (edges : List Edge) (active : Finset NodeId) :
    n ∈ collectSince since edges.reverse active ↔
      n ∈ active ∨ ∃ i e, edges[i]? = some e ∧ RecentFrom edges since i ∧ touches n e = true := by
  induction edges using List.reverseRecOn generalizing active with
  | nil => simp [collectSince]
  | append_singleton edges last ih =>
    rw [reverse_append, reverse_singleton, singleton_append, collectSince]
    split
    case isTrue hold =>
      -- The last edge is older, so no position is recent.
      refine ⟨Or.inl, fun h => h.resolve_right ?_⟩
      rintro ⟨i, e, he, hrecent, -⟩
      have hi : i < (edges ++ [last]).length := (List.getElem?_eq_some_iff.mp he).1
      have hlast := hrecent edges.length last (by simp at hi; omega) (by simp)
      exact absurd hold (Int.not_lt.mpr hlast)
    case isFalse hnew =>
      have hends : touches n last = true ↔ n = last.toId ∨ n = last.fromId := by
        simp only [touches, Bool.or_eq_true, decide_eq_true_eq]
        exact ⟨fun h => h.elim (fun h => .inr h.symm) fun h => .inl h.symm,
          fun h => h.elim (fun h => .inr h.symm) fun h => .inl h.symm⟩
      rw [ih, exists_recent_concat (Int.not_lt.mp hnew), hends, Finset.mem_insert,
        Finset.mem_insert]
      tauto

theorem mem_activeNodesSince :
    n ∈ g.activeNodesSince since ↔
      ∃ i e, g.edges[i]? = some e ∧ RecentFrom g.edges since i ∧ touches n e = true := by
  rw [activeNodesSince, mem_collectSince]
  simp

/-- The node is an end of a live edge that is not older. -/
def LiveSince (g : KnowledgeGraph) (since : DateTime) (n : NodeId) : Prop :=
  ∃ i e, g.edges[i]? = some e ∧ g.live i = true ∧ since ≤ e.ts ∧ touches n e = true

/-- The tombstones of the recent tail end in nodes that have a live edge as well, and live
edges that are in front of the tail end in nodes of the tail. -/
structure TailSuffices (g : KnowledgeGraph) (since : DateTime) : Prop where
  tombstones : ∀ i e, g.edges[i]? = some e → RecentFrom g.edges since i → g.live i = false →
    ∀ n, touches n e = true → g.LiveSince since n
  outOfOrder : ∀ i e, g.edges[i]? = some e → g.live i = true → since ≤ e.ts →
    ¬ RecentFrom g.edges since i → ∀ n, touches n e = true →
      ∃ j e', g.edges[j]? = some e' ∧ RecentFrom g.edges since j ∧ touches n e' = true

/-- The nodes found are the ends of the live edges that are not older exactly if tombstones in
the recent tail and live edges in front of it do not matter. -/
theorem activeNodesSince_iff (g : KnowledgeGraph) (since : DateTime) :
    (∀ n, n ∈ g.activeNodesSince since ↔ g.LiveSince since n) ↔ g.TailSuffices since := by
  simp only [mem_activeNodesSince]
  constructor
  · intro h
    refine ⟨fun i e he hrecent _ n htouch => ?_, fun i e he hlive hts _ n htouch => ?_⟩
    · exact (h n).mp ⟨i, e, he, hrecent, htouch⟩
    · exact (h n).mpr ⟨i, e, he, hlive, hts, htouch⟩
  · rintro ⟨htombstones, houtOfOrder⟩ n
    constructor
    · rintro ⟨i, e, he, hrecent, htouch⟩
      cases hlive : g.live i with
      | true => exact ⟨i, e, he, hlive, hrecent i e le_rfl he, htouch⟩
      | false => exact htombstones i e he hrecent hlive n htouch
    · rintro ⟨i, e, he, hlive, hts, htouch⟩
      by_cases hrecent : RecentFrom g.edges since i
      · exact ⟨i, e, he, hrecent, htouch⟩
      · exact houtOfOrder i e he hlive hts hrecent n htouch

/-- Three users, with an edge at ten between the first two and one at five added after it. -/
def lateEdgeGraph : KnowledgeGraph :=
  let M := machine (fun t n => 5 * t < n) 0
  M.exec M.init [.addNode (.user ⟨"root", none⟩), .addNode (.user ⟨"www", none⟩),
    .addNode (.user ⟨"app", none⟩), .addEdge ⟨1, 2, .runAs, 10, ∅⟩, .addEdge ⟨2, 3, .runAs, 5, ∅⟩]

/-- Asked for what is active since seven, the scan stops at the last edge and finds nothing. -/
theorem late_edge_hides_active :
    lateEdgeGraph.activeNodesSince 7 = ∅ ∧ lateEdgeGraph.LiveSince 7 1 := by
  have hfound : lateEdgeGraph.activeNodesSince 7 = ∅ ∧ lateEdgeGraph.live 0 = true ∧
      (lateEdgeGraph.edges[0]?.any fun e => decide (7 ≤ e.ts) && touches 1 e) = true := by
    decide +kernel
  obtain ⟨hempty, hlive, hedge⟩ := hfound
  cases he : lateEdgeGraph.edges[0]? with
  | none =>
    rw [he] at hedge
    cases hedge
  | some e =>
    rw [he, Option.any_some] at hedge
    obtain ⟨hts, htouch⟩ := Bool.and_eq_true_iff.mp hedge
    exact ⟨hempty, 0, e, he, hlive, of_decide_eq_true hts, htouch⟩

end KnowledgeGraph

end Innerwarden

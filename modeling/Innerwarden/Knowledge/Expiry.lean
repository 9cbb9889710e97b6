import Innerwarden.Knowledge.Adjacency
import Innerwarden.Lib.Text

/-!
# What expiry removes

The *ensure* helpers of `graph.rs` find a node by its key or make it.  `cleanup_expired` removes
the nodes whose time is over.  A file, a domain or a port goes a day after its last edge, and so
does a process that has not exited.  Other nodes are judged by an instant of their own: a
process or container by its exit, an IP or campaign by `last_seen`, an incident by when it was
raised.

A pid that is used again names the same node, whose exit stays.  So a node with a recent edge is
removed if its own instant is old enough (`Node.Lapsed`, `cleanupExpired_spares_iff`).
-/

namespace Innerwarden

open Text List Finmap

/-- The instant a node is judged by, apart from its edges, is too long ago. -/
def Node.Lapsed (now : DateTime) : Node → Prop
  | .process n => ∃ exit, n.exitTs = some exit ∧ hours 1 < now - exit
  | .ip n => n.datasets = [] ∧ n.riskScore = 0 ∧ hours 24 < now - n.lastSeen
  | .container n => ∃ exit, n.exitTs = some exit ∧ hours 1 < now - exit
  | .incident n =>
    n.decision ∉ [some "block_ip", some "kill_process", some "suspend_user_sudo",
      some "block_container"] ∧ days 7 < now - n.ts
  | .campaign n => days 30 < now - n.lastSeen
  | .file _ | .user _ | .domain _ | .port _ | .device _ | .system _ => False

namespace KnowledgeGraph

/-! ## Finding or making a node -/

def isInternalIp (addr : String) : Bool :=
  startsWith addr "10." || startsWith addr "172.16." || startsWith addr "172.17." ||
    startsWith addr "172.18." || startsWith addr "172.19." || startsWith addr "172.2" ||
    startsWith addr "172.30." || startsWith addr "172.31." || startsWith addr "192.168." ||
    addr == "127.0.0.1" || addr == "::1"

def isSensitivePath (path : String) : Bool :=
  ["/etc/passwd", "/etc/shadow", "/etc/sudoers", "/etc/ssh/", "authorized_keys", "/etc/cron",
    "/etc/systemd/", "/usr/lib/systemd/", "/var/spool/cron", ".ssh/id_", ".ssh/config", ".bashrc",
    ".bash_profile", ".profile"].any fun s => contains path s

/-- Fields of a process that were missing, from a later event.  The exit stays. -/
def backfill (ppid : UInt32) (comm : String) (uid : UInt32) : Node → Node
  | .process n =>
    .process
      { n with
        comm := if n.comm.isEmpty && !comm.isEmpty then comm else n.comm
        ppid := if n.ppid = 0 ∧ 0 < ppid then ppid else n.ppid
        uid := if n.uid = 0 ∧ 0 < uid then uid else n.uid }
  | node => node

def ensureProcess (g : KnowledgeGraph) (pid ppid : UInt32) (comm : String) (uid : UInt32)
    (ts : DateTime) : KnowledgeGraph × NodeId :=
  match g.findByPid pid with
  | some id => ({ g with nodes := FiniteMap.adjust id (backfill ppid comm uid) g.nodes }, id)
  | none => g.addNode (.process ⟨pid, ppid, comm, none, uid, none, ts, none⟩)

/-- `last_seen` set, back or forth. -/
def seenAt (ts : DateTime) : Node → Node
  | .ip n => .ip { n with lastSeen := ts }
  | node => node

def ensureIp (g : KnowledgeGraph) (addr : String) (ts : DateTime) : KnowledgeGraph × NodeId :=
  match g.findByIp addr with
  | some id => ({ g with nodes := FiniteMap.adjust id (seenAt ts) g.nodes }, id)
  | none => g.addNode (.ip ⟨addr, isInternalIp addr, [], 0, false, ts, ts, []⟩)

/-- The node that was found, unchanged, or a new one. -/
def findOrAdd (g : KnowledgeGraph) (found : Option NodeId) (node : Node) :
    KnowledgeGraph × NodeId :=
  match found with
  | some id => (g, id)
  | none => g.addNode node

def ensureFile (g : KnowledgeGraph) (path : String) : KnowledgeGraph × NodeId :=
  g.findOrAdd (g.findByPath path) (.file ⟨path, none, none, none, isSensitivePath path, []⟩)

def ensureDomain (g : KnowledgeGraph) (name : String) : KnowledgeGraph × NodeId :=
  g.findOrAdd (g.findByDomain name) (.domain ⟨name, [], none, none⟩)

def ensurePort (g : KnowledgeGraph) (number : UInt16) (protocol : String) :
    KnowledgeGraph × NodeId :=
  g.findOrAdd (g.findByPort number protocol) (.port ⟨number, protocol⟩)

/-- The update of `ingest_process_exit` through `get_node_mut`. -/
def setExitTs (g : KnowledgeGraph) (id : NodeId) (ts : DateTime) : KnowledgeGraph :=
  { g with
    nodes := FiniteMap.adjust id
      (fun
        | .process n => .process { n with exitTs := some ts }
        | node => node)
      g.nodes }

/-- The operations a graph is built by. -/
inductive Build where
  | ensureProcess (pid ppid : UInt32) (comm : String) (uid : UInt32) (ts : DateTime)
  | ensureIp (addr : String) (ts : DateTime)
  | ensureFile (path : String)
  | ensureDomain (name : String)
  | ensurePort (number : UInt16) (protocol : String)
  | addEdge (edge : Edge)
  | upsertNode (node : Node)
  | setExitTs (id : NodeId) (ts : DateTime)

def build (g : KnowledgeGraph) : Build → KnowledgeGraph
  | .ensureProcess pid ppid comm uid ts => (g.ensureProcess pid ppid comm uid ts).1
  | .ensureIp addr ts => (g.ensureIp addr ts).1
  | .ensureFile path => (g.ensureFile path).1
  | .ensureDomain name => (g.ensureDomain name).1
  | .ensurePort number protocol => (g.ensurePort number protocol).1
  | .addEdge edge => (g.addEdge edge).1
  | .upsertNode node => (g.upsertNode node).1
  | .setExitTs id ts => g.setExitTs id ts

def builder (now : DateTime) : StateMachine KnowledgeGraph Build Unit where
  init := new now
  step g op := (g.build op, ())

variable {g : KnowledgeGraph} {n id : NodeId} {node : Node} {now : DateTime}

theorem Adjacency.addNode (h : g.Adjacency) (node : Node) : (g.addNode node).1.Adjacency :=
  addNode_induction h fun _ => ⟨h.outgoing, h.incoming⟩

theorem Adjacency.findOrAdd (h : g.Adjacency) (found : Option NodeId) (node : Node) :
    (g.findOrAdd found node).1.Adjacency := by
  cases found with
  | some id => exact h
  | none => exact h.addNode node

theorem Adjacency.build (h : g.Adjacency) (op : Build) : (g.build op).Adjacency := by
  cases op with
  | ensureProcess pid ppid comm uid ts =>
    simp only [KnowledgeGraph.build, KnowledgeGraph.ensureProcess]
    split
    · exact ⟨h.outgoing, h.incoming⟩
    · exact h.addNode _
  | ensureIp addr ts =>
    simp only [KnowledgeGraph.build, KnowledgeGraph.ensureIp]
    split
    · exact ⟨h.outgoing, h.incoming⟩
    · exact h.addNode _
  | ensureFile path | ensureDomain name | ensurePort number protocol => exact h.findOrAdd _ _
  | addEdge edge => exact h.pushEdge _
  | upsertNode node =>
    simp only [KnowledgeGraph.build, KnowledgeGraph.upsertNode]
    split
    · exact ⟨h.outgoing, h.incoming⟩
    · exact h.addNode _
  | setExitTs id ts => exact ⟨h.outgoing, h.incoming⟩

theorem adjacency_builder (start : DateTime) (ops : List Build) :
    ((builder start).exec (new start) ops).Adjacency :=
  StateMachine.exec_invariant (fun _ op h => h.build op) ops (tracked_new start).adjacency

/-! ## Expiry -/

/-- A live edge of the node has an instant in the last hour. -/
def RecentEdge (g : KnowledgeGraph) (now : DateTime) (n : NodeId) : Prop :=
  ∃ i e, g.live i = true ∧ g.edges[i]? = some e ∧ touches n e = true ∧
    now - hours 1 ≤ e.ts ∧ e.ts ≤ now

theorem Adjacency.mem_allEdges (h : g.Adjacency) {i : Nat} {e : Edge} (hlive : g.live i = true)
    (he : g.edges[i]? = some e) (htouch : touches n e = true) : e ∈ g.allEdges n := by
  have hlisted : i ∈ adjacent g.outgoing n ∨ i ∈ adjacent g.incoming n := by
    simp only [touches, Bool.or_eq_true, decide_eq_true_eq] at htouch
    rw [h.outgoing, h.incoming]
    exact htouch.imp (fun hend => ⟨hlive, e, he, hend⟩) fun hend => ⟨hlive, e, he, hend⟩
  rw [allEdges, mem_mergeSort, mem_filterMap]
  exact ⟨i, mem_eraseDups.mpr (mem_append.mpr hlisted), he⟩

theorem le_getLast_allEdges {e last : Edge} (he : e ∈ g.allEdges n)
    (hlast : (g.allEdges n).getLast? = some last) : e.ts ≤ last.ts := by
  have hsorted : (g.allEdges n).Pairwise fun e f => e.ts ≤ f.ts := pairwise_mergeSort_ts Edge.ts _
  obtain ⟨init, hinit⟩ := getLast?_eq_some_iff.mp hlast
  rw [hinit] at he hsorted
  rcases mem_append.mp he with he | he
  · exact (pairwise_append.mp hsorted).2.2 e he last (mem_singleton_self last)
  · rw [mem_singleton.mp he]

theorem not_day_lt_of_hour_le {now t last : Int} (hfrom : now - hours 1 ≤ t) (hle : t ≤ last) :
    ¬ hours 24 < now - last := by
  simp only [hours, seconds] at hfrom ⊢
  omega

theorem Adjacency.lastEdgeOlder_of_recent (h : g.Adjacency) (hrecent : g.RecentEdge now n)
    (default : Bool) : g.lastEdgeOlder n now default = false := by
  obtain ⟨i, e, hlive, he, htouch, hfrom, -⟩ := hrecent
  have hmem := h.mem_allEdges hlive he htouch
  cases hlast : (g.allEdges n).getLast? with
  | none =>
    rw [getLast?_eq_none_iff.mp hlast] at hmem
    cases hmem
  | some last =>
    have hle := le_getLast_allEdges hmem hlast
    rw [lastEdgeOlder, hlast, decide_eq_false_iff_not]
    exact not_day_lt_of_hour_le hfrom hle

/-- A node with a recent edge expires by its own instant only. -/
theorem Adjacency.isExpired_iff_of_recent (h : g.Adjacency) (hrecent : g.RecentEdge now n) :
    g.isExpired node n now = true ↔ node.Lapsed now := by
  have hedge := h.lastEdgeOlder_of_recent hrecent
  cases node with
  | process p =>
    cases hexit : p.exitTs with
    | none => simp [isExpired, Node.Lapsed, hexit, hedge]
    | some exit => simp [isExpired, Node.Lapsed, hexit]
  | ip p =>
    have hrisk : 0 < p.riskScore ↔ p.riskScore ≠ 0 := UInt8.pos_iff_ne_zero
    simp [isExpired, Node.Lapsed, hrisk, and_assoc]
  | container c =>
    cases hexit : c.exitTs with
    | none | some exit => simp [isExpired, Node.Lapsed, hexit]
  | incident i | campaign c | user u | device d | system s => simp [isExpired, Node.Lapsed]
  | file f | domain d | port p => simp [isExpired, Node.Lapsed, hedge]

/-! ## The nodes that are left -/

theorem mem_cleanupExpired {order : List NodeId} (horder : g.Enumerates order) :
    n ∈ (g.cleanupExpired now order).nodes ↔
      ∃ node, g.nodes.lookup n = some node ∧ g.isExpired node n now = false := by
  rw [cleanupExpired, mem_foldl_removeNode, mem_filter, horder.mem]
  cases hnode : g.nodes.lookup n with
  | none => simp [lookup_eq_none.mp hnode]
  | some node => simp [mem_of_lookup_eq_some hnode]

/-- A cleanup leaves every node that has a live edge of the last hour exactly if the instants
of these nodes themselves have not lapsed. -/
theorem cleanupExpired_spares_iff (start now : DateTime) (ops : List Build) :
    let g := (builder start).exec (new start) ops
    (∀ order, g.Enumerates order → ∀ n ∈ g.nodes, g.RecentEdge now n →
        n ∈ (g.cleanupExpired now order).nodes) ↔
      ∀ n node, g.nodes.lookup n = some node → g.RecentEdge now n → ¬ node.Lapsed now := by
  intro g
  have h : g.Adjacency := adjacency_builder start ops
  constructor
  · intro hspares n node hnode hrecent
    -- Which order the map has does not matter here, but it has one.
    obtain ⟨order, horder⟩ := g.exists_enumerates
    have hleft := hspares order horder n (mem_of_lookup_eq_some hnode) hrecent
    obtain ⟨node', hnode', hfalse⟩ := (mem_cleanupExpired horder).mp hleft
    obtain rfl : node = node' := Option.some.inj (hnode.symm.trans hnode')
    rw [← h.isExpired_iff_of_recent hrecent, hfalse]
    exact Bool.false_ne_true
  · intro hfresh order horder n hn hrecent
    obtain ⟨node, hnode⟩ := mem_iff.mp hn
    refine (mem_cleanupExpired horder).mpr ⟨node, hnode, Bool.eq_false_iff.mpr fun htrue => ?_⟩
    exact hfresh n node hnode hrecent ((h.isExpired_iff_of_recent hrecent).mp htrue)

/-- A process exits, its pid is used again three hours later, and the new process opens a file.
The node still has the exit of the first process and is removed on the spot. -/
theorem reused_pid_expires :
    let g := (builder 0).exec (new 0)
      [.ensureProcess 100 1 "sh" 0 0, .setExitTs 1 0, .ensureProcess 100 1 "nc" 0 (hours 3),
       .ensureFile "/tmp/x", .addEdge ⟨1, 2, .read, hours 3, ∅⟩]
    1 ∈ g.nodes ∧ g.RecentEdge (hours 3) 1 ∧
      1 ∉ (g.cleanupExpired (hours 3) [1, 2]).nodes := by
  refine ⟨by decide +kernel, ⟨0, ⟨1, 2, .read, hours 3, ∅⟩, ?_⟩, by decide +kernel⟩
  exact ⟨by decide +kernel, rfl, by decide, by decide, by decide⟩

end KnowledgeGraph

end Innerwarden

import Innerwarden.Knowledge.Nodes
import Innerwarden.Lib.StateMachine

/-!
# The knowledge graph

`agent/src/knowledge_graph/graph.rs`.  Nodes stand in a map and edges in a vector.  Around them
are kept an index from keys to nodes (the eleven dedup indexes of the source as one), the
positions of the edges that leave and that reach each node, the instant of the last edge of each
node, the IPs in a threat intelligence dataset, and an estimate of the memory used.

Removing a node takes the positions of its edges out of the lists, which makes them
*tombstones*.  Compaction drops these and renumbers the positions.

The hash maps are finite maps; where the source iterates over one, the order is an argument.
The ratio that gates `compact_edges` is in single precision, so the test is a parameter.  The
counters are natural numbers.  The triggers at the end of `add_edge` write `trigger_incidents`
only and are left out.
-/

namespace Innerwarden

/-- The graph with its index, its adjacency lists and its estimate. -/
structure KnowledgeGraph where
  nodes : FiniteMap NodeId Node
  edges : List Edge
  index : FiniteMap NodeKey NodeId
  outgoing : FiniteMap NodeId (List Nat)
  incoming : FiniteMap NodeId (List Nat)
  lastEdgeTs : FiniteMap NodeId DateTime
  threatIntelNodes : Finset NodeId
  nextId : NodeId
  memoryEstimate : Nat
  tombstonedEdges : Nat
  maxMemory : Nat
  createdAt : DateTime
  sourceCounts : FiniteMap String Nat
  kindCounts : FiniteMap String Nat
  eventTimeline : FiniteMap String (FiniteMap String Nat)
  totalEventsIngested : Nat
  currentEventSource : Option String
  currentEventKind : Option String
  currentEventSummary : Option String
  currentEventSeverity : Option String

namespace KnowledgeGraph

/-- `KnowledgeGraph::new`, `now` being `Utc::now()`. -/
def new (now : DateTime) : KnowledgeGraph where
  nodes := ∅
  edges := []
  index := ∅
  outgoing := ∅
  incoming := ∅
  lastEdgeTs := ∅
  threatIntelNodes := ∅
  nextId := 1
  memoryEstimate := 0
  tombstonedEdges := 0
  maxMemory := 50 * 1024 * 1024
  createdAt := now
  sourceCounts := ∅
  kindCounts := ∅
  eventTimeline := ∅
  totalEventsIngested := 0
  currentEventSource := none
  currentEventKind := none
  currentEventSummary := none
  currentEventSeverity := none

/-! ## Nodes -/

def findExisting (g : KnowledgeGraph) (node : Node) : Option NodeId := g.index.lookup node.key

def indexNode (g : KnowledgeGraph) (id : NodeId) (node : Node) : KnowledgeGraph :=
  { g with
    index := g.index.insert node.key id
    threatIntelNodes :=
      if node.hasDatasets then insert id g.threatIntelNodes else g.threatIntelNodes }

/-- The system node is taken out of the index only under its own id. -/
def deindexNode (g : KnowledgeGraph) (id : NodeId) (node : Node) : KnowledgeGraph :=
  match node with
  | .system _ =>
    if g.index.lookup .system = some id then { g with index := g.index.erase .system } else g
  | node => { g with index := g.index.erase node.key }

def addNode (g : KnowledgeGraph) (node : Node) : KnowledgeGraph × NodeId :=
  match g.findExisting node with
  | some existing => (g, existing)
  | none =>
    let id := g.nextId
    let g := { g with nextId := g.nextId + 1 }.indexNode id node
    ({ g with
       memoryEstimate := g.memoryEstimate + estimateNodeSize node
       nodes := g.nodes.insert id node },
      id)

def upsertNode (g : KnowledgeGraph) (node : Node) : KnowledgeGraph × NodeId :=
  match g.findExisting node with
  | some existing =>
    ({ g with
       nodes := FiniteMap.adjust existing (fun old => mergeNode old node) g.nodes
       threatIntelNodes :=
         if node.hasDatasets then insert existing g.threatIntelNodes
         else g.threatIntelNodes },
      existing)
  | none => g.addNode node

/-! ## Adjacency -/

/-- The positions under a node, none if there is no entry. -/
def adjacent (m : FiniteMap NodeId (List Nat)) (id : NodeId) : List Nat := (m.lookup id).getD []

/-- `entry(id).or_default().push(idx)`. -/
def pushAdjacent (m : FiniteMap NodeId (List Nat)) (id : NodeId) (idx : Nat) :
    FiniteMap NodeId (List Nat) :=
  m.insert id (adjacent m id ++ [idx])

/-- `retain(|&i| i != idx)` on the list of a node. -/
def dropAdjacent (m : FiniteMap NodeId (List Nat)) (id : NodeId) (idx : Nat) :
    FiniteMap NodeId (List Nat) :=
  FiniteMap.adjust id (fun idxs => idxs.filter (· ≠ idx)) m

def outgoingEdges (g : KnowledgeGraph) (id : NodeId) : List Edge :=
  (adjacent g.outgoing id).filterMap fun i => g.edges[i]?

def incomingEdges (g : KnowledgeGraph) (id : NodeId) : List Edge :=
  (adjacent g.incoming id).filterMap fun i => g.edges[i]?

/-- All edges of a node, by instant. -/
def allEdges (g : KnowledgeGraph) (id : NodeId) : List Edge :=
  let idxs := (adjacent g.outgoing id ++ adjacent g.incoming id).eraseDups
  (idxs.filterMap fun i => g.edges[i]?).mergeSort fun e f => e.ts ≤ f.ts

/-- The end of an edge of the node that is not the node. -/
def otherEnd (id : NodeId) (edge : Edge) : NodeId :=
  if edge.fromId = id then edge.toId else edge.fromId

def dropEdge (edges : List Edge) (id : NodeId) (m : FiniteMap NodeId (List Nat)) (idx : Nat) :
    FiniteMap NodeId (List Nat) :=
  match edges[idx]? with
  | some edge => dropAdjacent m (otherEnd id edge) idx
  | none => m

def detachEdge (id : NodeId) (g : KnowledgeGraph) (idx : Nat) : KnowledgeGraph :=
  { g with
    outgoing := dropEdge g.edges id g.outgoing idx
    incoming := dropEdge g.edges id g.incoming idx
    tombstonedEdges := g.tombstonedEdges + 1 }

/-- The positions of the edges of a node, sorted, each once. -/
def incidentIdxs (g : KnowledgeGraph) (id : NodeId) : List Nat :=
  ((adjacent g.outgoing id ++ adjacent g.incoming id).mergeSort (· ≤ ·)).dedup

/-- The entries of a node erased, the edges still in the lists of their other ends. -/
def eraseNode (g : KnowledgeGraph) (id : NodeId) (node : Node) : KnowledgeGraph :=
  let g :=
    { g with
      nodes := g.nodes.erase id
      memoryEstimate := g.memoryEstimate - estimateNodeSize node }.deindexNode id node
  { g with
    threatIntelNodes := g.threatIntelNodes.erase id
    lastEdgeTs := g.lastEdgeTs.erase id
    outgoing := g.outgoing.erase id
    incoming := g.incoming.erase id }

def removeNode (g : KnowledgeGraph) (id : NodeId) : KnowledgeGraph :=
  match g.nodes.lookup id with
  | some node => (g.incidentIdxs id).foldl (detachEdge id) (g.eraseNode id node)
  | none => g

/-! ## Edges -/

/-- The edge with the metadata of the event that is being ingested. -/
def enrich (g : KnowledgeGraph) (edge : Edge) : Edge :=
  let edge := g.currentEventSource.elim edge fun src => edge.setMissing "event_source" (.str src)
  let edge := g.currentEventKind.elim edge fun kind => edge.setMissing "event_kind" (.str kind)
  let edge := g.currentEventSummary.elim edge fun summary =>
    if summary = "" then edge
    else edge.setMissing "summary" (.str (safeTruncate summary 200))
  g.currentEventSeverity.elim edge fun sev => edge.setMissing "severity" (.str sev)

/-- The instant of the last edge of a node, moved forward to `ts`. -/
def touch (m : FiniteMap NodeId DateTime) (id : NodeId) (ts : DateTime) :
    FiniteMap NodeId DateTime :=
  m.insert id ((m.lookup id).elim ts fun t => if t < ts then ts else t)

/-- The edge at the end of the vector, in the lists and in the instants. -/
def pushEdge (g : KnowledgeGraph) (edge : Edge) : KnowledgeGraph :=
  let idx := g.edges.length
  let touched := touch g.lastEdgeTs edge.fromId edge.ts
  { g with
    outgoing := pushAdjacent g.outgoing edge.fromId idx
    incoming := pushAdjacent g.incoming edge.toId idx
    memoryEstimate := g.memoryEstimate + estimateEdgeSize edge
    lastEdgeTs :=
      if edge.toId ≠ edge.fromId then touch touched edge.toId edge.ts else touched
    edges := g.edges ++ [edge] }

def addEdge (g : KnowledgeGraph) (edge : Edge) : KnowledgeGraph × Nat :=
  (g.pushEdge (g.enrich edge), g.edges.length)

/-! ## Compaction -/

def live (g : KnowledgeGraph) (idx : Nat) : Bool :=
  FiniteMap.anyValue (fun idxs => decide (idx ∈ idxs)) g.outgoing

/-- The state of the loop over the edges. -/
structure Compaction where
  newEdges : List Edge
  oldToNew : FiniteMap Nat Nat
  memoryEstimate : Nat

def Compaction.visit (live : Nat → Bool) (c : Compaction) (old : Edge × Nat) : Compaction :=
  if live old.2 then
    { c with
      newEdges := c.newEdges ++ [old.1]
      oldToNew := c.oldToNew.insert old.2 c.newEdges.length }
  else { c with memoryEstimate := c.memoryEstimate - estimateEdgeSize old.1 }

def compaction (g : KnowledgeGraph) : Compaction :=
  g.edges.zipIdx.foldl (Compaction.visit g.live) ⟨[], ∅, g.memoryEstimate⟩

/-- The body both compactions share. -/
def compact (g : KnowledgeGraph) : KnowledgeGraph :=
  let c := g.compaction
  { g with
    memoryEstimate := c.memoryEstimate
    outgoing :=
      FiniteMap.mapValues (fun idxs => idxs.filterMap fun i => c.oldToNew.lookup i) g.outgoing
    incoming :=
      FiniteMap.mapValues (fun idxs => idxs.filterMap fun i => c.oldToNew.lookup i) g.incoming
    edges := c.newEdges
    tombstonedEdges := 0 }

/-- `belowRatio` is the test of the ratio of tombstones against a fifth. -/
def compactEdges (belowRatio : Nat → Nat → Bool) (g : KnowledgeGraph) : KnowledgeGraph :=
  if g.edges.isEmpty || g.tombstonedEdges = 0 then g
  else if belowRatio g.tombstonedEdges g.edges.length then g
  else g.compact

def compactEdgesForce (g : KnowledgeGraph) : KnowledgeGraph :=
  if g.edges.isEmpty || g.tombstonedEdges = 0 then g else g.compact

/-! ## Expiry and eviction -/

def lastEdgeOlder (g : KnowledgeGraph) (id : NodeId) (now : DateTime) (default : Bool) : Bool :=
  match (g.allEdges id).getLast? with
  | some e => hours 24 < now - e.ts
  | none => default

/-- By kind and age. -/
def isExpired (g : KnowledgeGraph) (node : Node) (id : NodeId) (now : DateTime) : Bool :=
  match node with
  | .process n =>
    match n.exitTs with
    | some exit => hours 1 < now - exit
    | none => g.lastEdgeOlder id now (hours 24 < now - g.createdAt)
  | .ip n =>
    if !n.datasets.isEmpty || 0 < n.riskScore then false else hours 24 < now - n.lastSeen
  | .file n => if n.isSensitive then false else g.lastEdgeOlder id now false
  | .user _ => false
  | .device _ => false
  | .system _ => false
  | .domain n => if !n.datasets.isEmpty then false else g.lastEdgeOlder id now false
  | .port _ => g.lastEdgeOlder id now false
  | .container n => n.exitTs.elim false fun exit => hours 1 < now - exit
  | .incident n =>
    if n.decision ∈ [some "block_ip", some "kill_process", some "suspend_user_sudo",
        some "block_container"] then false
    else days 7 < now - n.ts
  | .campaign n => days 30 < now - n.lastSeen

/-- `order` lists the ids of the nodes as the map is iterated. -/
def cleanupExpired (g : KnowledgeGraph) (now : DateTime) (order : List NodeId) : KnowledgeGraph :=
  let expired := order.filter fun id =>
    (g.nodes.lookup id).any fun node => g.isExpired node id now
  expired.foldl removeNode g

def evict (g : KnowledgeGraph) : List (NodeId × DateTime) → KnowledgeGraph
  | [] => g
  | (id, _) :: candidates =>
    if g.memoryEstimate ≤ g.maxMemory then g else evict (g.removeNode id) candidates

def enforceMemoryLimit (g : KnowledgeGraph) (order : List NodeId) : KnowledgeGraph :=
  if g.memoryEstimate ≤ g.maxMemory then g
  else
    let ids := order.filter fun id => (g.nodes.lookup id).any fun node => !node.isSystem
    let candidates := ids.map fun id => (id, (g.lastEdgeTs.lookup id).getD g.createdAt)
    g.evict (candidates.mergeSort fun a b => a.2 ≤ b.2)

/-! ## Lookups -/

def findByPid (g : KnowledgeGraph) (pid : UInt32) : Option NodeId := g.index.lookup (.process pid)

def findByIp (g : KnowledgeGraph) (addr : String) : Option NodeId := g.index.lookup (.ip addr)

def findByPath (g : KnowledgeGraph) (path : String) : Option NodeId := g.index.lookup (.file path)

def findByUser (g : KnowledgeGraph) (name : String) : Option NodeId := g.index.lookup (.user name)

def findByDomain (g : KnowledgeGraph) (name : String) : Option NodeId :=
  g.index.lookup (.domain name)

def findByPort (g : KnowledgeGraph) (number : UInt16) (protocol : String) : Option NodeId :=
  g.index.lookup (.port number protocol)

def findByContainer (g : KnowledgeGraph) (id : String) : Option NodeId :=
  g.index.lookup (.container id)

def findByIncident (g : KnowledgeGraph) (incidentId : String) : Option NodeId :=
  g.index.lookup (.incident incidentId)

def findByCampaign (g : KnowledgeGraph) (campaignId : String) : Option NodeId :=
  g.index.lookup (.campaign campaignId)

/-! ## Runs -/

/-- The operations that change the graph. -/
inductive Op where
  | addNode (node : Node)
  | upsertNode (node : Node)
  | addEdge (edge : Edge)
  | removeNode (id : NodeId)
  | compactEdges
  | compactEdgesForce
  | cleanupExpired (now : DateTime) (order : List NodeId)
  | enforceMemoryLimit (order : List NodeId)
  /-- `ingest` sets the metadata of its event and clears it. -/
  | setCurrentEvent (source kind summary severity : Option String)

def step (belowRatio : Nat → Nat → Bool) (g : KnowledgeGraph) : Op → KnowledgeGraph
  | .addNode node => (g.addNode node).1
  | .upsertNode node => (g.upsertNode node).1
  | .addEdge edge => (g.addEdge edge).1
  | .removeNode id => g.removeNode id
  | .compactEdges => g.compactEdges belowRatio
  | .compactEdgesForce => g.compactEdgesForce
  | .cleanupExpired now order => g.cleanupExpired now order
  | .enforceMemoryLimit order => g.enforceMemoryLimit order
  | .setCurrentEvent source kind summary severity =>
    { g with
      currentEventSource := source
      currentEventKind := kind
      currentEventSummary := summary
      currentEventSeverity := severity }

def machine (belowRatio : Nat → Nat → Bool) (now : DateTime) :
    StateMachine KnowledgeGraph Op Unit where
  init := new now
  step g op := (g.step belowRatio op, ())

/-- Edges are added between nodes that are there. -/
def EndsPresent (g : KnowledgeGraph) : Op → Prop
  | .addEdge edge => edge.fromId ∈ g.nodes ∧ edge.toId ∈ g.nodes
  | _ => True

instance (g : KnowledgeGraph) (op : Op) : Decidable (g.EndsPresent op) :=
  match op with
  | .addEdge _ => inferInstanceAs (Decidable (_ ∧ _))
  | .addNode _ | .upsertNode _ | .removeNode _ | .compactEdges | .compactEdgesForce
  | .cleanupExpired _ _ | .enforceMemoryLimit _ | .setCurrentEvent _ _ _ _ =>
    inferInstanceAs (Decidable True)

/-- Two users, an edge between them and a loop, and the second user removed. -/
def sampleRun : List Op :=
  [.addNode (.user ⟨"root", none⟩), .addNode (.user ⟨"www", none⟩),
   .addEdge ⟨1, 2, .runAs, 0, ∅⟩, .addEdge ⟨1, 1, .runAs, 0, ∅⟩, .removeNode 2]

end KnowledgeGraph

end Innerwarden

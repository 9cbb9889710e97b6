import Innerwarden.Lib.FiniteMap
import Innerwarden.Lib.Json
import Innerwarden.Time

/-!
# Nodes and edges of the knowledge graph

`agent/src/knowledge_graph/types.rs` and the functions of `graph.rs` that look at one node or
edge only.  Each of the eleven kinds of nodes has a *key* under which it is deduplicated.

`mergeNode` takes data of an incoming node into one that is there.  It keeps the key and the
kind, and an IP has datasets afterwards exactly if one of the two had.
-/

namespace Innerwarden

/-! ## Nodes -/

abbrev NodeId := Nat

/-- A process. -/
structure ProcessNode where
  pid : UInt32
  ppid : UInt32
  comm : String
  exe : Option String
  uid : UInt32
  containerId : Option String
  startTs : DateTime
  exitTs : Option DateTime

/-- An address. -/
structure IpNode where
  addr : String
  isInternal : Bool
  datasets : List String
  riskScore : UInt8
  isTor : Bool
  firstSeen : DateTime
  lastSeen : DateTime
  attemptedUsernames : List String

/-- A file. -/
structure FileNode where
  path : String
  sha256 : Option String
  size : Option UInt64
  entropy : Option Float32
  isSensitive : Bool
  yaraMatches : List String

/-- A user. -/
structure UserNode where
  name : String
  uid : Option UInt32

/-- A domain. -/
structure DomainNode where
  name : String
  datasets : List String
  isDga : Option Bool
  entropy : Option Float32

/-- A port. -/
structure PortNode where
  number : UInt16
  protocol : String

/-- A container. -/
structure ContainerNode where
  containerId : String
  name : Option String
  image : Option String
  startTs : Option DateTime
  exitTs : Option DateTime
  oomKilled : Bool

/-- A USB device. -/
structure DeviceNode where
  vendor : String
  product : String
  serial : Option String
  devClass : Option String

/-- The host. -/
structure SystemNode where
  hostname : String
  sysctlParams : FiniteMap String String

/-- An incident. -/
structure IncidentNode where
  incidentId : String
  detector : String
  severity : String
  title : String
  summary : String
  ts : DateTime
  mitreIds : List String
  decision : Option String
  confidence : Option Float32
  decisionReason : Option String
  decisionTarget : Option String
  autoExecuted : Bool
  isAllowlisted : Bool
  falsePositive : Bool
  fpReporter : Option String
  fpReportedAt : Option DateTime
  researchOnly : Bool

/-- A campaign. -/
structure CampaignNode where
  campaignId : String
  dnaHash : Option String
  patternClass : String
  firstSeen : DateTime
  lastSeen : DateTime
  ipCount : UInt32

/-- A node of the graph. -/
inductive Node where
  | process (n : ProcessNode)
  | ip (n : IpNode)
  | file (n : FileNode)
  | user (n : UserNode)
  | domain (n : DomainNode)
  | port (n : PortNode)
  | container (n : ContainerNode)
  | device (n : DeviceNode)
  | system (n : SystemNode)
  | incident (n : IncidentNode)
  | campaign (n : CampaignNode)

/-! ## Keys -/

/-- What the nodes of each kind are deduplicated by. -/
inductive NodeKey where
  | process (pid : UInt32)
  | ip (addr : String)
  | file (path : String)
  | user (name : String)
  | domain (name : String)
  | port (number : UInt16) (protocol : String)
  | container (containerId : String)
  | device (key : String)
  | system
  | incident (incidentId : String)
  | campaign (campaignId : String)
deriving DecidableEq

/-- The key of a device, `vendor:product:serial`. -/
def deviceKey (vendor product : String) (serial : Option String) : String :=
  vendor ++ ":" ++ product ++ ":" ++ serial.getD ""

namespace Node

/-- What a node is found by. -/
def key : Node → NodeKey
  | process n => .process n.pid
  | ip n => .ip n.addr
  | file n => .file n.path
  | user n => .user n.name
  | domain n => .domain n.name
  | port n => .port n.number n.protocol
  | container n => .container n.containerId
  | device n => .device (deviceKey n.vendor n.product n.serial)
  | system _ => .system
  | incident n => .incident n.incidentId
  | campaign n => .campaign n.campaignId

def hasDatasets : Node → Bool
  | ip n => !n.datasets.isEmpty
  | _ => false

def isSystem : Node → Bool
  | system _ => true
  | _ => false

end Node

def estimateNodeSize : Node → Nat
  | .process _ => 250
  | .ip _ => 200
  | .file _ => 200
  | .user _ => 100
  | .domain _ => 150
  | .port _ => 50
  | .container _ => 200
  | .device _ => 150
  | .system _ => 500
  | .incident _ => 300
  | .campaign _ => 200

/-! ## Merging -/

/-- The items of `new` that are not there yet, each pushed in turn. -/
def pushMissing (old new : List String) : List String :=
  new.foldl (fun acc d => if d ∈ acc then acc else acc ++ [d]) old

/-- What a node learns from one with its key. -/
def mergeNode : Node → Node → Node
  | .process old, .process new =>
    .process
      { old with
        exe := old.exe.or new.exe
        exitTs := old.exitTs.or new.exitTs
        containerId := old.containerId.or new.containerId }
  | .ip old, .ip new =>
    .ip
      { old with
        lastSeen := if old.lastSeen < new.lastSeen then new.lastSeen else old.lastSeen
        datasets := pushMissing old.datasets new.datasets
        riskScore := if old.riskScore < new.riskScore then new.riskScore else old.riskScore
        isTor := new.isTor || old.isTor }
  | .file old, .file new =>
    .file
      { old with
        sha256 := old.sha256.or new.sha256
        size := old.size.or new.size
        entropy := old.entropy.or new.entropy
        yaraMatches := pushMissing old.yaraMatches new.yaraMatches }
  | .container old, .container new =>
    .container
      { old with
        name := old.name.or new.name
        image := old.image.or new.image
        startTs := old.startTs.or new.startTs
        exitTs := old.exitTs.or new.exitTs
        oomKilled := new.oomKilled || old.oomKilled }
  | .domain old, .domain new =>
    .domain
      { old with
        datasets := pushMissing old.datasets new.datasets
        isDga := old.isDga.or new.isDga
        entropy := old.entropy.or new.entropy }
  | old, _ => old

theorem key_mergeNode (old new : Node) : (mergeNode old new).key = old.key := by
  cases old <;> cases new <;> rfl

theorem estimateNodeSize_mergeNode (old new : Node) :
    estimateNodeSize (mergeNode old new) = estimateNodeSize old := by
  cases old <;> cases new <;> rfl

/-- Pushing leaves a list empty only if there was nothing on either side. -/
theorem isEmpty_pushMissing (old new : List String) :
    (pushMissing old new).isEmpty = (old.isEmpty && new.isEmpty) := by
  induction new generalizing old with
  | nil => simp [pushMissing]
  | cons d new ih =>
    have hstep : pushMissing old (d :: new) =
        pushMissing (if d ∈ old then old else old ++ [d]) new := rfl
    have hne : (if d ∈ old then old else old ++ [d]).isEmpty = false := by
      split
      case isTrue h => simpa using List.ne_nil_of_mem h
      case isFalse => simp
    rw [hstep, ih, hne, List.isEmpty_cons, Bool.and_false, Bool.false_and]

theorem hasDatasets_mergeNode {old new : Node} (hkey : new.key = old.key) :
    (mergeNode old new).hasDatasets = (old.hasDatasets || new.hasDatasets) := by
  cases old with
  | ip old =>
    cases new with
    | ip new => simp [mergeNode, Node.hasDatasets, isEmpty_pushMissing, Bool.not_and]
    | _ => cases hkey
  | _ => cases new <;> first | rfl | cases hkey

/-! ## Edges -/

/-- What an edge stands for. -/
inductive Relation where
  | spawnedBy | ptraceAttached | signaled | connectedTo | acceptedFrom | listensOn | wrote | read
  | executed | deleted | renamed | truncated | timestomped | mounted | resolved | runAs
  | escalatedTo | sudoAs | inContainer | createdMemfd | redirectedFd | mprotectExec | loggedInFrom
  | scannedPort | httpRequestTo | hostedAt | downloadedFrom | integrityChanged | insertedOn
  | removedFrom | loadedModule | loadedBpf | wroteMsr | calledEfi | changedIoperm | changedIopl
  | evalAcpi | timingAnomaly | changedSysctl | syscallTableModified | execBlocked | ioUringSubmit
  | ioUringCreate | startedOn | diedOn | oomKilled | snapshotConnectedTo | snapshotListensOn
  | triggeredBy | correlatedWith | escalatedFrom | memberOf | blockedBy
deriving DecidableEq

/-- An edge between two nodes. -/
structure Edge where
  fromId : NodeId
  toId : NodeId
  relation : Relation
  ts : DateTime
  properties : FiniteMap String Json

def estimateEdgeSize (e : Edge) : Nat := 120 + e.properties.keys.card * 40

def Edge.setMissing (e : Edge) (key : String) (value : Json) : Edge :=
  if key ∈ e.properties then e else { e with properties := e.properties.insert key value }

theorem Edge.fromId_setMissing (e : Edge) (key : String) (value : Json) :
    (e.setMissing key value).fromId = e.fromId := by
  rw [setMissing]
  split <;> rfl

theorem Edge.toId_setMissing (e : Edge) (key : String) (value : Json) :
    (e.setMissing key value).toId = e.toId := by
  rw [setMissing]
  split <;> rfl

/-- The longest list of leading characters that fits in `n` bytes. -/
def takeBytes : Nat → List Char → List Char
  | _, [] => []
  | n, c :: cs => if c.utf8Size ≤ n then c :: takeBytes (n - c.utf8Size) cs else []

def safeTruncate (s : String) (max : Nat) : String :=
  if s.utf8ByteSize ≤ max then s else String.ofList (takeBytes max s.toList)

end Innerwarden

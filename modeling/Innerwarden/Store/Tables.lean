import Innerwarden.Time
import Innerwarden.Store.Decisions

/-!
# The store

The tables of `crates/store/src/schema.rs` that the modelled functions read or
write.  Rows keep the order of their ids.
-/

namespace Innerwarden

/-- A row of `events`. -/
structure EventRow where
  id : Int
  ts : String
  data : String

/-- A row of `incidents`. -/
structure IncidentRow where
  id : Int
  ts : String
  host : String
  incidentId : String
  severity : String
  detector : String
  title : String
  summary : Option String
  data : String
  isAllowlisted : Int
deriving DecidableEq

/-- A row of `graph_snapshots`. -/
structure GraphSnapshotRow where
  id : Int
  date : String
  snapshot : List UInt8
  nodesCount : Int
  edgesCount : Int
  createdAt : String

/-- A row of `state_blobs`. -/
structure StateBlobRow where
  name : String
  data : String
  updatedAt : String

/-- The content of the database. -/
structure Store where
  events : List EventRow
  incidents : List IncidentRow
  decisions : Decisions
  graphSnapshots : List GraphSnapshotRow
  stateBlobs : List StateBlobRow
  chainBreakAudit : ChainBreakAudit

def Store.empty : Store := ⟨[], [], .empty, [], [], .empty⟩

/-- `DELETE FROM decisions WHERE ts < cutoff`, with the number of rows deleted. -/
def Decisions.deleteBefore (t : Decisions) (cutoff : String) : Decisions × Nat :=
  (⟨t.rows.filter fun r => !decide (r.ts < cutoff), t.sorted.filter _⟩,
   t.rows.countP fun r => decide (r.ts < cutoff))

def Store.deleteEventsBefore (s : Store) (beforeTs : String) : Store × Nat :=
  ({ s with events := s.events.filter fun e => !decide (e.ts < beforeTs) },
   s.events.countP fun e => decide (e.ts < beforeTs))

def Store.deleteIncidentsBefore (s : Store) (beforeTs : String) : Store × Nat :=
  ({ s with incidents := s.incidents.filter fun i => !decide (i.ts < beforeTs) },
   s.incidents.countP fun i => decide (i.ts < beforeTs))

def Store.deleteGraphSnapshotsBefore (s : Store) (beforeDate : String) : Store × Nat :=
  ({ s with graphSnapshots := s.graphSnapshots.filter fun g => !decide (g.date < beforeDate) },
   s.graphSnapshots.countP fun g => decide (g.date < beforeDate))

end Innerwarden

import Innerwarden.Lib.Json
import Innerwarden.Store.Tables

/-!
# Incidents

The incident of `crates/core/src/incident.rs` and its insertion by
`crates/store/src/incidents.rs`.  The column `incident_id` is unique, and an
incident whose id is there already is ignored.
-/

namespace Innerwarden

open Text

/-- How severe an incident is. -/
inductive Severity where
  | debug
  | info
  | low
  | medium
  | high
  | critical
deriving DecidableEq

/-- The text of a severity, in serde and in the column. -/
def Severity.text : Severity → String
  | .debug => "debug"
  | .info => "info"
  | .low => "low"
  | .medium => "medium"
  | .high => "high"
  | .critical => "critical"

/-- What an entity is. -/
inductive EntityType where
  | ip
  | user
  | container
  | path
  | service
deriving DecidableEq

def EntityType.tag : EntityType → String
  | .ip => "ip"
  | .user => "user"
  | .container => "container"
  | .path => "path"
  | .service => "service"

/-- Something an incident is about. -/
structure EntityRef where
  type : EntityType
  value : String
deriving DecidableEq

/-- An incident. -/
structure Incident where
  ts : DateTime
  host : String
  incidentId : String
  severity : Severity
  title : String
  summary : String
  evidence : Json
  recommendedChecks : List String
  tags : List String
  entities : List EntityRef

/-- An incident as serde writes it. -/
def Incident.toJson (chrono : Chrono) (i : Incident) : Json :=
  .obj [("ts", .str (chrono.serialize i.ts)),
    ("host", .str i.host),
    ("incident_id", .str i.incidentId),
    ("severity", .str i.severity.text),
    ("title", .str i.title),
    ("summary", .str i.summary),
    ("evidence", i.evidence),
    ("recommended_checks", .arr (i.recommendedChecks.map .str)),
    ("tags", .arr (i.tags.map .str)),
    ("entities", .arr (i.entities.map fun e =>
      .obj [("type", .str e.type.tag), ("value", .str e.value)]))]

/-- The detector an id names: its first two parts. -/
def detectorOf (incidentId : String) : String := ":".intercalate ((split ':' incidentId).take 2)

/-- The row `insert_incident` writes. -/
def Incident.row (codec : JsonCodec) (chrono : Chrono) (id : Int) (i : Incident) : IncidentRow where
  id := id
  ts := chrono.toRfc3339 i.ts
  host := i.host
  incidentId := i.incidentId
  severity := i.severity.text
  detector := detectorOf i.incidentId
  title := i.title
  summary := some i.summary
  data := codec.toString (i.toJson chrono)
  isAllowlisted := 0

/-- `INSERT OR IGNORE INTO incidents`. -/
def insertIncidentRow (codec : JsonCodec) (chrono : Chrono) (rows : List IncidentRow)
    (i : Incident) : List IncidentRow :=
  if rows.any fun r => r.incidentId = i.incidentId then rows
  else
    let id := match rows.getLast? with
      | none => 1
      | some r => r.id + 1
    rows ++ [i.row codec chrono id]

def insertIncidentRows (codec : JsonCodec) (chrono : Chrono) (rows : List IncidentRow)
    (is : List Incident) : List IncidentRow :=
  is.foldl (insertIncidentRow codec chrono) rows

def Store.insertIncident (codec : JsonCodec) (chrono : Chrono) (s : Store) (i : Incident) : Store :=
  { s with incidents := insertIncidentRow codec chrono s.incidents i }

variable {codec : JsonCodec} {chrono : Chrono}

theorem insertIncidentRow_ne_nil (rows : List IncidentRow) (i : Incident) :
    insertIncidentRow codec chrono rows i ≠ [] := by
  unfold insertIncidentRow
  split
  next found =>
    -- The row that carries the id is there.
    rintro rfl
    simp at found
  next => exact List.append_ne_nil_of_right_ne_nil _ (List.cons_ne_nil _ _)

/-- Insertions into an empty table leave it empty only if there are none. -/
theorem insertIncidentRows_eq_nil {rows : List IncidentRow} {is : List Incident}
    (h : insertIncidentRows codec chrono rows is = []) : is = [] := by
  induction is generalizing rows with
  | nil => rfl
  | cons i is ih =>
    -- The last insertion is the one of `i` if the others are none.
    have none : is = [] := ih h
    subst none
    exact absurd h (insertIncidentRow_ne_nil rows i)

end Innerwarden

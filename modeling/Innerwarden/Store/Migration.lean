import Innerwarden.Lib.KeyedTable
import Innerwarden.Store.Incidents

/-!
# Migration from the legacy files

`crates/store/src/migration.rs`.  `migrateFromLegacy` writes what the files of an older version
hold into the store, and then moves them to `legacy-archive/`.  It does nothing when the store
has an event or an incident.

Every write is a transaction of its own and every rename is atomic.  So a run is the list of its
writes and renames, the *steps*, and a crash leaves the effect of a first part of that list.  An
`Environment` says which files can be listed, opened and read, and which writes and renames
succeed.  A call that fails is no step unless it is counted.
-/

namespace Innerwarden

open Text KeyedTable

/-! ## The crates -/

/-- What the migration takes from other crates. -/
structure MigrationCrates where
  /-- SHA-256 of `sha2`. -/
  sha256 : ByteArray → Digest
  /-- `serde_json`, for values. -/
  json : JsonCodec
  /-- `serde_json::from_str::<Incident>`. -/
  incidentFromStr : String → Option Incident
  /-- An integer as the bits of the closest `f64`. -/
  f64OfInt : Int → UInt64
  chrono : Chrono

/-! ## Files -/

/-- A file of the data directory. -/
structure LegacyFile where
  name : String
  content : List UInt8

/-- The files of the data directory. -/
structure DataDir where
  files : List LegacyFile
  nodup : (files.map LegacyFile.name).Nodup

def DataDir.remove (dir : DataDir) (name : String) : DataDir where
  files := dir.files.filter fun f => f.name ≠ name
  nodup := dir.nodup.sublist (List.filter_sublist.map _)

/-- `find_matching_files`: the files of a name pattern, sorted by name. -/
def findMatchingFiles (dir : DataDir) (pre suf : String) : List LegacyFile :=
  (dir.files.filter fun f => startsWith f.name pre && endsWith f.name suf).insertionSort
    fun a b => a.name ≤ b.name

def decodeUtf8 (bytes : List UInt8) : Option String := String.fromUTF8? ⟨⟨bytes⟩⟩

def dropCr (line : List UInt8) : List UInt8 :=
  if line.getLast? = some 13 then line.dropLast else line

/-- `BufRead::lines`, before the lines are decoded. -/
def readLines (bytes : List UInt8) : List (List UInt8) :=
  match (bytes.splitOn 10).reverse with
  | [] => []
  | last :: ended => ended.reverse.map dropCr ++ if last = [] then [] else [last]

/-- How the file system and the database answer during a run. -/
structure Environment where
  /-- `events_count` and `incidents_count` succeed. -/
  counts : Bool
  /-- The file is listed and opened, and read if it is read as a whole. -/
  opens : String → Bool
  /-- The line of the file is read. -/
  readsLine : String → Nat → Bool
  /-- The write for the line of the file succeeds; a file read as a whole has
  the line 0. -/
  writes : String → Nat → Bool
  /-- `legacy-archive/` is there or can be made. -/
  createsArchive : Bool
  /-- The file can be moved. -/
  renames : String → Bool
  /-- The clock when the file is written to the database. -/
  now : String → DateTime

def Environment.calm (now : String → DateTime) : Environment where
  counts := true
  opens := fun _ => true
  readsLine := fun _ _ => true
  writes := fun _ _ => true
  createsArchive := true
  renames := fun _ => true
  now := now

/-! ## Steps -/

/-- What a graph snapshot holds besides its date. -/
structure GraphSnapshot where
  snapshot : List UInt8
  nodesCount : Int
  edgesCount : Int
deriving DecidableEq

/-- What a run does to the store, the directory or its report. -/
inductive MigrationStep where
  | insertIncident (i : Incident)
  | skipIncident
  | insertDecision (row : DecisionRow)
  | skipDecision
  | saveGraphSnapshot (date : String) (g : GraphSnapshot) (now : DateTime)
  | setBlob (name data : String) (now : DateTime)
  | archive (file : String)

/-- What one of the `migrate_*` functions does: its steps, and the files it
hands to `archive_files`. -/
structure Phase where
  steps : List MigrationStep
  filesToArchive : List String

def Phase.concat (phases : List Phase) : Phase :=
  ⟨phases.flatMap Phase.steps, phases.flatMap Phase.filesToArchive⟩

/-! ## JSONL files -/

/-- One line of a JSONL file: an unreadable line, a line that does not parse and
a write that fails are counted as skipped, an empty line is passed over. -/
def migrateLine (parse : String → Option MigrationStep) (skip : MigrationStep) (env : Environment)
    (file : String) (bytes : List UInt8) (n : Nat) : List MigrationStep :=
  match if env.readsLine file n then decodeUtf8 bytes else none with
  | none => [skip]
  | some line =>
    let line := trim line
    if line.isEmpty then []
    else
      match parse line with
      | some step => if env.writes file n then [step] else [skip]
      | none => [skip]

/-- The common body of `migrate_incidents_jsonl` and `migrate_decisions_jsonl`: a
file that opens is archived, whatever became of its lines. -/
def migrateJsonl (parse : String → Option MigrationStep) (skip : MigrationStep) (pre : String)
    (env : Environment) (dir : DataDir) : Phase :=
  let opened := (findMatchingFiles dir pre ".jsonl").filter fun f => env.opens f.name
  ⟨opened.flatMap fun f =>
      (readLines f.content).zipIdx.flatMap fun l => migrateLine parse skip env f.name l.1 l.2,
    opened.map LegacyFile.name⟩

section Crates

variable (crates : MigrationCrates)

def parseIncidentLine (line : String) : Option MigrationStep :=
  (crates.incidentFromStr line).map .insertIncident

def migrateIncidentsJsonl : Environment → DataDir → Phase :=
  migrateJsonl (parseIncidentLine crates) .skipIncident "incidents-"

/-- The row made of a legacy decision. -/
def legacyDecision (v : Json) (line : String) : DecisionRow where
  ts := ((v.get "ts").bind Json.asStr).getD ""
  incidentId := ((v.get "incident_id").bind Json.asStr).getD ""
  actionType := (((v.get "action_type").or (v.get "action")).bind Json.asStr).getD ""
  targetIp := ((v.get "target_ip").or (v.get "ip")).bind Json.asStr
  targetUser := ((v.get "target_user").or (v.get "user")).bind Json.asStr
  confidence := ⟨((v.get "confidence").bind (Json.asF64 crates.f64OfInt)).getD 0⟩
  autoExecuted := ((v.get "auto_executed").bind Json.asBool).getD false
  reason := (v.get "reason").bind Json.asStr
  data := line

def parseDecisionLine (line : String) : Option MigrationStep :=
  (crates.json.value line).map fun v => .insertDecision (legacyDecision crates v line)

def migrateDecisionsJsonl : Environment → DataDir → Phase :=
  migrateJsonl (parseDecisionLine crates) .skipDecision "decisions-"

/-! ## Graph snapshots -/

def memberCount (v : Json) (key : String) : Nat :=
  ((((v.get key).bind Json.asArray).map List.length).or
    (((v.get key).bind Json.asObject).map List.length)).getD 0

def countGraphNodesEdges (bytes : List UInt8) : Nat × Nat :=
  match (decodeUtf8 bytes).bind crates.json.value with
  | some v => (memberCount v "nodes", memberCount v "edges")
  | none => (0, 0)

def snapshotDate (name : String) : String :=
  ((stripPrefix name "graph-snapshot-").bind (stripSuffix · ".json")).getD "unknown"

def graphSnapshotOf (f : LegacyFile) : GraphSnapshot :=
  let counts := countGraphNodesEdges crates f.content
  ⟨f.content, counts.1, counts.2⟩

/-- `migrate_graph_snapshots`: a file is archived if its snapshot was saved. -/
def migrateGraphSnapshots (env : Environment) (dir : DataDir) : Phase :=
  let saved := (findMatchingFiles dir "graph-snapshot-" ".json").filter fun f =>
    env.opens f.name && env.writes f.name 0
  ⟨saved.map fun f =>
      .saveGraphSnapshot (snapshotDate f.name) (graphSnapshotOf crates f) (env.now f.name),
    saved.map LegacyFile.name⟩

end Crates

/-! ## State blobs -/

/-- `STATE_BLOB_MAPPINGS`: the legacy files and the names of their blobs. -/
def stateBlobMappings : List (String × String) :=
  [("responses.json", "responses"), ("attacker-profiles.json", "attacker_profiles"),
   ("campaigns.json", "campaigns"), ("baseline.json", "baseline"),
   ("playbook-log.json", "playbook_log"), ("threat-feeds.json", "threat_feeds")]

/-- The blob of a file that exists. -/
def migrateBlobFile (env : Environment) (f : LegacyFile) (blobName : String) : Phase :=
  match if env.opens f.name then decodeUtf8 f.content else none with
  | none => ⟨[], []⟩
  | some content =>
    let content := trim content
    -- An empty file is archived, and there is no blob.
    if content.isEmpty then ⟨[], [f.name]⟩
    else if env.writes f.name 0 then ⟨[.setBlob blobName content (env.now f.name)], [f.name]⟩
    else ⟨[], []⟩

/-- One turn of the loop of `migrate_state_blobs`. -/
def migrateStateBlob (env : Environment) (dir : DataDir) (mapping : String × String) : Phase :=
  match dir.files.find? fun f => f.name = mapping.1 with
  | none => ⟨[], []⟩
  | some f => migrateBlobFile env f mapping.2

def migrateStateBlobs (env : Environment) (dir : DataDir) : Phase :=
  .concat (stateBlobMappings.map (migrateStateBlob env dir))

/-! ## A run -/

def archiveFiles (env : Environment) (files : List String) : List MigrationStep :=
  if files.isEmpty || !env.createsArchive then []
  else (files.filter env.renames).map .archive

/-- Report of what was migrated. -/
structure MigrationReport where
  incidentsMigrated : Nat := 0
  incidentsSkipped : Nat := 0
  decisionsMigrated : Nat := 0
  decisionsSkipped : Nat := 0
  graphSnapshotsMigrated : Nat := 0
  stateBlobsMigrated : Nat := 0
  filesArchived : Nat := 0

/-- What a run works on. -/
structure MigrationState where
  store : Store
  dir : DataDir
  report : MigrationReport

def Store.saveGraphSnapshot (s : Store) (date : String) (g : GraphSnapshot) (createdAt : String) :
    Store :=
  let id := match s.graphSnapshots.getLast? with
    | none => 1
    | some r => r.id + 1
  { s with
    graphSnapshots := upsert GraphSnapshotRow.date
      (fun r => { r with
        snapshot := g.snapshot, nodesCount := g.nodesCount, edgesCount := g.edgesCount,
        createdAt := createdAt })
      ⟨id, date, g.snapshot, g.nodesCount, g.edgesCount, createdAt⟩ s.graphSnapshots }

def Store.setBlob (s : Store) (name data updatedAt : String) : Store :=
  { s with
    stateBlobs := upsert StateBlobRow.name
      (fun r => { r with data := data, updatedAt := updatedAt }) ⟨name, data, updatedAt⟩
      s.stateBlobs }

section Run

variable (crates : MigrationCrates)

/-- The effect of a step. -/
def MigrationState.apply (st : MigrationState) : MigrationStep → MigrationState
  | .insertIncident i =>
    { st with
      store := st.store.insertIncident crates.json crates.chrono i
      report.incidentsMigrated := st.report.incidentsMigrated + 1 }
  | .skipIncident => { st with report.incidentsSkipped := st.report.incidentsSkipped + 1 }
  | .insertDecision row =>
    { st with
      store.decisions := (st.store.decisions.insertDecision crates.sha256 row).1
      report.decisionsMigrated := st.report.decisionsMigrated + 1 }
  | .skipDecision => { st with report.decisionsSkipped := st.report.decisionsSkipped + 1 }
  | .saveGraphSnapshot date g now =>
    { st with
      store := st.store.saveGraphSnapshot date g (crates.chrono.toRfc3339 now)
      report.graphSnapshotsMigrated := st.report.graphSnapshotsMigrated + 1 }
  | .setBlob name data now =>
    { st with
      store := st.store.setBlob name data (crates.chrono.toRfc3339 now)
      report.stateBlobsMigrated := st.report.stateBlobsMigrated + 1 }
  | .archive file =>
    { st with
      dir := st.dir.remove file
      report.filesArchived := st.report.filesArchived + 1 }

def MigrationState.applyAll (st : MigrationState) (steps : List MigrationStep) : MigrationState :=
  steps.foldl (MigrationState.apply crates) st

/-- The four `migrate_*` functions. -/
def migratePhases (env : Environment) (dir : DataDir) : Phase :=
  .concat [migrateIncidentsJsonl crates env dir, migrateDecisionsJsonl crates env dir,
    migrateGraphSnapshots crates env dir, migrateStateBlobs env dir]

def migrationSteps (env : Environment) (dir : DataDir) : List MigrationStep :=
  let phases := migratePhases crates env dir
  phases.steps ++ archiveFiles env phases.filesToArchive

/-- The store has an event or an incident, as far as the counts succeed. -/
def Store.hasData (env : Environment) (s : Store) : Bool :=
  env.counts && (!s.events.isEmpty || !s.incidents.isEmpty)

/-- A run of `migrate_from_legacy` that is stopped after `k` steps. -/
def interruptedMigration (env : Environment) (k : Nat) (s : Store) (dir : DataDir) :
    MigrationState :=
  let steps := if s.hasData env then [] else migrationSteps crates env dir
  MigrationState.applyAll crates ⟨s, dir, {}⟩ (steps.take k)

def migrateFromLegacy (env : Environment) (s : Store) (dir : DataDir) : MigrationState :=
  let steps := if s.hasData env then [] else migrationSteps crates env dir
  MigrationState.applyAll crates ⟨s, dir, {}⟩ steps

end Run

/-! ## What the steps of a list store -/

def MigrationStep.incident? : MigrationStep → Option Incident
  | .insertIncident i => some i
  | _ => none

def MigrationStep.decision? : MigrationStep → Option DecisionRow
  | .insertDecision row => some row
  | _ => none

/-- The snapshot a step saves, under its date. -/
def MigrationStep.snapshot? : MigrationStep → Option (String × GraphSnapshot)
  | .saveGraphSnapshot date g _ => some (date, g)
  | _ => none

/-- The blob a step sets, under its name. -/
def MigrationStep.blob? : MigrationStep → Option (String × String)
  | .setBlob name data _ => some (name, data)
  | _ => none

def incidentsOf (steps : List MigrationStep) : List Incident :=
  steps.filterMap MigrationStep.incident?

def decisionsOf (steps : List MigrationStep) : List DecisionRow :=
  steps.filterMap MigrationStep.decision?

def snapshotsOf (steps : List MigrationStep) : List (String × GraphSnapshot) :=
  steps.filterMap MigrationStep.snapshot?

def blobsOf (steps : List MigrationStep) : List (String × String) :=
  steps.filterMap MigrationStep.blob?

/-- What the store holds, without the clock readings of the upserts. -/
@[ext]
structure StoreContent where
  events : List EventRow
  incidents : List IncidentRow
  decisions : List StoredDecision
  graphSnapshots : String → Option GraphSnapshot
  stateBlobs : String → Option String

/-- The content of a store. -/
def Store.content (s : Store) : StoreContent where
  events := s.events
  incidents := s.incidents
  decisions := s.decisions.rows
  graphSnapshots := valueAt GraphSnapshotRow.date
    (fun r => ⟨r.snapshot, r.nodesCount, r.edgesCount⟩) s.graphSnapshots
  stateBlobs := valueAt StateBlobRow.name StateBlobRow.data s.stateBlobs

theorem Store.saveGraphSnapshot_content (s : Store) (date : String) (g : GraphSnapshot)
    (createdAt : String) :
    (s.saveGraphSnapshot date g createdAt).content.graphSnapshots =
      Function.update s.content.graphSnapshots date (some g) := by
  refine valueAt_upsert ?_ ?_ _
  · exact fun _ h => h
  · exact fun _ _ => rfl

theorem Store.setBlob_content (s : Store) (name data updatedAt : String) :
    (s.setBlob name data updatedAt).content.stateBlobs =
      Function.update s.content.stateBlobs name (some data) := by
  refine valueAt_upsert ?_ ?_ _
  · exact fun _ h => h
  · exact fun _ _ => rfl

theorem MigrationState.content_applyAll (crates : MigrationCrates) (st : MigrationState)
    (steps : List MigrationStep) :
    (st.applyAll crates steps).store.content =
      { events := st.store.events
        incidents := insertIncidentRows crates.json crates.chrono st.store.incidents
          (incidentsOf steps)
        decisions := (st.store.decisions.insertAll crates.sha256
          (decisionsOf steps)).rows
        graphSnapshots := putAll st.store.content.graphSnapshots
          (snapshotsOf steps)
        stateBlobs := putAll st.store.content.stateBlobs
          (blobsOf steps) } := by
  induction steps generalizing st with
  | nil => rfl
  | cons step steps ih =>
    refine (ih (st.apply crates step)).trans ?_
    cases step with
    | saveGraphSnapshot date g now =>
      simp only [MigrationState.apply, Store.saveGraphSnapshot_content]
      rfl
    | setBlob name data now =>
      simp only [MigrationState.apply, Store.setBlob_content]
      rfl
    | _ => rfl

end Innerwarden

import Innerwarden.Store.MigrationPhases

/-!
# Crashes during the migration

A run of the migration is stopped after any of its steps, or some of its calls fail, and the
migration is then run again.  `crashSafe_iff` says when that leaves the store with the content
of one run in which nothing fails.

A second run repairs the snapshots and the blobs.  It is skipped as soon as the first has stored
one incident, and otherwise inserts every decision of the files that are left once more.
-/

namespace Innerwarden

open Text KeyedTable List MigrationState

variable {crates : MigrationCrates}

/-! ## Decisions by their columns -/

/-- The columns of a decision that its caller sets, as they are stored. -/
structure DecisionColumns where
  ts : String
  incidentId : String
  actionType : String
  targetIp : Option String
  targetUser : Option String
  confidence : Option F64
  autoExecuted : Int
  reason : Option String
  data : String
deriving DecidableEq

def DecisionRow.columns (r : DecisionRow) : DecisionColumns :=
  ⟨r.ts, r.incidentId, r.actionType, r.targetIp, r.targetUser, r.confidence.bindReal,
    if r.autoExecuted then 1 else 0, r.reason, r.data⟩

def StoredDecision.columns (r : StoredDecision) : DecisionColumns :=
  ⟨r.ts, r.incidentId, r.actionType, r.targetIp, r.targetUser, r.confidence, r.autoExecuted,
    r.reason, r.data⟩

theorem Decisions.insertAll_columns (sha256 : ByteArray → Digest) (t : Decisions)
    (rows : List DecisionRow) :
    (t.insertAll sha256 rows).rows.map StoredDecision.columns =
      t.rows.map StoredDecision.columns ++ rows.map DecisionRow.columns := by
  induction rows generalizing t with
  | nil => simp [Decisions.insertAll]
  | cons row rows ih =>
    rw [Decisions.insertAll, ih, Decisions.insertDecision_rows]
    simp only [map_append, map_cons, map_nil, append_assoc,
      singleton_append]
    rfl

theorem Decisions.newRow_congr (sha256 : ByteArray → Digest) (t : Decisions)
    {row row' : DecisionRow} (h : row.columns = row'.columns) :
    t.newRow sha256 row = t.newRow sha256 row' := by
  simp only [DecisionRow.columns, DecisionColumns.mk.injEq] at h
  obtain ⟨h1, h2, h3, h4, h5, h6, h7, h8, h9⟩ := h
  simp only [Decisions.newRow, h1, h2, h3, h4, h5, h6, h7, h8, h9]

theorem Decisions.insertAll_congr (sha256 : ByteArray → Digest) (t : Decisions)
    {rows rows' : List DecisionRow}
    (h : rows.map DecisionRow.columns = rows'.map DecisionRow.columns) :
    t.insertAll sha256 rows = t.insertAll sha256 rows' := by
  induction rows generalizing t rows' with
  | nil =>
    rw [map_nil, eq_comm, map_eq_nil_iff] at h
    rw [h]
  | cons row rows ih =>
    cases rows' with
    | nil => cases h
    | cons row' rows' =>
      obtain ⟨head, tail⟩ := List.cons.inj h
      have inserted : t.insertDecision sha256 row = t.insertDecision sha256 row' := by
        simp only [Decisions.insertDecision, t.newRow_congr sha256 head]
      rw [Decisions.insertAll, Decisions.insertAll, inserted]
      exact ih _ tail

/-- Two lists of insertions end in the same table exactly when they store the same
columns in the same order. -/
theorem Decisions.insertAll_eq_iff (sha256 : ByteArray → Digest) (t : Decisions)
    (rows rows' : List DecisionRow) :
    (t.insertAll sha256 rows).rows = (t.insertAll sha256 rows').rows ↔
      rows.map DecisionRow.columns = rows'.map DecisionRow.columns := by
  constructor
  · intro h
    have columns := congrArg (List.map StoredDecision.columns) h
    rw [t.insertAll_columns, t.insertAll_columns] at columns
    exact append_cancel_left columns
  · intro h
    rw [t.insertAll_congr sha256 h]

/-! ## Runs -/

/-- The run after an interrupted one.  Nothing fails in it. -/
def resumedMigration (crates : MigrationCrates) (env : Environment) (k : Nat) (s : Store)
    (dir : DataDir) (now : String → DateTime) : MigrationState :=
  let crashed := interruptedMigration crates env k s dir
  migrateFromLegacy crates (.calm now) crashed.store crashed.dir

/-- An interrupted run and a second one store what one run stores in which nothing
fails. -/
def CrashSafe (crates : MigrationCrates) (env : Environment) (k : Nat) (s : Store)
    (dir : DataDir) (now now' : String → DateTime) : Prop :=
  (resumedMigration crates env k s dir now).store.content =
    (migrateFromLegacy crates (.calm now') s dir).store.content

theorem MigrationState.applyAll_append (st : MigrationState) (steps steps' : List MigrationStep) :
    st.applyAll crates (steps ++ steps') = (st.applyAll crates steps).applyAll crates steps' :=
  foldl_append

theorem MigrationState.applyAll_store (st st' : MigrationState) (h : st.store = st'.store)
    (steps : List MigrationStep) :
    (st.applyAll crates steps).store = (st'.applyAll crates steps).store := by
  induction steps generalizing st st' with
  | nil => exact h
  | cons step steps ih =>
    refine ih (st.apply crates step) (st'.apply crates step) ?_
    cases step <;> simp only [MigrationState.apply, h]

theorem MigrationState.mem_applyAll_dir {st : MigrationState} {steps : List MigrationStep}
    {f : LegacyFile} :
    f ∈ (st.applyAll crates steps).dir.files ↔
      f ∈ st.dir.files ∧ MigrationStep.archive f.name ∉ steps := by
  induction steps generalizing st with
  | nil => simp [MigrationState.applyAll]
  | cons step steps ih =>
    have run : f ∈ (st.applyAll crates (step :: steps)).dir.files ↔
        f ∈ (st.apply crates step).dir.files ∧ MigrationStep.archive f.name ∉ steps := ih
    rw [run, mem_cons, not_or]
    cases step with
    | archive file =>
      simp only [MigrationState.apply, DataDir.remove, mem_filter, decide_eq_true_eq,
        MigrationStep.archive.injEq, ne_eq, and_assoc]
    | _ => simp [MigrationState.apply]

theorem archive_notMem_migratePhases {env : Environment} {dir : DataDir} {name : String} :
    MigrationStep.archive name ∉ (migratePhases crates env dir).steps := by
  intro h
  rcases mem_migratePhases.mp h with h | h | h
  · exact (jsonl_step h).2.2 name rfl
  · obtain ⟨_, _, _, _, _, h⟩ := mem_migrateGraphSnapshots.mp h
    cases h
  · obtain ⟨_, _, _, _, _, h⟩ := mem_migrateStateBlobs.mp h
    cases h

theorem mem_archiveFiles {env : Environment} {files : List String} {step : MigrationStep}
    (h : step ∈ archiveFiles env files) : ∃ name ∈ files, step = .archive name := by
  unfold archiveFiles at h
  split at h
  next => cases h
  next =>
    obtain ⟨name, hname, rfl⟩ := mem_map.mp h
    exact ⟨name, mem_of_mem_filter hname, rfl⟩

theorem phases_of_archived {env : Environment} {dir : DataDir} {k : Nat} {name : String}
    (h : .archive name ∈ (migrationSteps crates env dir).take k) :
    name ∈ (migratePhases crates env dir).filesToArchive ∧
      (migratePhases crates env dir).steps ⊆ (migrationSteps crates env dir).take k := by
  unfold migrationSteps at h ⊢
  rw [take_append] at h ⊢
  rcases mem_append.mp h with h | h
  · exact absurd (mem_of_mem_take h) archive_notMem_migratePhases
  · obtain ⟨_, hname, heq⟩ := mem_archiveFiles (mem_of_mem_take h)
    cases heq
    have past : (migratePhases crates env dir).steps.length ≤ k := by
      by_contra before
      rw [Nat.sub_eq_zero_of_le (Nat.le_of_not_le before), take_zero] at h
      cases h
    refine ⟨hname, fun step hstep => mem_append_left _ ?_⟩
    rwa [take_of_length_le past]

/-! ## Files that are read as a whole are repaired -/

namespace WholeFile

variable {ν : Type} {stored : MigrationStep → Option (String × ν)}
  {entry : LegacyFile → Option (String × ν)} (kind : WholeFile crates stored entry)

include kind

theorem mem_migrationSteps {env : Environment} {dir : DataDir} {w : String × ν} :
    w ∈ (migrationSteps crates env dir).filterMap stored ↔
      ∃ f ∈ dir.files, entry f = some w ∧ env.opens f.name ∧ env.writes f.name 0 := by
  have archived : ∀ files, (archiveFiles env files).filterMap stored = [] := by
    intro files
    rw [filterMap_eq_nil_iff]
    intro step hstep
    obtain ⟨name, -, rfl⟩ := mem_archiveFiles hstep
    exact kind.stored_archive name
  rw [← kind.stores, migrationSteps, filterMap_append, archived, append_nil]

/-- A run stores no entry but those of the files. -/
theorem mem_calm {dir : DataDir} {now : String → DateTime} {w : String × ν} :
    w ∈ (migrationSteps crates (.calm now) dir).filterMap stored ↔
      ∃ f ∈ dir.files, entry f = some w := by
  simp [kind.mem_migrationSteps, Environment.calm]

theorem consistent (dir : DataDir) (now : String → DateTime) :
    Consistent ((migrationSteps crates (.calm now) dir).filterMap stored) := by
  intro w hw w' hw' hkey
  obtain ⟨f, hf, hentry⟩ := kind.mem_calm.mp hw
  obtain ⟨f', hf', hentry'⟩ := kind.mem_calm.mp hw'
  cases DataDir.eq_of_name hf hf' (kind.name_of_key f f' w w' hentry hentry' hkey)
  exact Option.some.inj (hentry.symm.trans hentry')

variable (env : Environment) (k : Nat) (dir left : DataDir) (now now' : String → DateTime)

theorem take_subset :
    ((migrationSteps crates env dir).take k).filterMap stored ⊆
      (migrationSteps crates (.calm now) dir).filterMap stored := by
  intro w hw
  obtain ⟨step, hstep, hw⟩ := mem_filterMap.mp hw
  obtain ⟨f, hf, hentry, -⟩ := kind.mem_migrationSteps.mp
    (mem_filterMap.mpr ⟨step, mem_of_mem_take hstep, hw⟩)
  exact kind.mem_calm.mpr ⟨f, hf, hentry⟩

variable (hleft : ∀ f, f ∈ left.files ↔
  f ∈ dir.files ∧ .archive f.name ∉ (migrationSteps crates env dir).take k)

include hleft

/-- An interrupted run and a run over the files it left store every entry, and no
other. -/
theorem resumed (w : String × ν) :
    w ∈ ((migrationSteps crates env dir).take k ++
        migrationSteps crates (.calm now) left).filterMap stored ↔
      w ∈ (migrationSteps crates (.calm now') dir).filterMap stored := by
  rw [filterMap_append, mem_append]
  constructor
  · rintro (hw | hw)
    · exact kind.take_subset env k dir now' hw
    · obtain ⟨f, hf, hentry⟩ := kind.mem_calm.mp hw
      exact kind.mem_calm.mpr ⟨f, ((hleft f).mp hf).1, hentry⟩
  · intro hw
    obtain ⟨f, hf, hentry⟩ := kind.mem_calm.mp hw
    by_cases archived : .archive f.name ∈ (migrationSteps crates env dir).take k
    · -- The file is gone, so its entry has been stored.
      obtain ⟨hname, made⟩ := phases_of_archived archived
      have answers := kind.archives env dir f w hf hentry hname
      obtain ⟨step, hstep, hw⟩ :=
        mem_filterMap.mp ((kind.stores env dir w).mpr ⟨f, hf, hentry, answers⟩)
      exact .inl (mem_filterMap.mpr ⟨step, made hstep, hw⟩)
    · exact .inr (kind.mem_calm.mpr ⟨f, (hleft f).mpr ⟨hf, archived⟩, hentry⟩)

theorem putAll_resumed (t : String → Option ν) :
    putAll t (((migrationSteps crates env dir).take k ++
        migrationSteps crates (.calm now) left).filterMap stored) =
      putAll t ((migrationSteps crates (.calm now') dir).filterMap stored) := by
  have covered := kind.resumed env k dir left now now' hleft
  refine (putAll_eq_iff (kind.consistent dir now') fun w hw => (covered w).mp hw).mpr ?_
  intro w hw
  exact .inl ((covered w).mpr hw)

end WholeFile

/-! ## Safe crashes -/

section Crash

variable {env : Environment} {k : Nat} {s : Store} {dir : DataDir} {now now' : String → DateTime}

section Empty

variable (noEvents : s.events = []) (noIncidents : s.incidents = [])

include noEvents noIncidents

theorem hasData_eq_false (env : Environment) : s.hasData env = false := by
  simp [Store.hasData, noEvents, noIncidents]

theorem interruptedMigration_eq :
    interruptedMigration crates env k s dir =
      MigrationState.applyAll crates ⟨s, dir, {}⟩ ((migrationSteps crates env dir).take k) := by
  simp [interruptedMigration, hasData_eq_false noEvents noIncidents env]

variable (crates env k dir now) in
/-- The second run is skipped exactly when the first has stored an incident. -/
theorem hasData_interruptedMigration :
    (interruptedMigration crates env k s dir).store.hasData (.calm now) = true ↔
      incidentsOf ((migrationSteps crates env dir).take k) ≠ [] := by
  rw [interruptedMigration_eq noEvents noIncidents]
  have content := content_applyAll crates ⟨s, dir, {}⟩
    ((migrationSteps crates env dir).take k)
  have events := congrArg StoreContent.events content
  have incidents := congrArg StoreContent.incidents content
  simp only [Store.content, noEvents, noIncidents] at events incidents
  simp only [Store.hasData, Environment.calm, events, incidents, isEmpty_nil, Bool.not_true,
    Bool.false_or, Bool.true_and, Bool.not_eq_true', isEmpty_eq_false_iff]
  constructor
  · intro stored none
    exact stored (by rw [none]; rfl)
  · intro some none
    exact some (insertIncidentRows_eq_nil none)

/-- The steps of both runs together. -/
theorem resumedMigration_store :
    let first := (migrationSteps crates env dir).take k
    let rest := migrationSteps crates (.calm now) (interruptedMigration crates env k s dir).dir
    (resumedMigration crates env k s dir now).store =
      (MigrationState.applyAll crates ⟨s, dir, {}⟩
        (if incidentsOf first = [] then first ++ rest else first)).store := by
  intro first rest
  have skipped := hasData_interruptedMigration crates env k dir now noEvents noIncidents
  unfold resumedMigration migrateFromLegacy
  by_cases none : incidentsOf first = []
  · have runs : (interruptedMigration crates env k s dir).store.hasData (.calm now) = false := by
      rw [← Bool.not_eq_true, skipped]
      exact not_not_intro none
    simp only [runs, Bool.false_eq_true, if_false, if_pos none, applyAll_append]
    refine applyAll_store _ _ ?_ _
    rw [interruptedMigration_eq noEvents noIncidents]
  · simp only [skipped.mpr none, if_true, if_neg none]
    rw [interruptedMigration_eq noEvents noIncidents]
    rfl

end Empty

/-- When a crash is safe.  If no incident was stored before it, the files left must
hold the incidents, and the decisions stored before it must be those the files left
lack.  If one was stored, the second run is skipped, and everything must have been
stored before. -/
theorem crashSafe_iff (crates : MigrationCrates) (env : Environment) (k : Nat) (s : Store)
    (dir : DataDir) (now now' : String → DateTime) (noEvents : s.events = [])
    (noIncidents : s.incidents = []) :
    let first := (migrationSteps crates env dir).take k
    let rest := migrationSteps crates (.calm now) (interruptedMigration crates env k s dir).dir
    let all := migrationSteps crates (.calm now') dir
    let rows := insertIncidentRows crates.json crates.chrono []
    let columns := fun steps => (decisionsOf steps).map DecisionRow.columns
    CrashSafe crates env k s dir now now' ↔
      if incidentsOf first = [] then
        rows (incidentsOf rest) = rows (incidentsOf all) ∧ columns (first ++ rest) = columns all
      else
        rows (incidentsOf first) = rows (incidentsOf all) ∧ columns first = columns all ∧
        (∀ w ∈ snapshotsOf all,
          w ∈ snapshotsOf first ∨ s.content.graphSnapshots w.1 = some w.2) ∧
        ∀ w ∈ blobsOf all, w ∈ blobsOf first ∨ s.content.stateBlobs w.1 = some w.2 := by
  intro first rest all rows columns
  have full : (migrateFromLegacy crates (.calm now') s dir).store =
      (MigrationState.applyAll crates ⟨s, dir, {}⟩ all).store := by
    simp [migrateFromLegacy, hasData_eq_false noEvents noIncidents, all]
  have snapshots := wholeFile_snapshots crates
  have blobs := wholeFile_blobs crates
  have hleft : ∀ f, f ∈ (interruptedMigration crates env k s dir).dir.files ↔
      f ∈ dir.files ∧ .archive f.name ∉ first := by
    intro f
    rw [interruptedMigration_eq noEvents noIncidents]
    exact mem_applyAll_dir
  rw [CrashSafe, resumedMigration_store noEvents noIncidents, full,
    content_applyAll, content_applyAll, StoreContent.mk.injEq]
  simp only [true_and, noIncidents, Decisions.insertAll_eq_iff]
  split
  next none =>
    -- The second run has gone over the files that were left.
    have stored : incidentsOf (first ++ rest) = incidentsOf rest := by
      simp only [incidentsOf, filterMap_append] at none ⊢
      rw [none, nil_append]
    rw [stored]
    constructor
    · rintro ⟨incidents, decisions, -, -⟩
      exact ⟨incidents, decisions⟩
    · rintro ⟨incidents, decisions⟩
      exact ⟨incidents, decisions, snapshots.putAll_resumed env k dir _ now now' hleft _,
        blobs.putAll_resumed env k dir _ now now' hleft _⟩
  next =>
    -- The second run was skipped.
    have snapshotsKept := putAll_eq_iff (t := s.content.graphSnapshots)
      (snapshots.consistent dir now') (snapshots.take_subset env k dir now')
    have blobsKept := putAll_eq_iff (t := s.content.stateBlobs)
      (blobs.consistent dir now') (blobs.take_subset env k dir now')
    exact and_congr Iff.rfl (and_congr Iff.rfl (and_congr snapshotsKept blobsKept))

end Crash

/-! ## Two directories -/

/-- The incident of an empty object: every field has its default. -/
def defaultIncident : Incident where
  ts := 0
  host := ""
  incidentId := ""
  severity := .info
  title := ""
  summary := ""
  evidence := .null
  recommendedChecks := []
  tags := []
  entities := []

/-- The crates on an empty object. -/
def sampleMigrationCrates : MigrationCrates where
  sha256 := sampleSha256
  json :=
    { formatF64 := fun _ => "0.0"
      formatF32 := fun _ => "0.0"
      fromStr := fun text => if text = sampleData then some (.obj []) else none }
  incidentFromStr := fun text => if text = sampleData then some defaultIncident else none
  f64OfInt := fun _ => 0
  chrono := sampleChrono

/-- A file of one line, an empty object. -/
def sampleFile (name : String) : LegacyFile := ⟨name, [123, 125, 10]⟩

def incidentAndDecision : DataDir :=
  ⟨[sampleFile "incidents-2026-05-02.jsonl", sampleFile "decisions-2026-05-02.jsonl"], by decide⟩

def decisionOnly : DataDir := ⟨[sampleFile "decisions-2026-05-02.jsonl"], by decide⟩

def epochClock : String → DateTime := fun _ => 0

def decisionsMigrated (dir : DataDir) : Nat :=
  (migrateFromLegacy sampleMigrationCrates (.calm epochClock) .empty
    dir).store.decisions.rows.length

def decisionsResumed (dir : DataDir) : Nat :=
  (resumedMigration sampleMigrationCrates (.calm epochClock) 1 .empty dir
    epochClock).store.decisions.rows.length

theorem CrashSafe.decisions_eq {dir : DataDir}
    (safe : CrashSafe sampleMigrationCrates (.calm epochClock) 1 .empty dir epochClock epochClock) :
    decisionsResumed dir = decisionsMigrated dir :=
  congrArg (fun content => content.decisions.length) safe

/-- A crash after the incident is stored loses the decision, and a crash before the
archiving of a decision file stores its decision twice. -/
theorem crash_loses_or_repeats_decision :
    (decisionsMigrated incidentAndDecision = 1 ∧ decisionsResumed incidentAndDecision = 0 ∧
      ¬CrashSafe sampleMigrationCrates (.calm epochClock) 1 .empty incidentAndDecision epochClock
        epochClock) ∧
    decisionsMigrated decisionOnly = 1 ∧ decisionsResumed decisionOnly = 2 ∧
      ¬CrashSafe sampleMigrationCrates (.calm epochClock) 1 .empty decisionOnly epochClock
        epochClock := by
  have migrated : decisionsMigrated incidentAndDecision = 1 := by decide +kernel
  have lost : decisionsResumed incidentAndDecision = 0 := by decide +kernel
  have migratedOnce : decisionsMigrated decisionOnly = 1 := by decide +kernel
  have repeated : decisionsResumed decisionOnly = 2 := by decide +kernel
  refine ⟨⟨migrated, lost, ?_⟩, migratedOnce, repeated, ?_⟩
  · intro safe
    have counts := safe.decisions_eq
    rw [migrated, lost] at counts
    cases counts
  · intro safe
    have counts := safe.decisions_eq
    rw [migratedOnce, repeated] at counts
    cases counts

/-- A crash once the incident and the decision are stored is safe. -/
theorem crashSafe_iff_stored :
    Store.empty.events = [] ∧ Store.empty.incidents = [] ∧
      CrashSafe sampleMigrationCrates (.calm epochClock) 2 .empty incidentAndDecision epochClock
        epochClock :=
  ⟨rfl, rfl, (crashSafe_iff sampleMigrationCrates (.calm epochClock) 2 .empty incidentAndDecision
    epochClock epochClock rfl rfl).mpr (by decide +kernel)⟩

end Innerwarden

import Innerwarden.Store.Migration

/-!
# The phases of the migration

What the four `migrate_*` functions do, as spec lemmas: which steps they take and which files
they hand to `archive_files`.  The files of snapshots and blobs are archived only once they are
written (`WholeFile`).
-/

namespace Innerwarden

open Text KeyedTable List

variable {crates : MigrationCrates}

/-! ## File names -/

variable {dir : DataDir} {pre : String} {f : LegacyFile} {name : String} {env : Environment}
  {step : MigrationStep}

theorem mem_findMatchingFiles {suf : String} :
    f ∈ findMatchingFiles dir pre suf ↔
      f ∈ dir.files ∧ startsWith f.name pre ∧ endsWith f.name suf := by
  simp [findMatchingFiles, mem_insertionSort]

theorem DataDir.eq_of_name {g : LegacyFile} (hf : f ∈ dir.files) (hg : g ∈ dir.files)
    (h : f.name = g.name) : f = g :=
  inj_on_of_nodup_map dir.nodup hf hg h

/-- A name has two beginnings only if one of them begins the other. -/
theorem not_startsWith_both {pre' : String} (h : startsWith name pre)
    (hne : ¬pre.toList <+: pre'.toList) (hne' : ¬pre'.toList <+: pre.toList) :
    ¬startsWith name pre' := by
  intro h'
  rcases prefix_or_prefix_of_prefix (List.isPrefixOf_iff_prefix.mp h)
    (List.isPrefixOf_iff_prefix.mp h') with both | both
  · exact hne both
  · exact hne' both

/-- A name that begins with `pre` and ends with `suf` is the two around what is
stripped out, when no part of `pre` can begin `suf`. -/
theorem strip_eq_some {suf : String} (hpre : startsWith name pre) (hsuf : endsWith name suf)
    {c : Char} (hc : suf.toList.head? = some c) (apart : c ∉ pre.toList) :
    ∃ middle, (stripPrefix name pre).bind (stripSuffix · suf) = some middle ∧
      name.toList = pre.toList ++ middle.toList ++ suf.toList := by
  obtain ⟨tail, htail⟩ := isPrefixOf_iff_prefix.mp hpre
  obtain ⟨head, hhead⟩ := isSuffixOf_iff_suffix.mp hsuf
  -- The ending lies after the beginning.
  have after : ∃ m, tail = m ++ suf.toList := by
    rcases append_eq_append_iff.mp (htail.trans hhead.symm) with ⟨m, -, hm⟩ | ⟨m, hm, hsuf'⟩
    · exact ⟨m, hm⟩
    · cases m with
      | nil => exact ⟨[], hsuf'.symm⟩
      | cons d m =>
        -- The ending would begin within the beginning.
        rw [hsuf', cons_append, head?_cons, Option.some.injEq] at hc
        subst hc
        refine absurd ?_ apart
        rw [hm]
        exact mem_append_right _ (mem_cons_self ..)
  obtain ⟨m, rfl⟩ := after
  refine ⟨String.ofList m, ?_, ?_⟩
  · have stripped : stripPrefix name pre = some (String.ofList (m ++ suf.toList)) := by
      unfold stripPrefix
      rw [if_pos hpre, ← htail, drop_left]
    have ends : endsWith (String.ofList (m ++ suf.toList)) suf := by
      unfold endsWith
      rw [String.toList_ofList]
      exact isSuffixOf_iff_suffix.mpr (suffix_append ..)
    rw [stripped, Option.bind_some, stripSuffix, if_pos ends, String.toList_ofList,
      length_append, Nat.add_sub_cancel, take_left]
  · rw [String.toList_ofList, append_assoc, htail]

/-- The name of a snapshot file is made of its date. -/
theorem snapshotDate_spec (hpre : startsWith name "graph-snapshot-")
    (hsuf : endsWith name ".json") :
    name.toList =
      "graph-snapshot-".toList ++ (snapshotDate name).toList ++ ".json".toList := by
  obtain ⟨middle, stripped, spelled⟩ := strip_eq_some hpre hsuf (c := '.') rfl (by decide)
  rw [snapshotDate, stripped]
  exact spelled

/-! ## The steps of the phases -/

theorem mem_migrateJsonl {parse : String → Option MigrationStep} {skip : MigrationStep}
    (h : step ∈ (migrateJsonl parse skip pre env dir).steps) :
    step = skip ∨ ∃ line, parse line = some step := by
  obtain ⟨f, -, hstep⟩ := mem_flatMap.mp h
  obtain ⟨l, -, hstep⟩ := mem_flatMap.mp hstep
  unfold migrateLine at hstep
  split at hstep
  next => exact .inl (mem_singleton.mp hstep)
  next line _ =>
    dsimp only at hstep
    split at hstep
    next => cases hstep
    next =>
      split at hstep
      next parsed hparsed =>
        split at hstep
        next => exact .inr ⟨_, mem_singleton.mp hstep ▸ hparsed⟩
        next => exact .inl (mem_singleton.mp hstep)
      next => exact .inl (mem_singleton.mp hstep)

theorem startsWith_of_mem_migrateJsonl {parse : String → Option MigrationStep}
    {skip : MigrationStep} (h : name ∈ (migrateJsonl parse skip pre env dir).filesToArchive) :
    startsWith name pre := by
  obtain ⟨f, hf, rfl⟩ := mem_map.mp h
  exact (mem_findMatchingFiles.mp (mem_of_mem_filter hf)).2.1

/-- A step of the JSONL files writes under no key and archives no file. -/
theorem jsonl_step
    (h : step ∈ (migrateIncidentsJsonl crates env dir).steps ∨
      step ∈ (migrateDecisionsJsonl crates env dir).steps) :
    step.snapshot? = none ∧ step.blob? = none ∧ ∀ name, step ≠ .archive name := by
  rcases h with h | h
  · rcases mem_migrateJsonl h with rfl | ⟨line, parsed⟩
    · exact ⟨rfl, rfl, nofun⟩
    · obtain ⟨i, -, rfl⟩ := Option.map_eq_some_iff.mp parsed
      exact ⟨rfl, rfl, nofun⟩
  · rcases mem_migrateJsonl h with rfl | ⟨line, parsed⟩
    · exact ⟨rfl, rfl, nofun⟩
    · obtain ⟨v, -, rfl⟩ := Option.map_eq_some_iff.mp parsed
      exact ⟨rfl, rfl, nofun⟩

/-- The snapshot a file holds, under its date. -/
def snapshotEntry (crates : MigrationCrates) (f : LegacyFile) : Option (String × GraphSnapshot) :=
  if startsWith f.name "graph-snapshot-" ∧ endsWith f.name ".json" then
    some (snapshotDate f.name, graphSnapshotOf crates f)
  else none

/-- The blob a file holds, under its name. -/
def blobEntry (f : LegacyFile) : Option (String × String) :=
  (stateBlobMappings.find? fun m => m.1 = f.name).bind fun m =>
    (decodeUtf8 f.content).bind fun content =>
      if (trim content).isEmpty then none else some (m.2, trim content)

theorem mem_migrateGraphSnapshots :
    step ∈ (migrateGraphSnapshots crates env dir).steps ↔
      ∃ f ∈ dir.files, ∃ w, snapshotEntry crates f = some w ∧
        (env.opens f.name ∧ env.writes f.name 0) ∧
        .saveGraphSnapshot w.1 w.2 (env.now f.name) = step := by
  simp only [migrateGraphSnapshots, mem_map, mem_filter, mem_findMatchingFiles,
    Bool.and_eq_true, snapshotEntry]
  constructor
  · rintro ⟨f, ⟨⟨hf, hname⟩, answers⟩, rfl⟩
    exact ⟨f, hf, _, if_pos hname, answers, rfl⟩
  · rintro ⟨f, hf, w, entry, answers, rfl⟩
    obtain ⟨hname, entry⟩ := Option.ite_none_right_eq_some.mp entry
    cases entry
    exact ⟨f, ⟨⟨hf, hname⟩, answers⟩, rfl⟩

/-- A snapshot file is archived only once its snapshot is saved. -/
theorem mem_migrateGraphSnapshots_archive
    (h : name ∈ (migrateGraphSnapshots crates env dir).filesToArchive) :
    startsWith name "graph-snapshot-" ∧ env.opens name ∧ env.writes name 0 := by
  obtain ⟨f, hf, rfl⟩ := mem_map.mp h
  obtain ⟨hf, answers⟩ := mem_filter.mp hf
  exact ⟨(mem_findMatchingFiles.mp hf).2.1, by simpa using answers⟩

theorem migrateStateBlob_eq (env : Environment) (dir : DataDir) (m : String × String) :
    migrateStateBlob env dir m = ⟨[], []⟩ ∨
      ∃ f ∈ dir.files, f.name = m.1 ∧ migrateStateBlob env dir m = migrateBlobFile env f m.2 := by
  unfold migrateStateBlob
  split
  next => exact .inl rfl
  next f found =>
    have hname : f.name = m.1 := by simpa using find?_some found
    exact .inr ⟨f, mem_of_find?_eq_some found, hname, rfl⟩

theorem migrateStateBlob_of_mem {m : String × String} (hf : f ∈ dir.files) (hname : f.name = m.1) :
    migrateStateBlob env dir m = migrateBlobFile env f m.2 := by
  unfold migrateStateBlob
  split
  next absent => simpa [hname] using find?_eq_none.mp absent f hf
  next g found =>
    have hg : g.name = m.1 := by simpa using find?_some found
    rw [DataDir.eq_of_name (mem_of_find?_eq_some found) hf (hg.trans hname.symm)]

/-- Every mapping is the only one of its file, and of its blob. -/
theorem stateBlobMappings_find : ∀ m ∈ stateBlobMappings,
    stateBlobMappings.find? (fun m' => m'.1 = m.1) = some m ∧
      stateBlobMappings.find? (fun m' => m'.2 = m.2) = some m := by
  decide

theorem blobEntry_eq_some {w : String × String} :
    blobEntry f = some w ↔
      ∃ m ∈ stateBlobMappings, m.1 = f.name ∧ ∃ content, decodeUtf8 f.content = some content ∧
        ¬(trim content).isEmpty ∧ (m.2, trim content) = w := by
  constructor
  · intro entry
    obtain ⟨m, found, entry⟩ := Option.bind_eq_some_iff.mp entry
    obtain ⟨content, decoded, entry⟩ := Option.bind_eq_some_iff.mp entry
    obtain ⟨full, entry⟩ := Option.ite_none_left_eq_some.mp entry
    have hname : m.1 = f.name := by simpa using find?_some found
    exact ⟨m, mem_of_find?_eq_some found, hname, content, decoded, full,
      Option.some.inj entry⟩
  · rintro ⟨m, hm, hname, content, decoded, full, rfl⟩
    simp only [blobEntry, ← hname, (stateBlobMappings_find m hm).1, decoded, Option.bind_some,
      if_neg full]

theorem migrateBlobFile_cases (env : Environment) (f : LegacyFile) (blobName : String) :
    migrateBlobFile env f blobName = ⟨[], []⟩ ∨
      (∃ content, decodeUtf8 f.content = some content ∧ (trim content).isEmpty ∧
        migrateBlobFile env f blobName = ⟨[], [f.name]⟩) ∨
      ∃ content, decodeUtf8 f.content = some content ∧ ¬(trim content).isEmpty ∧
        (env.opens f.name ∧ env.writes f.name 0) ∧
        migrateBlobFile env f blobName =
          ⟨[.setBlob blobName (trim content) (env.now f.name)], [f.name]⟩ := by
  unfold migrateBlobFile
  by_cases opened : env.opens f.name
  · rw [if_pos opened]
    cases decoded : decodeUtf8 f.content with
    | none => exact .inl rfl
    | some content =>
      dsimp only
      split
      next empty => exact .inr (.inl ⟨content, rfl, empty, rfl⟩)
      next full =>
        split
        next written => exact .inr (.inr ⟨content, rfl, full, ⟨opened, written⟩, rfl⟩)
        next => exact .inl rfl
  · rw [if_neg opened]
    exact .inl rfl

theorem mem_migrateStateBlobs :
    step ∈ (migrateStateBlobs env dir).steps ↔
      ∃ f ∈ dir.files, ∃ w, blobEntry f = some w ∧ (env.opens f.name ∧ env.writes f.name 0) ∧
        .setBlob w.1 w.2 (env.now f.name) = step := by
  simp only [migrateStateBlobs, Phase.concat, mem_flatMap, mem_map]
  constructor
  · rintro ⟨-, ⟨m, hm, rfl⟩, hstep⟩
    rcases migrateStateBlob_eq env dir m with none | ⟨f, hf, hname, heq⟩
    · rw [none] at hstep
      cases hstep
    · rw [heq] at hstep
      rcases migrateBlobFile_cases env f m.2 with none | ⟨_, -, -, none⟩ |
          ⟨content, decoded, full, answers, set⟩
      · rw [none] at hstep
        cases hstep
      · rw [none] at hstep
        cases hstep
      · rw [set] at hstep
        exact ⟨f, hf, _, blobEntry_eq_some.mpr ⟨m, hm, hname.symm, content, decoded, full, rfl⟩,
          answers, (mem_singleton.mp hstep).symm⟩
  · rintro ⟨f, hf, w, entry, ⟨opened, written⟩, rfl⟩
    obtain ⟨m, hm, hname, content, decoded, full, rfl⟩ := blobEntry_eq_some.mp entry
    refine ⟨_, ⟨m, hm, rfl⟩, ?_⟩
    rw [migrateStateBlob_of_mem hf hname.symm]
    simp [migrateBlobFile, opened, decoded, full, written]

theorem mapping_of_mem_migrateStateBlobs (h : name ∈ (migrateStateBlobs env dir).filesToArchive) :
    ∃ m ∈ stateBlobMappings, m.1 = name ∧
      ∃ f ∈ dir.files, f.name = name ∧ name ∈ (migrateBlobFile env f m.2).filesToArchive := by
  simp only [migrateStateBlobs, Phase.concat, mem_flatMap, mem_map] at h
  obtain ⟨-, ⟨m, hm, rfl⟩, h⟩ := h
  rcases migrateStateBlob_eq env dir m with none | ⟨f, hf, hname, heq⟩
  · rw [none] at h
    cases h
  · rw [heq] at h
    have same : name = f.name := by
      rcases migrateBlobFile_cases env f m.2 with none | ⟨_, -, -, one⟩ | ⟨_, -, -, -, one⟩
      · rw [none] at h
        cases h
      · rw [one] at h
        exact mem_singleton.mp h
      · rw [one] at h
        exact mem_singleton.mp h
    exact ⟨m, hm, hname.symm.trans same.symm, f, hf, same.symm, h⟩

/-- A file with a blob in it is archived only once the blob is set. -/
theorem answers_of_mem_migrateBlobFile {blobName : String} {w : String × String}
    (entry : blobEntry f = some w) (h : f.name ∈ (migrateBlobFile env f blobName).filesToArchive) :
    env.opens f.name ∧ env.writes f.name 0 := by
  obtain ⟨-, -, -, content, decoded, full, -⟩ := blobEntry_eq_some.mp entry
  rcases migrateBlobFile_cases env f blobName with none | ⟨content', decoded', empty, -⟩ |
      ⟨-, -, -, answers, -⟩
  · rw [none] at h
    cases h
  · rw [decoded] at decoded'
    cases decoded'
    exact absurd empty full
  · exact answers

/-! ## Files that are read as a whole -/

/-- A kind of files, each with one entry of a key-value table: a run stores the
entry of every file it can read and write, and archives the file only then. -/
structure WholeFile {ν : Type} (crates : MigrationCrates)
    (stored : MigrationStep → Option (String × ν)) (entry : LegacyFile → Option (String × ν)) :
    Prop where
  stores : ∀ env dir w, w ∈ (migratePhases crates env dir).steps.filterMap stored ↔
    ∃ f ∈ dir.files, entry f = some w ∧ env.opens f.name ∧ env.writes f.name 0
  archives : ∀ env dir f w, f ∈ dir.files → entry f = some w →
    f.name ∈ (migratePhases crates env dir).filesToArchive →
      env.opens f.name ∧ env.writes f.name 0
  stored_archive : ∀ name, stored (.archive name) = none
  name_of_key : ∀ f f' w w', entry f = some w → entry f' = some w' → w.1 = w'.1 →
    f.name = f'.name

theorem mem_migratePhases :
    step ∈ (migratePhases crates env dir).steps ↔
      (step ∈ (migrateIncidentsJsonl crates env dir).steps ∨
        step ∈ (migrateDecisionsJsonl crates env dir).steps) ∨
      step ∈ (migrateGraphSnapshots crates env dir).steps ∨
      step ∈ (migrateStateBlobs env dir).steps := by
  simp [migratePhases, Phase.concat, or_assoc]

theorem mem_migratePhases_archive :
    name ∈ (migratePhases crates env dir).filesToArchive ↔
      name ∈ (migrateIncidentsJsonl crates env dir).filesToArchive ∨
      name ∈ (migrateDecisionsJsonl crates env dir).filesToArchive ∨
      name ∈ (migrateGraphSnapshots crates env dir).filesToArchive ∨
      name ∈ (migrateStateBlobs env dir).filesToArchive := by
  simp [migratePhases, Phase.concat]

theorem stateBlobMappings_names : ∀ m ∈ stateBlobMappings,
    ¬startsWith m.1 "incidents-" ∧ ¬startsWith m.1 "decisions-" ∧
      ¬startsWith m.1 "graph-snapshot-" := by
  decide

/-- The snapshot files. -/
theorem wholeFile_snapshots (crates : MigrationCrates) :
    WholeFile crates MigrationStep.snapshot? (snapshotEntry crates) where
  stores := by
    intro env dir w
    rw [mem_filterMap]
    constructor
    · rintro ⟨step, hstep, hw⟩
      rcases mem_migratePhases.mp hstep with h | h | h
      · cases (jsonl_step h).1.symm.trans hw
      · obtain ⟨f, hf, v, entry, answers, rfl⟩ := mem_migrateGraphSnapshots.mp h
        cases hw
        exact ⟨f, hf, entry, answers⟩
      · obtain ⟨f, hf, v, entry, answers, rfl⟩ := mem_migrateStateBlobs.mp h
        cases hw
    · rintro ⟨f, hf, entry, answers⟩
      exact ⟨_, mem_migratePhases.mpr
        (.inr (.inl (mem_migrateGraphSnapshots.mpr ⟨f, hf, w, entry, answers, rfl⟩))), rfl⟩
  archives := by
    intro env dir f w hf entry h
    have named : startsWith f.name "graph-snapshot-" :=
      (Option.ite_none_right_eq_some.mp entry).1.1
    rcases mem_migratePhases_archive.mp h with h | h | h | h
    · exact absurd (startsWith_of_mem_migrateJsonl h)
        (not_startsWith_both named (by decide) (by decide))
    · exact absurd (startsWith_of_mem_migrateJsonl h)
        (not_startsWith_both named (by decide) (by decide))
    · exact (mem_migrateGraphSnapshots_archive h).2
    · obtain ⟨m, hm, hname, -⟩ := mapping_of_mem_migrateStateBlobs h
      rw [← hname] at named
      exact absurd named (stateBlobMappings_names m hm).2.2
  stored_archive := fun _ => rfl
  name_of_key := by
    intro f f' w w' entry entry' hkey
    obtain ⟨⟨hpre, hsuf⟩, hw⟩ := Option.ite_none_right_eq_some.mp entry
    obtain ⟨⟨hpre', hsuf'⟩, hw'⟩ := Option.ite_none_right_eq_some.mp entry'
    cases hw
    cases hw'
    have hdate : snapshotDate f.name = snapshotDate f'.name := hkey
    exact String.toList_injective
      (by rw [snapshotDate_spec hpre hsuf, snapshotDate_spec hpre' hsuf', hdate])

/-- The files of the mappings. -/
theorem wholeFile_blobs (crates : MigrationCrates) :
    WholeFile crates MigrationStep.blob? blobEntry where
  stores := by
    intro env dir w
    rw [mem_filterMap]
    constructor
    · rintro ⟨step, hstep, hw⟩
      rcases mem_migratePhases.mp hstep with h | h | h
      · cases (jsonl_step h).2.1.symm.trans hw
      · obtain ⟨f, hf, v, entry, answers, rfl⟩ := mem_migrateGraphSnapshots.mp h
        cases hw
      · obtain ⟨f, hf, v, entry, answers, rfl⟩ := mem_migrateStateBlobs.mp h
        cases hw
        exact ⟨f, hf, entry, answers⟩
    · rintro ⟨f, hf, entry, answers⟩
      exact ⟨_, mem_migratePhases.mpr
        (.inr (.inr (mem_migrateStateBlobs.mpr ⟨f, hf, w, entry, answers, rfl⟩))), rfl⟩
  archives := by
    intro env dir f w hf entry h
    obtain ⟨m, hm, hname, -⟩ := blobEntry_eq_some.mp entry
    obtain ⟨incidents, decisions, snapshots⟩ := stateBlobMappings_names m hm
    rw [hname] at incidents decisions snapshots
    rcases mem_migratePhases_archive.mp h with h | h | h | h
    · exact absurd (startsWith_of_mem_migrateJsonl h) incidents
    · exact absurd (startsWith_of_mem_migrateJsonl h) decisions
    · exact absurd (mem_migrateGraphSnapshots_archive h).1 snapshots
    · obtain ⟨_, -, -, g, hg, sameName, h⟩ := mapping_of_mem_migrateStateBlobs h
      cases DataDir.eq_of_name hg hf sameName
      exact answers_of_mem_migrateBlobFile entry h
  stored_archive := fun _ => rfl
  name_of_key := by
    intro f f' w w' entry entry' hkey
    obtain ⟨m, hm, hname, _, -, -, rfl⟩ := blobEntry_eq_some.mp entry
    obtain ⟨m', hm', hname', _, -, -, rfl⟩ := blobEntry_eq_some.mp entry'
    have hblob : m.2 = m'.2 := hkey
    have found := (stateBlobMappings_find m hm).2
    rw [hblob, (stateBlobMappings_find m' hm').2] at found
    rw [← hname, ← hname', Option.some.inj found]

end Innerwarden

import Innerwarden.Store.ChainVerification

/-!
# What tampering the SQLite chain shows

*Does the last `row_hash` fix the stored `data`?*  The hash of a row is taken over
`prev_hash || data` with nothing between them, and the first row has no `prev_hash`.  So a first
row whose `data` starts with a row hash can stand for a later row of a longer chain.
`data_eq_iff_not_resplit` says that this is the only gap, when SHA-256 has no collision on the
bytes the two chains hash.

*Does a changed column show?*  The columns the audit view prints are not hashed, and the verifier
accepts any change to them (`detected_iff`).
-/

namespace Innerwarden

open HashChain Digest Text List Decisions

variable (sha256 : ByteArray → Digest)

/-! ## The bytes under the hash -/

theorem hashInput_some (ph data : String) :
    hashInput (some ph) data = (ph ++ data).toByteArray :=
  String.toByteArray_append.symm

theorem hashInput_some_inj {p q d e : String} (hlen : p.length = q.length)
    (h : hashInput (some p) d = hashInput (some q) e) : p = q ∧ d = e := by
  rw [hashInput_some, hashInput_some, String.toByteArray_inj] at h
  have hlist : p.toList ++ d.toList = q.toList ++ e.toList := by
    rw [← String.toList_append, ← String.toList_append, h]
  obtain ⟨hp, hd⟩ := append_inj hlist (by rw [String.length_toList, String.length_toList, hlen])
  exact ⟨String.toList_inj.mp hp, String.toList_inj.mp hd⟩

def Decisions.hashInputs (t : Decisions) : List ByteArray :=
  t.rows.map fun r => hashInput r.prevHash r.data

/-! ## Two chains with the same last hash -/

/-- The first row of `T'` stores, as its `data`, the hash of a row of `T` followed
by the `data` of the next row, and as many rows follow in `T'` as in `T`. -/
def Resplit (T T' : Decisions) : Prop :=
  ∃ pre q r post first rest, T.rows = pre ++ q :: r :: post ∧ T'.rows = first :: rest ∧
    post.length = rest.length ∧ first.data = q.rowHash ++ r.data

theorem Resplit.length_lt {T T' : Decisions} (h : Resplit T T') :
    T'.rows.length < T.rows.length := by
  obtain ⟨pre, q, r, post, first, rest, hT, hT', hlen, -⟩ := h
  rw [hT, hT']
  simp only [length_append, length_cons]
  omega

/-- Two chained tables that end in the same hash, with no collision between them. -/
structure SameHead (T T' : Decisions) : Prop where
  collisionFree : CollisionFree sha256 (T.hashInputs ++ T'.hashInputs)
  chained : T.Chained sha256
  chained' : T'.Chained sha256
  last : T.rows.getLast?.map StoredDecision.rowHash = T'.rows.getLast?.map StoredDecision.rowHash

variable {sha256} {T T' : Decisions}

theorem SameHead.symm (h : SameHead sha256 T T') : SameHead sha256 T' T where
  collisionFree := fun _ hx _ hy => h.collisionFree
    (mem_append.mpr (mem_append.mp hx).symm)
    (mem_append.mpr (mem_append.mp hy).symm)
  chained := h.chained'
  chained' := h.chained
  last := h.last.symm

theorem SameHead.hashInput_eq (h : SameHead sha256 T T') {a b : StoredDecision}
    (ha : a ∈ T.rows) (hb : b ∈ T'.rows) (he : a.rowHash = b.rowHash) :
    hashInput a.prevHash a.data = hashInput b.prevHash b.data := by
  rw [h.chained.2 a ha, h.chained'.2 b hb] at he
  exact h.collisionFree (mem_append_left _ (mem_map_of_mem ha))
    (mem_append_right _ (mem_map_of_mem hb)) (lowerHex_injective he)

variable {r : StoredDecision} {pre post : List StoredDecision}

theorem Decisions.Chained.length_rowHash (h : T.Chained sha256) (hr : r ∈ T.rows) :
    r.rowHash.length = 64 := by
  rw [h.2 r hr, length_computeHash]

theorem Decisions.Chained.prevHash_zero (h : T.Chained sha256) (h0 : 0 < T.rows.length) :
    T.rows[0].prevHash = none := by
  obtain ⟨r, rs, hrs⟩ := exists_cons_of_length_pos h0
  have hl := h.1
  simp only [hrs, Linked] at hl
  simp only [hrs, getElem_cons_zero, hl.1]

theorem Decisions.Chained.prevHash_succ (h : T.Chained sha256) {i : Nat}
    (hi : i + 1 < T.rows.length) :
    T.rows[i + 1].prevHash = some T.rows[i].rowHash :=
  isChain_iff_getElem.mp h.1.isChain i hi

theorem SameHead.rowHash_eq (h : SameHead sha256 T T') {i j k : Nat}
    (hi : i + k + 1 = T.rows.length) (hj : j + k + 1 = T'.rows.length) :
    (T.rows[i]).rowHash = (T'.rows[j]).rowHash := by
  refine agree_back (E := fun a b => a.rowHash = b.rowHash) h.chained.1.isChain
    h.chained'.1.isChain ?_ k (i := i) (j := j) (by omega) (by omega) ?_
  · intro a ha a' ha' b hb b' hb' hab hbb he
    have input := h.hashInput_eq ha' hb' he
    rw [hab, hbb] at input
    refine (hashInput_some_inj ?_ input).1
    rw [h.chained.length_rowHash ha, h.chained'.length_rowHash hb]
  · have last := h.last
    rw [getLast?_eq_getElem?, getLast?_eq_getElem?,
      getElem?_eq_getElem (by omega), getElem?_eq_getElem (by omega)] at last
    have hi' : T.rows.length - 1 = i + k := by omega
    have hj' : T'.rows.length - 1 = j + k := by omega
    simpa [hi', hj'] using last

theorem SameHead.data_eq_of_length_eq (h : SameHead sha256 T T')
    (hlen : T.rows.length = T'.rows.length) :
    T.rows.map StoredDecision.data = T'.rows.map StoredDecision.data := by
  refine ext_getElem (by simpa using hlen) fun i hi hi' => ?_
  simp only [length_map] at hi hi'
  rw [getElem_map, getElem_map]
  have he := h.rowHash_eq (i := i) (j := i) (k := T.rows.length - 1 - i) (by omega) (by omega)
  have input := h.hashInput_eq (getElem_mem hi) (getElem_mem hi') he
  cases i with
  | zero =>
    rw [h.chained.prevHash_zero hi, h.chained'.prevHash_zero hi'] at input
    exact String.toByteArray_inj.mp input
  | succ i =>
    rw [h.chained.prevHash_succ hi, h.chained'.prevHash_succ hi'] at input
    refine (hashInput_some_inj ?_ input).2
    rw [h.chained.length_rowHash (getElem_mem _),
      h.chained'.length_rowHash (getElem_mem _)]

/-- The first row of the shorter table stands for merged rows of the longer one. -/
theorem SameHead.resplit_of_length_lt (h : SameHead sha256 T T')
    (hlt : T'.rows.length < T.rows.length) : Resplit T T' := by
  have hpos : 0 < T'.rows.length := by
    by_contra h0
    have nil' : T'.rows = [] := length_eq_zero_iff.mp (by omega)
    have last := h.last
    rw [nil', getLast?_nil, Option.map_none, Option.map_eq_none_iff,
      getLast?_eq_none_iff] at last
    rw [last] at hlt
    simp at hlt
  obtain ⟨i, hi⟩ : ∃ i, T.rows.length = i + 1 + T'.rows.length :=
    ⟨T.rows.length - T'.rows.length - 1, by omega⟩
  have he := h.rowHash_eq (i := i + 1) (j := 0) (k := T'.rows.length - 1) (by omega) (by omega)
  have input := h.hashInput_eq (getElem_mem _) (getElem_mem _) he
  rw [h.chained.prevHash_succ, h.chained'.prevHash_zero, hashInput_some] at input
  obtain ⟨first, rest, hrest⟩ := exists_cons_of_length_pos hpos
  refine ⟨T.rows.take i, T.rows[i], T.rows[i + 1], T.rows.drop (i + 2), first, rest, ?_, hrest,
    ?_, ?_⟩
  · rw [getElem_cons_drop, getElem_cons_drop, take_append_drop]
  · rw [length_drop, hi, hrest, length_cons]
    omega
  · have hdata := String.toByteArray_inj.mp input
    simp only [hrest, getElem_cons_zero] at hdata
    exact hdata.symm

/-- For two tables the verifier accepts and whose last rows carry the same hash,
the stored data agree exactly when neither table's first row stands for merged
rows of the other. -/
theorem data_eq_iff_not_resplit (sha256 : ByteArray → Digest) (T T' : Decisions)
    (hcf : CollisionFree sha256 (T.hashInputs ++ T'.hashInputs))
    (hT : (verifyHashChain sha256 .empty T).intact = true)
    (hT' : (verifyHashChain sha256 .empty T').intact = true)
    (hlast : T.rows.getLast?.map StoredDecision.rowHash =
      T'.rows.getLast?.map StoredDecision.rowHash) :
    T.rows.map StoredDecision.data = T'.rows.map StoredDecision.data ↔
      ¬ Resplit T T' ∧ ¬ Resplit T' T := by
  have h : SameHead sha256 T T' :=
    ⟨hcf, (verifyHashChain_empty_iff sha256 T).mp hT, (verifyHashChain_empty_iff sha256 T').mp hT',
      hlast⟩
  constructor
  · intro hdata
    have hlen : T.rows.length = T'.rows.length := by
      simpa using congrArg List.length hdata
    exact ⟨fun hr => absurd hr.length_lt (by omega), fun hr => absurd hr.length_lt (by omega)⟩
  · rintro ⟨hr, hr'⟩
    rcases Nat.lt_trichotomy T.rows.length T'.rows.length with hlt | heq | hlt
    · exact absurd (h.symm.resplit_of_length_lt hlt) hr'
    · exact h.data_eq_of_length_eq heq
    · exact absurd (h.resplit_of_length_lt hlt) hr

/-- Two decisions, inserted one after the other. -/
def splitTable : Decisions :=
  Decisions.empty.insertAll sampleSha256
    [sampleDecision "2026-01-10T00:00:00+00:00" sampleData,
     sampleDecision "2026-04-30T00:00:00+00:00" sampleData]

/-- One row that stores the hash of the first decision and the data of the second. -/
def mergedTable : Decisions :=
  Decisions.empty.insertAll sampleSha256
    [sampleDecision "2026-04-30T00:00:00+00:00" (sampleHash ++ sampleData)]

/-- Both tables verify and end in the same hash, and no two inputs collide, but
the first decision is gone from the second table. -/
theorem merged_rows_verify :
    CollisionFree sampleSha256 (splitTable.hashInputs ++ mergedTable.hashInputs) ∧
    (verifyHashChain sampleSha256 .empty splitTable).intact = true ∧
    (verifyHashChain sampleSha256 .empty mergedTable).intact = true ∧
    splitTable.rows.getLast?.map StoredDecision.rowHash =
      mergedTable.rows.getLast?.map StoredDecision.rowHash ∧
    splitTable.rows.map StoredDecision.data ≠ mergedTable.rows.map StoredDecision.data := by
  decide

/-- The merged table is caught by the condition. -/
theorem data_eq_iff_not_resplit_mergedTable :
    Resplit splitTable mergedTable ∧
    (splitTable.rows.map StoredDecision.data = mergedTable.rows.map StoredDecision.data ↔
      ¬ Resplit splitTable mergedTable ∧ ¬ Resplit mergedTable splitTable) :=
  ⟨⟨[], _, _, [], _, [], rfl, rfl, rfl, by decide⟩,
    data_eq_iff_not_resplit sampleSha256 splitTable mergedTable (by decide) (by decide) (by decide)
      (by decide)⟩

/-! ## One changed column -/

/-- A new value for one column of a row. -/
inductive ColumnUpdate where
  | ts (value : String)
  | incidentId (value : String)
  | actionType (value : String)
  | targetIp (value : Option String)
  | targetUser (value : Option String)
  | confidence (value : Option F64)
  | autoExecuted (value : Int)
  | reason (value : Option String)
  | data (value : String)
  | prevHash (value : Option String)
  | rowHash (value : String)

/-- The row with the new value. -/
def ColumnUpdate.apply : ColumnUpdate → StoredDecision → StoredDecision
  | .ts v, r => { r with ts := v }
  | .incidentId v, r => { r with incidentId := v }
  | .actionType v, r => { r with actionType := v }
  | .targetIp v, r => { r with targetIp := v }
  | .targetUser v, r => { r with targetUser := v }
  | .confidence v, r => { r with confidence := v }
  | .autoExecuted v, r => { r with autoExecuted := v }
  | .reason v, r => { r with reason := v }
  | .data v, r => { r with data := v }
  | .prevHash v, r => { r with prevHash := v }
  | .rowHash v, r => { r with rowHash := v }

/-- The two columns that carry the chain. -/
def ColumnUpdate.OfHashColumn : ColumnUpdate → Prop
  | .prevHash _ => True
  | .rowHash _ => True
  | _ => False

@[simp] theorem ColumnUpdate.apply_id (u : ColumnUpdate) (r : StoredDecision) :
    (u.apply r).id = r.id := by
  cases u <;> rfl

/-- `UPDATE decisions SET column = value WHERE id = rowid`. -/
def Decisions.update (t : Decisions) (rowid : Int) (u : ColumnUpdate) : Decisions where
  rows := t.rows.map fun r => if r.id = rowid then u.apply r else r
  sorted := by
    refine pairwise_map.mpr (t.sorted.imp fun {a b} hab => ?_)
    have same : ∀ r : StoredDecision, (if r.id = rowid then u.apply r else r).id = r.id := by
      intro r
      split
      · exact u.apply_id r
      · rfl
    rw [same, same]
    exact hab

theorem Decisions.update_rows {t : Decisions} (h : t.rows = pre ++ r :: post) (u : ColumnUpdate) :
    (t.update r.id u).rows = pre ++ u.apply r :: post := by
  obtain ⟨before, after⟩ := ids_around h
  have keep : ∀ l : List StoredDecision, (∀ q ∈ l, q.id ≠ r.id) →
      (l.map fun q => if q.id = r.id then u.apply q else q) = l := by
    intro l hl
    refine (map_congr_left fun q hq => if_neg (hl q hq)).trans (map_id l)
  show t.rows.map _ = _
  rw [h, map_append, map_cons, keep pre fun q hq => Int.ne_of_lt (before q hq),
    keep post fun q hq => (Int.ne_of_lt (after q hq)).symm, if_pos rfl]

/-! ### What the verifier sees of it -/

/-- A row the verifier cannot tell from `r`. -/
def SameToVerifier (r r' : StoredDecision) : Prop :=
  r'.id = r.id ∧ r'.prevHash = r.prevHash ∧ r'.rowHash = r.rowHash ∧ r'.data = r.data

theorem passes_replace (breaks : List (Int × Int)) {p : Option String} {r' : StoredDecision}
    (h : SameToVerifier r r') (hp : Passes sha256 breaks p (pre ++ r :: post)) :
    Passes sha256 breaks p (pre ++ r' :: post) := by
  obtain ⟨hid, hprev, hhash, hdata⟩ := h
  induction pre generalizing p with
  | nil =>
    obtain ⟨hr, hpost⟩ := hp
    refine ⟨fun hb => ?_, by rw [hhash]; exact hpost⟩
    obtain ⟨h1, h2⟩ := hr (hid ▸ hb)
    exact ⟨hprev.trans h1, by rw [hhash, hprev, hdata]; exact h2⟩
  | cons q pre ih => exact ⟨hp.1, ih hp.2⟩

/-- A change to a hash column of an uncovered row of a chained table is reported. -/
theorem hashColumn_reported {t : Decisions} (ht : t.Chained sha256) (a : ChainBreakAudit)
    (hr : r ∈ t.rows) (hc : ¬ a.Covers r.id) {u : ColumnUpdate} (hu : u.OfHashColumn)
    (hne : (u.apply r).toAuditRecord ≠ r.toAuditRecord) :
    (verifyHashChain sha256 a (t.update r.id u)).intact = false := by
  obtain ⟨pre, post, hrs⟩ := append_of_mem hr
  have hb : inBreak a.breaks r.id = false := by
    rw [inBreak_eq_decide, decide_eq_false_iff_not]
    exact hc
  obtain ⟨hprev, hhash⟩ :=
    (passes_iff sha256 _ _ _).mp (ht.passes sha256 a.breaks) pre r post hrs hb
  rw [← Bool.not_eq_true, verifyHashChain_intact_iff, update_rows hrs]
  intro hp
  obtain ⟨hprev', hhash'⟩ :=
    (passes_iff sha256 _ _ _).mp hp pre (u.apply r) post rfl (by rw [u.apply_id]; exact hb)
  -- the new value would have to be the old one
  cases u with
  | prevHash v =>
    have hv : v = r.prevHash := hprev'.trans hprev.symm
    exact hne (by rw [hv]; rfl)
  | rowHash v =>
    have hv : v = r.rowHash := hhash'.trans hhash.symm
    exact hne (by rw [hv]; rfl)
  | _ => cases hu

/-! ### What the audit view shows of it -/

theorem auditTrail_eq (t : Decisions) (beforeId : Option Int) (limit : Nat)
    (actionFilter : Option String) :
    auditTrail t beforeId limit actionFilter =
      (((t.rows.map StoredDecision.toAuditRecord).filter fun r =>
          decide (r.id < beforeId.getD i64Max) &&
          ((actionFilter.filter fun s => trim s ≠ "").map trim).all fun a => r.actionType == a)
        |>.reverse.take (max 1 (min limit 500))) := by
  rw [auditTrail, map_take, map_reverse, filter_map]
  rfl

/-- The record of one row, asked for by its id. -/
theorem auditTrail_single {t : Decisions} (h : t.rows = pre ++ r :: post) :
    auditTrail t (some (r.id + 1)) 1 none = [r.toAuditRecord] := by
  have upto : (t.rows.filter fun q => decide (q.id < r.id + 1)) = pre ++ [r] := by
    obtain ⟨before, after⟩ := ids_around h
    have front : pre.filter (fun q => decide (q.id < r.id + 1)) = pre :=
      filter_eq_self.mpr fun q hq => decide_eq_true (Int.lt_add_one_of_le (before q hq).le)
    have back : post.filter (fun q => decide (q.id < r.id + 1)) = [] := by
      rw [filter_eq_nil_iff]
      intro q hq
      rw [decide_eq_true_eq, not_lt]
      exact after q hq
    rw [h, filter_append, front, filter_cons, back,
      if_pos (decide_eq_true (Int.lt_succ r.id))]
  -- Without an action to filter by, the query is the one on ids.
  have kept : (t.rows.filter fun q => decide (q.id < r.id + 1) && true) = pre ++ [r] := by
    simp only [Bool.and_true, upto]
  calc auditTrail t (some (r.id + 1)) 1 none
      = ((t.rows.filter fun q => decide (q.id < r.id + 1) && true).reverse.take 1).map
          StoredDecision.toAuditRecord := rfl
    _ = ((pre ++ [r]).reverse.take 1).map StoredDecision.toAuditRecord := by rw [kept]
    _ = [r.toAuditRecord] := by rw [reverse_append]; rfl

/-- The query arguments as their types allow them: a cursor is an `i64`. -/
def ValidCursor (beforeId : Option Int) : Prop := ∀ b ∈ beforeId, b ≤ i64Max

/-- If the update changes what some query of the audit view returns, then the
verifier no longer reports the chain intact. -/
def Detected (sha256 : ByteArray → Digest) (a : ChainBreakAudit) (t : Decisions) (rowid : Int)
    (u : ColumnUpdate) : Prop :=
  (∃ beforeId limit actionFilter, ValidCursor beforeId ∧
    auditTrail (t.update rowid u) beforeId limit actionFilter ≠
      auditTrail t beforeId limit actionFilter) →
  (verifyHashChain sha256 a (t.update rowid u)).intact = false

theorem ColumnUpdate.sameToVerifier {u : ColumnUpdate} (hu : ¬ u.OfHashColumn)
    (hne : (u.apply r).toAuditRecord ≠ r.toAuditRecord) : SameToVerifier r (u.apply r) := by
  cases u with
  | data v => exact absurd rfl hne
  | prevHash v | rowHash v => exact absurd trivial hu
  | _ => exact ⟨rfl, rfl, rfl, rfl⟩

/-- For a table built by insertions and a row outside every documented range, a
changed column is detected in three cases only: it is a hash column, the view
shows the same record as before, or the view never shows the row. -/
theorem detected_iff (sha256 : ByteArray → Digest) (rows : List DecisionRow)
    (a : ChainBreakAudit) (r : StoredDecision)
    (hr : r ∈ (Decisions.empty.insertAll sha256 rows).rows) (hc : ¬ a.Covers r.id)
    (u : ColumnUpdate) :
    Detected sha256 a (Decisions.empty.insertAll sha256 rows) r.id u ↔
      u.OfHashColumn ∨ (u.apply r).toAuditRecord = r.toAuditRecord ∨ i64Max ≤ r.id := by
  have ht := (chained_empty sha256).insertAll sha256 rows
  revert hr ht
  generalize Decisions.empty.insertAll sha256 rows = t
  intro hr ht
  obtain ⟨pre, post, hrs⟩ := append_of_mem hr
  have hrs' := update_rows hrs u
  constructor
  · -- an uncovered column: the changed record can be asked for, and the chain verifies
    intro hd
    by_contra hn
    simp only [not_or, Int.not_le] at hn
    obtain ⟨hu, hne, hid⟩ := hn
    have cursor : ValidCursor (some (r.id + 1)) := by
      intro b hb
      rw [← Option.some.inj hb]
      exact hid
    have shown := auditTrail_single hrs'
    rw [u.apply_id] at shown
    have broken := hd ⟨some (r.id + 1), 1, none, cursor, by
      rw [shown, auditTrail_single hrs]
      exact fun h => hne (singleton_inj.mp h)⟩
    have passes := passes_replace a.breaks (u.sameToVerifier hu hne)
      (hrs ▸ ht.passes sha256 a.breaks)
    rw [← hrs', ← verifyHashChain_intact_iff, broken] at passes
    cases passes
  · rintro h ⟨beforeId, limit, actionFilter, cursor, hdiff⟩
    rw [auditTrail_eq, auditTrail_eq, hrs, hrs', map_append, map_append, map_cons,
      map_cons] at hdiff
    have changed : (u.apply r).toAuditRecord ≠ r.toAuditRecord := fun he => hdiff (by rw [he])
    rcases h with hu | he | hid
    · exact hashColumn_reported ht a hr hc hu changed
    · exact absurd he changed
    · -- no cursor reaches the row
      exfalso
      have hidden : ∀ q : StoredDecision, q.id = r.id →
          decide (q.toAuditRecord.id < beforeId.getD i64Max) = false := by
        intro q hq
        have hb : beforeId.getD i64Max ≤ i64Max := by
          cases beforeId with
          | none => exact Int.le_refl _
          | some b => exact cursor b rfl
        rw [decide_eq_false_iff_not, Int.not_lt]
        show beforeId.getD i64Max ≤ q.id
        omega
      refine hdiff ?_
      rw [filter_append, filter_append, filter_cons_of_neg, filter_cons_of_neg]
      · rw [hidden r rfl]; simp
      · rw [hidden _ (u.apply_id r)]; simp

/-- Turning the block of `splitTable` into a dismissal changes the view, and the
verifier still reports the chain intact. -/
theorem changed_action_verifies :
    auditTrail (splitTable.update 1 (.actionType "dismiss")) none 50 none ≠
      auditTrail splitTable none 50 none ∧
    (verifyHashChain sampleSha256 .empty
      (splitTable.update 1 (.actionType "dismiss"))).intact = true := by
  decide

/-- The first row of `splitTable`. -/
def splitRow : StoredDecision :=
  Decisions.empty.newRow sampleSha256 (sampleDecision "2026-01-10T00:00:00+00:00" sampleData)

theorem detected_iff_splitRow :
    Detected sampleSha256 .empty splitTable splitRow.id (.rowHash "") ↔
      (ColumnUpdate.rowHash "").OfHashColumn ∨
        ((ColumnUpdate.rowHash "").apply splitRow).toAuditRecord = splitRow.toAuditRecord ∨
        i64Max ≤ splitRow.id :=
  detected_iff sampleSha256 _ .empty splitRow (mem_cons_self ..) (by decide) _

end Innerwarden

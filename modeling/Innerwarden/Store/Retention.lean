import Innerwarden.Lib.StateMachine
import Innerwarden.Store.ChainVerification
import Innerwarden.Store.Tables

/-!
# Retention and the decision chain

`run_retention` of `crates/store/src/maintenance.rs` deletes every row of `decisions` whose `ts`
text is below the cutoff, and re-anchors nothing.  So the first row that is left after a deletion
at the front names a row that is gone.  `chain_intact_of_retainsPrefix` says when a run keeps the
chain intact: when no row that a deletion leaves follows a row that it deletes.
-/

namespace Innerwarden

open HashChain StateMachine

/-- The number of rows a retention deleted from each table. -/
structure RetentionResult where
  eventsDeleted : Nat := 0
  incidentsDeleted : Nat := 0
  decisionsDeleted : Nat := 0
  graphSnapshotsDeleted : Nat := 0

/-- `Store::run_retention` at the instant `now`.  A day count of zero leaves the
table alone. -/
def Store.runRetention (chrono : Chrono) (now : DateTime)
    (eventsDays incidentsDays decisionsDays graphSnapshotDays : Nat) (s : Store) :
    Store × RetentionResult :=
  let (s, events) :=
    if eventsDays > 0 then s.deleteEventsBefore (chrono.toRfc3339 (now - days eventsDays))
    else (s, 0)
  let (s, incidents) :=
    if incidentsDays > 0 then
      s.deleteIncidentsBefore (chrono.toRfc3339 (now - days incidentsDays))
    else (s, 0)
  let (decisions, deleted) :=
    if decisionsDays > 0 then
      s.decisions.deleteBefore (chrono.toRfc3339 (now - days decisionsDays))
    else (s.decisions, 0)
  let s := { s with decisions := decisions }
  let (s, snapshots) :=
    if graphSnapshotDays > 0 then
      s.deleteGraphSnapshotsBefore (chrono.formatDate (now - days graphSnapshotDays))
    else (s, 0)
  (s, ⟨events, incidents, deleted, snapshots⟩)

/-- A retention changes the decisions by its one `DELETE` and nothing else. -/
theorem Store.runRetention_decisions (chrono : Chrono) (now : DateTime) (e i d g : Nat)
    (s : Store) :
    (s.runRetention chrono now e i d g).1.decisions =
      if d > 0 then (s.decisions.deleteBefore (chrono.toRfc3339 (now - days d))).1
      else s.decisions := by
  simp only [runRetention, deleteEventsBefore, deleteIncidentsBefore,
    deleteGraphSnapshotsBefore]
  split <;> split <;> split <;> split <;> simp_all

theorem Store.runRetention_chainBreakAudit (chrono : Chrono) (now : DateTime) (e i d g : Nat)
    (s : Store) :
    (s.runRetention chrono now e i d g).1.chainBreakAudit = s.chainBreakAudit := by
  simp only [runRetention, deleteEventsBefore, deleteIncidentsBefore,
    deleteGraphSnapshotsBefore]
  split <;> split <;> split <;> split <;> rfl

/-! ## Deleting from a chain -/

variable (sha256 : ByteArray → Digest)

/-- No row that the deletion leaves follows a row it takes. -/
def Decisions.DeletesSuffix (t : Decisions) (cutoff : String) : Prop :=
  t.rows.Pairwise fun a b => a.ts < cutoff → b.ts < cutoff

instance (t : Decisions) (cutoff : String) : Decidable (t.DeletesSuffix cutoff) :=
  inferInstanceAs (Decidable (t.rows.Pairwise _))

theorem Decisions.Chained.deleteBefore {t : Decisions} (h : t.Chained sha256) {cutoff : String}
    (hs : t.DeletesSuffix cutoff) : (t.deleteBefore cutoff).1.Chained sha256 := by
  obtain ⟨hlinked, hsealed⟩ := h
  refine ⟨hlinked.of_prefix (isPrefix_filter (hs.imp ?_)), ?_⟩
  · intro a b hab hb
    simp only [Bool.not_eq_true', decide_eq_false_iff_not] at hb ⊢
    exact fun ha => hb (hab ha)
  · intro r hr
    exact hsealed r (List.mem_of_mem_filter hr)

/-! ## Runs -/

/-- The two operations that change the decisions. -/
inductive StoreOp where
  | insertDecision (row : DecisionRow)
  | runRetention (now : DateTime)
      (eventsDays incidentsDays decisionsDays graphSnapshotDays : Nat)

/-- What an operation returns. -/
inductive StoreAnswer where
  | inserted (id : Int)
  | retained (result : RetentionResult)

/-- One operation on the store. -/
def Store.step (chrono : Chrono) (s : Store) : StoreOp → Store × StoreAnswer
  | .insertDecision row =>
    let (decisions, id) := s.decisions.insertDecision sha256 row
    ({ s with decisions := decisions }, .inserted id)
  | .runRetention now e i d g =>
    let (s, result) := s.runRetention chrono now e i d g
    (s, .retained result)

/-- The store under insertions and retentions, from a fresh database. -/
def storeMachine (chrono : Chrono) : StateMachine Store StoreOp StoreAnswer where
  init := .empty
  step := Store.step sha256 chrono

/-- An insertion meets this condition.  A retention meets it when it leaves the
decisions alone or takes a suffix of them. -/
def RetainsPrefix (chrono : Chrono) (s : Store) : StoreOp → Prop
  | .insertDecision _ => True
  | .runRetention now _ _ decisionsDays _ => decisionsDays > 0 →
      s.decisions.DeletesSuffix (chrono.toRfc3339 (now - days decisionsDays))

/-- No break is registered and the decisions are chained. -/
def Store.Intact (s : Store) : Prop :=
  s.chainBreakAudit = .empty ∧ s.decisions.Chained sha256

theorem Store.Intact.step (chrono : Chrono) (s : Store) (op : StoreOp)
    (h : s.Intact sha256) (hg : RetainsPrefix chrono s op) :
    ((storeMachine sha256 chrono).step s op).1.Intact sha256 := by
  obtain ⟨haudit, hchain⟩ := h
  cases op with
  | insertDecision row => exact ⟨haudit, hchain.insertDecision sha256 row⟩
  | runRetention now e i d g =>
    refine ⟨(s.runRetention_chainBreakAudit chrono now e i d g).trans haudit, ?_⟩
    show (s.runRetention chrono now e i d g).1.decisions.Chained sha256
    rw [Store.runRetention_decisions]
    split
    next hd => exact hchain.deleteBefore sha256 (hg hd)
    next => exact hchain

/-- In every run whose retentions take only suffixes of the decisions, the
verifier reports the chain intact. -/
theorem chain_intact_of_retainsPrefix (chrono : Chrono) (ops : List StoreOp)
    (h : (storeMachine sha256 chrono).Meets (RetainsPrefix chrono) .empty ops) :
    let s := (storeMachine sha256 chrono).exec .empty ops
    (verifyHashChain sha256 s.chainBreakAudit s.decisions).intact = true ∧
      (verifyHashChain sha256 s.chainBreakAudit s.decisions).brokenAt = none := by
  have hinit : Store.empty.Intact sha256 := ⟨rfl, Decisions.chained_empty sha256⟩
  have hend := exec_invariant_of_meets (Store.Intact.step sha256 chrono) ops hinit h
  have hintact : (verifyHashChain sha256 .empty
      ((storeMachine sha256 chrono).exec .empty ops).decisions).intact = true :=
    (verifyHashChain_empty_iff sha256 _).mpr hend.2
  simp only [hend.1]
  exact ⟨hintact, (verifyHashChain_brokenAt_eq_none_iff sha256 _ _).mpr hintact⟩

/-! ## A run that breaks the chain

The daily tick of the maintenance scheduler calls `run_retention(2, 30, 90, 7)`.
The tick below runs on 2 May 2026, so decisions before 1 February are deleted. -/

/-- `chrono` on the four instants of the tick, which reads no text. -/
def tickChrono : Chrono where
  toRfc3339 t :=
    if t = seconds 1777507200 then "2026-04-30T00:00:00+00:00"
    else if t = seconds 1775088000 then "2026-04-02T00:00:00+00:00"
    else if t = seconds 1769904000 then "2026-02-01T00:00:00+00:00"
    else ""
  formatDate t := if t = seconds 1777075200 then "2026-04-25" else ""
  serialize _ := ""
  fromStr _ := none

def dailyTick : StoreOp := .runRetention (seconds 1777680000) 2 30 90 7

/-- A decision of January and one of April, and then the tick. -/
def agingRun : List StoreOp :=
  [.insertDecision (sampleDecision "2026-01-10T00:00:00+00:00" sampleData),
   .insertDecision (sampleDecision "2026-04-30T00:00:00+00:00" sampleData), dailyTick]

/-- The tick deletes the first row.  The second row still names it, so the verifier
reports the chain broken at the second row, with no one having tampered with it. -/
theorem retention_breaks_chain :
    verifyHashChain sampleSha256
      ((storeMachine sampleSha256 tickChrono).exec .empty agingRun).chainBreakAudit
      ((storeMachine sampleSha256 tickChrono).exec .empty agingRun).decisions =
      ⟨0, some 2, false, 0⟩ := by
  decide

/-- With the two decisions the other way round the tick takes the last row. -/
theorem chain_intact_of_retainsPrefix_agingRun :
    let ops := [.insertDecision (sampleDecision "2026-04-30T00:00:00+00:00" sampleData),
      .insertDecision (sampleDecision "2026-01-10T00:00:00+00:00" sampleData), dailyTick]
    let s := (storeMachine sampleSha256 tickChrono).exec .empty ops
    s.decisions.rows.length = 1 ∧
      (verifyHashChain sampleSha256 s.chainBreakAudit s.decisions).intact = true ∧
      (verifyHashChain sampleSha256 s.chainBreakAudit s.decisions).brokenAt = none := by
  refine ⟨by decide, chain_intact_of_retainsPrefix sampleSha256 tickChrono _ ?_⟩
  exact ⟨trivial, trivial, fun _ => by decide, trivial⟩

end Innerwarden

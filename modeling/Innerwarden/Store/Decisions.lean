import Mathlib.Data.List.Sort
import Innerwarden.Lib.Digest
import Innerwarden.Lib.HashChain
import Innerwarden.Lib.Text

/-!
# The decision audit trail

`crates/store/src/decisions.rs`.  Each row of `decisions` stores `prev_hash`, the `row_hash` of
the row before it, and `row_hash`, the SHA-256 of `prev_hash || data`.  `insertDecision` appends
a row, `verifyHashChain` walks the table in id order, and `auditTrail` is the view of the
dashboard.  The verifier does not check the rows inside the ranges of `chain_break_audit`.

SHA-256 is a parameter.  A call that fails leaves the table as it was, so only the calls that
succeed are operations here.
-/

namespace Innerwarden

open Digest Text List

/-- The largest row id of SQLite, `i64::MAX`. -/
def i64Max : Int := 9223372036854775807

/-- An `f64` as its bit pattern. -/
structure F64 where
  bits : UInt64
deriving DecidableEq

/-- The exponent is all ones and the fraction is not zero. -/
def F64.isNan (x : F64) : Bool :=
  (x.bits >>> 52) &&& 0x7ff == 0x7ff && x.bits &&& 0xfffffffffffff != 0

/-- SQLite stores a NaN that is bound to a `REAL` column as `NULL`. -/
def F64.bindReal (x : F64) : Option F64 := if x.isNan then none else some x

/-! ## Rows -/

/-- A decision as the caller hands it to `insertDecision`. -/
structure DecisionRow where
  ts : String
  incidentId : String
  actionType : String
  targetIp : Option String
  targetUser : Option String
  confidence : F64
  autoExecuted : Bool
  reason : Option String
  /-- The full JSON of the decision entry. -/
  data : String

/-- A row of the `decisions` table, with its nullable columns as options. -/
structure StoredDecision where
  id : Int
  ts : String
  incidentId : String
  actionType : String
  targetIp : Option String
  targetUser : Option String
  confidence : Option F64
  autoExecuted : Int
  reason : Option String
  prevHash : Option String
  rowHash : String
  data : String

/-- The `decisions` table.  The id is the primary key, so the rows can be listed
in strictly increasing id. -/
structure Decisions where
  rows : List StoredDecision
  sorted : rows.Pairwise fun a b => a.id < b.id

def Decisions.empty : Decisions := ⟨[], .nil⟩

theorem Decisions.ids_around {t : Decisions} {pre post : List StoredDecision}
    {r : StoredDecision} (h : t.rows = pre ++ r :: post) :
    (∀ q ∈ pre, q.id < r.id) ∧ ∀ q ∈ post, r.id < q.id := by
  have sorted := t.sorted
  rw [h] at sorted
  obtain ⟨-, hpost, hpre⟩ := pairwise_append.mp sorted
  exact ⟨fun q hq => hpre q hq r (mem_cons_self ..), (pairwise_cons.mp hpost).1⟩

/-- The id SQLite gives a new row: one more than the largest id in use. -/
def Decisions.nextRowid (t : Decisions) : Int :=
  match t.rows.getLast? with
  | none => 1
  | some r => r.id + 1

/-! ## The chain hash -/

section Hash

variable (sha256 : ByteArray → Digest)

/-- The bytes `compute_hash` feeds to the hasher: `prev_hash`, when there is one,
and then `data`, with nothing between the two. -/
def hashInput (prevHash : Option String) (data : String) : ByteArray :=
  match prevHash with
  | some ph => ph.toByteArray ++ data.toByteArray
  | none => data.toByteArray

/-- `SHA-256(prev_hash || data)` in hexadecimal. -/
def computeHash (prevHash : Option String) (data : String) : String :=
  lowerHex (sha256 (hashInput prevHash data))

@[simp] theorem length_computeHash (prevHash : Option String) (data : String) :
    (computeHash sha256 prevHash data).length = 64 :=
  length_lowerHex _

/-- The data of the decisions in the concrete runs, an empty JSON object. -/
def sampleData : String := "\x7b\x7d"

/-- The hash of `sampleData` at the front of a chain. -/
def sampleHash : String := "44136fa355b3678a1146ad16f7e8649e94fb4fc21fe77e8310c060f61caaff8a"

/-- SHA-256 on the inputs of a chain of two rows that both store `sampleData`. -/
def sampleSha256 (bytes : ByteArray) : Digest :=
  if bytes.data = sampleData.toByteArray.data then
    .ofNat 0x44136fa355b3678a1146ad16f7e8649e94fb4fc21fe77e8310c060f61caaff8a
  else if bytes.data = (sampleHash ++ sampleData).toByteArray.data then
    .ofNat 0xe1f3840ae469cfea376aab63ef26e107091792dc5cfa1788a18522f2c5bffba5
  else
    .ofNat 0

def sampleDecision (ts data : String) : DecisionRow where
  ts := ts
  incidentId := "inc-1"
  actionType := "block_ip"
  targetIp := some "1.2.3.4"
  targetUser := none
  confidence := ⟨0⟩
  autoExecuted := true
  reason := none
  data := data

/-! ## Inserting a decision -/

/-- `SELECT row_hash FROM decisions ORDER BY id DESC LIMIT 1`. -/
def Decisions.lastDecisionHash (t : Decisions) : Option String :=
  t.rows.getLast?.map StoredDecision.rowHash

/-- The row `insert_decision` writes. -/
def Decisions.newRow (t : Decisions) (row : DecisionRow) : StoredDecision where
  id := t.nextRowid
  ts := row.ts
  incidentId := row.incidentId
  actionType := row.actionType
  targetIp := row.targetIp
  targetUser := row.targetUser
  confidence := row.confidence.bindReal
  autoExecuted := if row.autoExecuted then 1 else 0
  reason := row.reason
  prevHash := t.lastDecisionHash
  rowHash := computeHash sha256 t.lastDecisionHash row.data
  data := row.data

theorem Decisions.lt_nextRowid (t : Decisions) : ∀ r ∈ t.rows, r.id < t.nextRowid := by
  intro r hr
  unfold nextRowid
  cases hlast : t.rows.getLast? with
  | none =>
    rw [getLast?_eq_none_iff.mp hlast] at hr
    cases hr
  | some y =>
    obtain ⟨ys, hys⟩ := getLast?_eq_some_iff.mp hlast
    have sorted := t.sorted
    rw [hys] at hr sorted
    rcases mem_append.mp hr with hr | hr
    · have below := (pairwise_append.mp sorted).2.2 r hr y (mem_singleton_self y)
      exact Int.lt_add_one_of_le (Int.le_of_lt below)
    · rw [mem_singleton.mp hr]
      exact Int.lt_add_one_of_le (Int.le_refl _)

/-- `Store::insert_decision`: the table with the new row, and its id. -/
def Decisions.insertDecision (t : Decisions) (row : DecisionRow) : Decisions × Int :=
  (⟨t.rows ++ [t.newRow sha256 row],
    pairwise_append.mpr ⟨t.sorted, pairwise_singleton _ _, fun r hr _ hq => by
      rw [mem_singleton.mp hq]; exact t.lt_nextRowid r hr⟩⟩,
   t.nextRowid)

@[simp] theorem Decisions.insertDecision_rows (t : Decisions) (row : DecisionRow) :
    (t.insertDecision sha256 row).1.rows = t.rows ++ [t.newRow sha256 row] := rfl

def Decisions.insertAll (t : Decisions) : List DecisionRow → Decisions
  | [] => t
  | row :: rows => (t.insertDecision sha256 row).1.insertAll rows

end Hash

/-! ## Documented breaks -/

/-- A registered chain break. -/
structure ChainBreakRecord where
  id : Int
  rowidStart : Int
  rowidEnd : Int
  registeredAt : String
  operator : String
  reason : String
  prevChainEndHash : Option String

/-- The `chain_break_audit` table with its `CHECK` constraint. -/
structure ChainBreakAudit where
  records : List ChainBreakRecord
  checked : ∀ b ∈ records, b.rowidStart ≤ b.rowidEnd

/-- No registered break. -/
def ChainBreakAudit.empty : ChainBreakAudit := ⟨[], fun _ h => nomatch h⟩

/-- The ranges the verifier loads, by start. -/
def ChainBreakAudit.breaks (a : ChainBreakAudit) : List (Int × Int) :=
  (a.records.insertionSort fun b c => b.rowidStart ≤ c.rowidStart).map
    fun b => (b.rowidStart, b.rowidEnd)

def inBreak (breaks : List (Int × Int)) (id : Int) : Bool :=
  breaks.any fun b => decide (id ≥ b.1 ∧ id ≤ b.2)

theorem inBreak_breaks (a : ChainBreakAudit) (id : Int) :
    inBreak a.breaks id = true ↔ ∃ b ∈ a.records, b.rowidStart ≤ id ∧ id ≤ b.rowidEnd := by
  simp only [inBreak, ChainBreakAudit.breaks, any_eq_true, mem_map,
    mem_insertionSort, decide_eq_true_eq]
  constructor
  · rintro ⟨_, ⟨b, hb, rfl⟩, hid⟩
    exact ⟨b, hb, hid⟩
  · rintro ⟨b, hb, hid⟩
    exact ⟨_, ⟨b, hb, rfl⟩, hid⟩

@[simp] theorem inBreak_empty (id : Int) : inBreak ChainBreakAudit.empty.breaks id = false := rfl

/-! ## Verifying the chain -/

/-- The result of `verify_hash_chain`. -/
structure HashChainResult where
  verified : Nat
  brokenAt : Option Int
  intact : Bool
  documentedBreaks : Nat
deriving DecidableEq

section Verify

variable (sha256 : ByteArray → Digest)

/-- The loop of `verify_hash_chain`, with its three mutable variables. -/
def verifyRows (breaks : List (Int × Int)) :
    Option String → Nat → Nat → List StoredDecision → HashChainResult
  | _, verified, documentedBreaks, [] => ⟨verified, none, true, documentedBreaks⟩
  | prevComputed, verified, documentedBreaks, r :: rs =>
    if inBreak breaks r.id then
      -- a documented break is not checked, and its stored hash is the new anchor
      verifyRows breaks (some r.rowHash) verified (documentedBreaks + 1) rs
    else if r.prevHash ≠ prevComputed then
      ⟨verified, some r.id, false, documentedBreaks⟩
    else if r.rowHash ≠ computeHash sha256 prevComputed r.data then
      ⟨verified, some r.id, false, documentedBreaks⟩
    else
      verifyRows breaks (some r.rowHash) (verified + 1) documentedBreaks rs

def verifyHashChain (a : ChainBreakAudit) (t : Decisions) : HashChainResult :=
  verifyRows sha256 a.breaks none 0 0 t.rows

end Verify

/-! ## The audit view -/

/-- One record of the audit view. -/
structure DecisionAuditRecord where
  id : Int
  ts : String
  incidentId : String
  actionType : String
  targetIp : Option String
  targetUser : Option String
  confidence : Option F64
  autoExecuted : Bool
  reason : Option String
  prevHash : Option String
  rowHash : String
deriving DecidableEq

/-- The columns of a row the view selects. -/
def StoredDecision.toAuditRecord (r : StoredDecision) : DecisionAuditRecord where
  id := r.id
  ts := r.ts
  incidentId := r.incidentId
  actionType := r.actionType
  targetIp := r.targetIp
  targetUser := r.targetUser
  confidence := r.confidence
  autoExecuted := decide (r.autoExecuted ≠ 0)
  reason := r.reason
  prevHash := r.prevHash
  rowHash := r.rowHash

/-- `Store::audit_trail`: the newest records first, below the cursor `beforeId`,
at most `limit` of them (held between 1 and 500), and only those of one action
when the filter is not blank. -/
def auditTrail (t : Decisions) (beforeId : Option Int) (limit : Nat)
    (actionFilter : Option String) : List DecisionAuditRecord :=
  let limit := max 1 (min limit 500)
  let before := beforeId.getD i64Max
  let actionPat := (actionFilter.filter fun s => trim s ≠ "").map trim
  ((t.rows.filter fun r => decide (r.id < before) && actionPat.all fun a => r.actionType == a)
    |>.reverse.take limit).map StoredDecision.toAuditRecord

end Innerwarden

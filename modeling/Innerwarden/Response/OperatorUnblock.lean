import Innerwarden.Agent.DecisionReading
import Innerwarden.Response.Restart
import Innerwarden.Store.Decisions
import Innerwarden.Store.KeyValue

/-!
# Unblocking on an operator's request

`crates/agent/src/operator_actions.rs`.  For each request of the dashboard `run_unblock_drain`
reverts the tracked blocks of the address, clears the block records if that succeeded, and
writes a terminal decision.

Its flag for success is lowered by every error of `execute_revert`, also by one that the
lifecycle takes for a rule that was gone already, and not by an entry whose revert is in flight,
for which nothing is done.  `truthful_unblock_iff` says when what it reports is true.

`swept_entry` says what the drain does for an entry, and `sweep_spec` for all of them.
-/

namespace Innerwarden

open ResponseLifecycle List

def ResponseLifecycle.activeBlockIdsForIp (lc : ResponseLifecycle) (ip : String) : List String :=
  (lc.active.filter fun r => r.responseType = .blockIp ∧ r.target = ip).map ActiveResponse.id

namespace OperatorUnblock

/-! ## One entry -/

/-- What the clock and `execute_revert` answer for an entry. -/
structure Attempt where
  requestedAt : DateTime
  answeredAt : DateTime
  result : Except String Unit

/-- What became of a revert that was issued. -/
inductive Answer where
  | reverted
  | failed (outcome : FailureOutcome)

/-- The revert is confirmed: it succeeded, or the rule was gone. -/
def Answer.Confirms (answer : Answer) : Prop :=
  answer = .reverted ∨ answer = .failed .alreadyAbsent

/-- The variables of the loop over the entries.  `answers` records what was heard of
each of them. -/
structure Sweep where
  lifecycle : ResponseLifecycle
  revertOk : Bool
  reverted : Nat
  answers : List (String × Answer)

variable (attempts : String → Attempt)

/-- The body of the loop. -/
def revertEntry (sweep : Sweep) (id : String) : Sweep :=
  match sweep.lifecycle.requestManualRevert (attempts id).requestedAt id with
  | (lifecycle, none) => { sweep with lifecycle := lifecycle }
  | (lifecycle, some _) =>
    match (attempts id).result with
    | .ok () =>
      { sweep with
        lifecycle := lifecycle.markReverted (attempts id).answeredAt id "operator_unblock"
        reverted := sweep.reverted + 1
        answers := sweep.answers ++ [(id, .reverted)] }
    | .error e =>
      let marked := lifecycle.markRevertFailed (attempts id).answeredAt id e
      { sweep with
        lifecycle := marked.1
        revertOk := false
        answers := sweep.answers ++ [(id, .failed marked.2)] }

section Found

variable {lc : ResponseLifecycle} {id id' : String} {e : ActiveResponse} {sweep : Sweep}

theorem markRevertFailed_alreadyAbsent (found : findEntry id lc.active = some e) (now : DateTime)
    (error : String) : (lc.markRevertFailed now id error).2 = .alreadyAbsent ↔
      classifyRevertError error = .alreadyAbsent := by
  cases hkind : classifyRevertError error with
  | alreadyAbsent => simp only [markRevertFailed, found, hkind]
  | transient =>
    simp only [markRevertFailed, found, hkind]
    split <;> simp

theorem requestManualRevert_idle (found : findEntry id lc.active = some e)
    (idle : ¬ e.state.IsPending) (now : DateTime) :
    lc.requestManualRevert now id =
      ({ lc with
          active := setState id (.revertPending now .manual (priorAttempts e.state)) lc.active },
        some e.revertAction) := by
  cases hstate : e.state with
  | active | revertFailed _ _ _ _ => simp only [requestManualRevert, found, hstate, priorAttempts]
  | revertPending since trigger prior => exact absurd ⟨since, trigger, prior, hstate⟩ idle

theorem requestManualRevert_pending (found : findEntry id lc.active = some e)
    (inFlight : e.state.IsPending) (now : DateTime) :
    lc.requestManualRevert now id = (lc, none) := by
  obtain ⟨since, trigger, prior, hstate⟩ := inFlight
  simp only [requestManualRevert, found, hstate]

/-- A property of the tracked entries that the calls for an id keep. -/
structure KeptFor (id : String) (P : List ActiveResponse → Prop) : Prop where
  setState : ∀ es st, P es → P (setState id st es)
  removeEntry : ∀ es e, findEntry id es = some e → P es → P (removeEntry id es)

section Kept

variable {P : List ActiveResponse → Prop} (hP : KeptFor id P)

include hP

theorem KeptFor.markReverted (h : P lc.active) (now : DateTime) (reason : String) :
    P (lc.markReverted now id reason).active := by
  cases found : findEntry id lc.active with
  | none => simpa only [ResponseLifecycle.markReverted, found] using h
  | some e =>
    rw [markReverted_active found]
    exact hP.removeEntry _ e found h

theorem KeptFor.markRevertFailed (h : P lc.active) (now : DateTime) (error : String) :
    P (lc.markRevertFailed now id error).1.active := by
  rcases markRevertFailed_cases lc now id error with
    ⟨-, heq⟩ | ⟨e, -, -, heq⟩ | ⟨e, found, -, heq⟩ | ⟨e, -, -, heq⟩
  · rw [heq]
    exact h
  · have hcount : P lc.countFailure.active := h
    rw [heq]
    exact hP.markReverted hcount now _
  · rw [heq]
    exact hP.removeEntry _ e found h
  · rw [heq]
    exact hP.setState _ _ h

theorem KeptFor.revertEntry (h : P sweep.lifecycle.active) :
    P (revertEntry attempts sweep id).lifecycle.active := by
  have hrequest : P
      (sweep.lifecycle.requestManualRevert (attempts id).requestedAt id).1.active := by
    rcases requestManualRevert_cases sweep.lifecycle (attempts id).requestedAt id with
      heq | ⟨e, -, -, heq⟩
    · rwa [heq]
    · rw [heq]
      exact hP.setState _ _ h
  rw [OperatorUnblock.revertEntry]
  split
  · rename_i heq
    rwa [heq] at hrequest
  · rename_i heq
    rw [heq] at hrequest
    split
    · exact hP.markReverted hrequest _ _
    · exact hP.markRevertFailed hrequest _ _

end Kept

theorem findEntry_revertEntry_of_ne (hne : id' ≠ id) :
    findEntry id' (revertEntry attempts sweep id).lifecycle.active =
      findEntry id' sweep.lifecycle.active := by
  have hkept : KeptFor id fun es => findEntry id' es = findEntry id' sweep.lifecycle.active :=
    ⟨fun es st h => (findEntry_setState_of_ne hne st es).trans h,
      fun es _ _ h => (findEntry_removeEntry_of_ne hne es).trans h⟩
  exact hkept.revertEntry attempts rfl

end Found

/-! ## All entries of an address -/

variable {attempts}

/-- Some answer confirms the revert of the entry. -/
def Confirmed (answers : List (String × Answer)) (id : String) : Prop :=
  ∃ answer, (id, answer) ∈ answers ∧ answer.Confirms

/-- The rule of the entry goes when its revert is issued. -/
def Goes (attempts : String → Attempt) (e : ActiveResponse) : Prop :=
  (attempts e.id).result = .ok () ∨
    ∃ error, (attempts e.id).result = .error error ∧ classifyRevertError error = .alreadyAbsent

/-- What the loop has done for a list of entries. -/
structure Swept (attempts : String → Attempt) (es : List ActiveResponse) (sweep sweep' : Sweep) :
    Prop where
  flag : sweep'.revertOk = true ↔
    sweep.revertOk = true ∧ ∀ e ∈ es, e.state.IsPending ∨ (attempts e.id).result = .ok ()
  heard : ∃ new, sweep'.answers = sweep.answers ++ new ∧
    (∀ answer ∈ new, answer.1 ∈ es.map ActiveResponse.id) ∧
    ∀ e ∈ es, Confirmed new e.id ↔ ¬ e.state.IsPending ∧ Goes attempts e

theorem swept_entry {sweep : Sweep} {e : ActiveResponse}
    (found : findEntry e.id sweep.lifecycle.active = some e) :
    Swept attempts [e] sweep (revertEntry attempts sweep e.id) := by
  by_cases hpending : e.state.IsPending
  · simp only [revertEntry, requestManualRevert_pending found hpending]
    refine ⟨by simp [hpending], [], (append_nil _).symm, by simp, ?_⟩
    simp [Confirmed, hpending]
  · simp only [revertEntry, requestManualRevert_idle found hpending]
    cases hresult : (attempts e.id).result with
    | ok done =>
      refine ⟨by simp [hresult], _, rfl, by simp, ?_⟩
      simp [Confirmed, Answer.Confirms, Goes, hpending, hresult]
    | error error =>
      refine ⟨by simp [hpending, hresult], _, rfl, by simp, ?_⟩
      simpa [Confirmed, Answer.Confirms, Goes, hpending, hresult] using
        markRevertFailed_alreadyAbsent (findEntry_setState_self found) _ error

theorem confirmed_append {new new' : List (String × Answer)} {id : String} :
    Confirmed (new ++ new') id ↔ Confirmed new id ∨ Confirmed new' id := by
  simp only [Confirmed, mem_append, or_and_right, exists_or]

theorem not_confirmed {new : List (String × Answer)} {ids : List String} {id : String}
    (hids : ∀ answer ∈ new, answer.1 ∈ ids) (hid : id ∉ ids) : ¬ Confirmed new id := by
  rintro ⟨answer, hmem, -⟩
  exact hid (hids _ hmem)

/-- The loop, over entries with ids of their own. -/
theorem sweep_spec : ∀ (es : List ActiveResponse) (sweep : Sweep),
    (es.map ActiveResponse.id).Nodup →
    (∀ e ∈ es, findEntry e.id sweep.lifecycle.active = some e) →
      Swept attempts es sweep ((es.map ActiveResponse.id).foldl (revertEntry attempts) sweep)
  | [], sweep, _, _ => ⟨by simp, [], (append_nil _).symm, by simp, by simp⟩
  | e :: es, sweep, hnodup, hfound => by
    obtain ⟨hfresh, hnodup⟩ := nodup_cons.mp hnodup
    obtain ⟨hhead, hfound⟩ := forall_mem_cons.mp hfound
    have hfirst : Swept attempts [e] sweep _ := swept_entry hhead
    have hframe : ∀ e' ∈ es, findEntry e'.id
        (revertEntry attempts sweep e.id).lifecycle.active = some e' := by
      intro e' he'
      have hne : e'.id ≠ e.id := fun heq => hfresh (mem_map.mpr ⟨e', he', heq⟩)
      rw [findEntry_revertEntry_of_ne attempts hne]
      exact hfound e' he'
    have hrest := sweep_spec es (revertEntry attempts sweep e.id) hnodup hframe
    obtain ⟨hflag, new, hnew, hids, hconfirmed⟩ := hfirst
    obtain ⟨hflag', new', hnew', hids', hconfirmed'⟩ := hrest
    refine ⟨?_, new ++ new', ?_, ?_, forall_mem_cons.mpr ⟨?_, fun e' he' => ?_⟩⟩
    · rw [map_cons, foldl_cons, hflag', hflag, forall_mem_singleton,
        forall_mem_cons, and_assoc]
    · rw [map_cons, foldl_cons, hnew', hnew, append_assoc]
    · intro answer hanswer
      rcases mem_append.mp hanswer with hmem | hmem
      · exact mem_cons.mpr (Or.inl (mem_singleton.mp (hids answer hmem)))
      · exact mem_cons_of_mem _ (hids' answer hmem)
    · rw [confirmed_append, or_iff_left (not_confirmed hids' hfresh)]
      exact hconfirmed e (mem_singleton_self e)
    · have hne : e'.id ∉ [e].map ActiveResponse.id := fun hmem =>
        hfresh (mem_map.mpr ⟨e', he', mem_singleton.mp hmem⟩)
      rw [confirmed_append, or_iff_right (not_confirmed hids hne)]
      exact hconfirmed' e' he'

/-! ## Requests -/

/-- A pending request. -/
structure Request where
  incidentId : String
  ip : String

/-- What the drain works on: the lifecycle, the key-value tables behind the state store and the
SQLite store, and the blocklist. -/
structure State where
  lifecycle : ResponseLifecycle
  stateStore : List KvRow
  sqliteStore : List KvRow
  blocklist : List String

/-- `find_pending_unblocks`: the incidents whose latest decision since the cutoff is a
request. -/
def findPendingUnblocks (rows : List StoredDecision) (cutoff : String) : List Request :=
  let window := rows.filter fun r => cutoff ≤ r.ts
  let latest := window.filter fun r => window.all fun q => q.incidentId ≠ r.incidentId ∨ q.id ≤ r.id
  (latest.filter fun r => r.actionType = "operator_unblock_request").filterMap fun r =>
    r.targetIp.map fun ip => ⟨r.incidentId, ip⟩

def State.blocks (s : State) (ip : String) : List ActiveResponse :=
  s.lifecycle.active.filter fun r => r.responseType = .blockIp ∧ r.target = ip

def State.sweep (s : State) (ip : String) (attempts : String → Attempt) : Sweep :=
  (s.lifecycle.activeBlockIdsForIp ip).foldl (revertEntry attempts) ⟨s.lifecycle, true, 0, []⟩

def State.clearRecords (s : State) (ip : String) : State :=
  { s with
    stateStore := kvDelete s.stateStore "xdp_block_times" ip
    sqliteStore := kvDelete s.sqliteStore "xdp_block_times" ip
    blocklist := s.blocklist.filter fun blocked => blocked ≠ ip }

def revertedResult (reverted : Nat) : String := "ok (reverted " ++ toString reverted ++ " rule(s))"

def failedResult : String := "failed: firewall revert did not complete; block left in place"

def executionResult (dryRun revertOk : Bool) (reverted : Nat) : String :=
  if dryRun then "ok (dry_run)" else if revertOk then revertedResult reverted else failedResult

def reason (dryRun revertOk : Bool) (reverted : Nat) (ip : String) : String :=
  "Operator-requested unblock of " ++ ip ++
    if dryRun then " simulated (responder dry_run)."
    else if revertOk then
      " processed: " ++ toString reverted ++
        " firewall rule(s) reverted and block records cleared."
    else
      " could NOT be completed — at least one firewall revert failed, so the block is left in " ++
        "place. Records were NOT cleared (the IP is still blocked)."

/-- The terminal decision. -/
def terminalEntry (now : DateTime) (host : String) (dryRun revertOk : Bool) (reverted : Nat)
    (request : Request) : FullDecisionEntry where
  ts := now
  incidentId := request.incidentId
  host := host
  aiProvider := "dashboard:operator"
  actionType := "operator_unblock"
  targetIp := some request.ip
  targetUser := none
  skillId := some "operator_unblock"
  confidence := 0x3f800000
  autoExecuted := !dryRun && revertOk
  dryRun := dryRun
  reason := reason dryRun revertOk reverted request.ip
  estimatedThreat := "manual"
  executionResult := executionResult dryRun revertOk reverted
  prevHash := none
  decisionLayer := some "manual_operator"

section Drain

variable (now : DateTime) (host : String) (dryRun : Bool)

/-- What the drain does for a request. -/
def unblock (s : State) (request : Request) (attempts : String → Attempt) :
    State × FullDecisionEntry :=
  if dryRun then (s, terminalEntry now host dryRun true 0 request)
  else
    let sweep := s.sweep request.ip attempts
    let s := { s with lifecycle := sweep.lifecycle }
    (if sweep.revertOk then s.clearRecords request.ip else s,
      terminalEntry now host dryRun sweep.revertOk sweep.reverted request)

/-- The drain, a request at a time. -/
def machine : StateMachine State (Request × (String → Attempt)) FullDecisionEntry where
  init := ⟨.new, [], [], []⟩
  step s op := unblock now host dryRun s op.1 op.2

/-- `run_unblock_drain`, up to the writing of the terminal decisions. -/
def runUnblockDrain (chrono : Chrono) (rows : List StoredDecision) (s : State)
    (attempts : Request → String → Attempt) : State × List FullDecisionEntry :=
  let cutoff := chrono.toRfc3339 (now - seconds 86400)
  let pending := (findPendingUnblocks rows cutoff).map fun request => (request, attempts request)
  ((machine now host dryRun).exec s pending, (machine now host dryRun).trace s pending)

end Drain

/-! ## Unique ids -/

/-- No two tracked entries have one id.  `lifecycle_accounting` says so of every run. -/
def UniqueIds (lc : ResponseLifecycle) : Prop := (lc.active.map ActiveResponse.id).Nodup

theorem findEntry_of_mem {es : List ActiveResponse} (h : (es.map ActiveResponse.id).Nodup)
    {e : ActiveResponse} (he : e ∈ es) : findEntry e.id es = some e := by
  induction es with
  | nil => cases he
  | cons f es ih =>
    obtain ⟨hfresh, hnodup⟩ := nodup_cons.mp h
    rcases mem_cons.mp he with rfl | he
    · exact find?_cons_of_pos (by simp)
    · have hne : f.id ≠ e.id := fun heq => hfresh (mem_map.mpr ⟨e, he, heq.symm⟩)
      rw [findEntry, find?_cons_of_neg (by simpa using hne)]
      exact ih hnodup he

theorem nodup_removeEntry {es : List ActiveResponse} (h : (es.map ActiveResponse.id).Nodup)
    {id : String} {e : ActiveResponse} (found : findEntry id es = some e) :
    ((removeEntry id es).map ActiveResponse.id).Nodup := by
  have hperm := (perm_removeEntry found).map ActiveResponse.id
  exact (nodup_cons.mp (hperm.nodup_iff.mp h)).2

theorem UniqueIds.revertEntry {sweep : Sweep} (h : UniqueIds sweep.lifecycle)
    (attempts : String → Attempt) (id : String) :
    UniqueIds (revertEntry attempts sweep id).lifecycle := by
  have hkept : KeptFor id fun es => (es.map ActiveResponse.id).Nodup :=
    ⟨fun es st h => by rwa [map_id_setState], fun es e found h => nodup_removeEntry h found⟩
  exact hkept.revertEntry attempts h

theorem UniqueIds.foldl {attempts : String → Attempt} :
    ∀ (ids : List String) {sweep : Sweep}, UniqueIds sweep.lifecycle →
      UniqueIds (ids.foldl (OperatorUnblock.revertEntry attempts) sweep).lifecycle
  | [], _, h => h
  | id :: ids, _, h => UniqueIds.foldl ids (h.revertEntry attempts id)

/-- A request keeps the ids unique. -/
theorem uniqueIds_step (now : DateTime) (host : String) (dryRun : Bool) (s : State)
    (op : Request × (String → Attempt)) (h : UniqueIds s.lifecycle) :
    UniqueIds ((machine now host dryRun).step s op).1.lifecycle := by
  have hswept : UniqueIds (s.sweep op.1.ip op.2).lifecycle := UniqueIds.foldl _ h
  simp only [machine, unblock]
  split
  · exact h
  · simp only
    split
    · exact hswept
    · exact hswept

/-! ## What the drain reports -/

section Reports

variable (s : State) (request : Request) (attempts : String → Attempt)

/-- Every tracked block of the address ended up confirmed removed. -/
def AllConfirmed : Prop :=
  ∀ e ∈ s.lifecycle.active, e.responseType = .blockIp → e.target = request.ip →
    Confirmed (s.sweep request.ip attempts).answers e.id

/-- No record of a block of the address is left. -/
def State.Clear (s : State) (ip : String) : Prop :=
  kvGet s.stateStore "xdp_block_times" ip = none ∧
    kvGet s.sqliteStore "xdp_block_times" ip = none ∧ ip ∉ s.blocklist

/-- The block records are those of another state. -/
def State.SameRecords (s s' : State) : Prop :=
  s'.stateStore = s.stateStore ∧ s'.sqliteStore = s.sqliteStore ∧ s'.blocklist = s.blocklist

/-- The decision records a success. -/
def Succeeds (entry : FullDecisionEntry) : Prop :=
  entry.autoExecuted = true ∧ ∃ reverted, entry.executionResult = revertedResult reverted

/-- The decision records a failure. -/
def Fails (entry : FullDecisionEntry) : Prop :=
  entry.autoExecuted = false ∧ entry.executionResult = failedResult

/-- What the drain leaves and records is true: the records are cleared and a success
is recorded when every block was confirmed removed, and otherwise the records are left and a
failure is recorded. -/
def Truthful (now : DateTime) (host : String) : Prop :=
  let outcome := unblock now host false s request attempts
  (AllConfirmed s request attempts → outcome.1.Clear request.ip ∧ Succeeds outcome.2) ∧
    (¬ AllConfirmed s request attempts → s.SameRecords outcome.1 ∧ Fails outcome.2)

/-- Some block of the address has its revert in flight. -/
def SomePending : Prop := ∃ e ∈ s.blocks request.ip, e.state.IsPending

/-- Some revert is issued and fails with an error of this kind. -/
def SomeFails (kind : ErrorKind) : Prop :=
  ∃ e ∈ s.blocks request.ip, ¬ e.state.IsPending ∧
    ∃ error, (attempts e.id).result = .error error ∧ classifyRevertError error = kind

variable {s request attempts}

theorem sweep_blocks (h : UniqueIds s.lifecycle) :
    Swept attempts (s.blocks request.ip) ⟨s.lifecycle, true, 0, []⟩
      (s.sweep request.ip attempts) := by
  have hsub : (s.blocks request.ip).Sublist s.lifecycle.active := filter_sublist
  refine sweep_spec _ _ (h.sublist (hsub.map _)) fun e he => ?_
  exact findEntry_of_mem h (hsub.subset he)

theorem revertOk_iff (h : UniqueIds s.lifecycle) :
    (s.sweep request.ip attempts).revertOk = true ↔
      ¬ SomeFails s request attempts .transient ∧
        ¬ SomeFails s request attempts .alreadyAbsent := by
  rw [(sweep_blocks h).flag]
  constructor
  · rintro ⟨-, hall⟩
    have hnone : ∀ kind, ¬ SomeFails s request attempts kind := by
      rintro kind ⟨e, he, hidle, error, herror, -⟩
      rw [(hall e he).resolve_left hidle] at herror
      cases herror
    exact ⟨hnone _, hnone _⟩
  · rintro ⟨htransient, habsent⟩
    refine ⟨rfl, fun e he => or_iff_not_imp_left.mpr fun hidle => ?_⟩
    cases hresult : (attempts e.id).result with
    | ok done => rfl
    | error error =>
      cases hkind : classifyRevertError error with
      | alreadyAbsent => exact absurd ⟨e, he, hidle, error, hresult, hkind⟩ habsent
      | transient => exact absurd ⟨e, he, hidle, error, hresult, hkind⟩ htransient

/-- Everything is confirmed when no revert is in flight and the errors say that the rule was
gone. -/
theorem allConfirmed_iff (h : UniqueIds s.lifecycle) :
    AllConfirmed s request attempts ↔
      ¬ SomeFails s request attempts .transient ∧ ¬ SomePending s request := by
  obtain ⟨new, hnew, -, hconfirmed⟩ := (sweep_blocks h).heard
  have hblocks : AllConfirmed s request attempts ↔
      ∀ e ∈ s.blocks request.ip, ¬ e.state.IsPending ∧ Goes attempts e := by
    have hanswers : (s.sweep request.ip attempts).answers = new := hnew
    simp only [AllConfirmed, hanswers]
    constructor
    · intro hall e he
      obtain ⟨hactive, hblock⟩ := mem_filter.mp he
      obtain ⟨htype, htarget⟩ := of_decide_eq_true hblock
      exact (hconfirmed e he).mp (hall e hactive htype htarget)
    · intro hall e hactive htype htarget
      have he : e ∈ s.blocks request.ip :=
        mem_filter.mpr ⟨hactive, decide_eq_true ⟨htype, htarget⟩⟩
      exact (hconfirmed e he).mpr (hall e he)
  rw [hblocks]
  constructor
  · intro hall
    constructor
    · rintro ⟨e, he, hidle, error, herror, hkind⟩
      rcases (hall e he).2 with hok | ⟨error', herror', habsent⟩
      · rw [hok] at herror
        cases herror
      · cases herror.symm.trans herror'
        cases hkind.symm.trans habsent
    · rintro ⟨e, he, hpending⟩
      exact (hall e he).1 hpending
  · rintro ⟨htransient, hnone⟩ e he
    have hidle : ¬ e.state.IsPending := fun hpending => hnone ⟨e, he, hpending⟩
    refine ⟨hidle, ?_⟩
    cases hresult : (attempts e.id).result with
    | ok done => exact Or.inl hresult
    | error error =>
      cases hkind : classifyRevertError error with
      | alreadyAbsent => exact Or.inr ⟨error, hresult, hkind⟩
      | transient => exact absurd ⟨e, he, hidle, error, hresult, hkind⟩ htransient

theorem clear_clearRecords (s : State) (ip : String) : (s.clearRecords ip).Clear ip :=
  ⟨kvGet_kvDelete .., kvGet_kvDelete .., by simp [State.clearRecords]⟩

theorem truthful_iff_flag {now : DateTime} {host : String} :
    Truthful s request attempts now host ↔
      ((s.sweep request.ip attempts).revertOk = true ↔ AllConfirmed s request attempts) := by
  simp only [Truthful, unblock, Bool.false_eq_true, if_false]
  cases (s.sweep request.ip attempts).revertOk with
  | true =>
    constructor
    · rintro ⟨-, hno⟩
      refine ⟨fun _ => ?_, fun _ => rfl⟩
      by_contra hnot
      cases (hno hnot).2.1
    · intro hiff
      exact ⟨fun _ => ⟨clear_clearRecords _ _, rfl, _, rfl⟩, fun hnot => absurd (hiff.mp rfl) hnot⟩
  | false =>
    constructor
    · rintro ⟨hyes, -⟩
      refine ⟨(fun hflag => by cases hflag), fun hall => ?_⟩
      cases (hyes hall).2.1
    · intro hiff
      have hnot : ¬ AllConfirmed s request attempts := fun hall => by cases hiff.mpr hall
      exact ⟨fun hall => absurd hall hnot, fun _ => ⟨⟨rfl, rfl, rfl⟩, rfl, rfl⟩⟩

end Reports

/-- In a drain, what is left and recorded for a request is true exactly if some
revert fails for another reason than that the rule was gone, or else if a rule was gone
exactly when a revert was in flight. -/
theorem truthful_unblock_iff (now : DateTime) (host : String) (start : State)
    (hids : UniqueIds start.lifecycle) (before : List (Request × (String → Attempt)))
    (request : Request) (attempts : String → Attempt) :
    let s := (machine now host false).exec start before
    Truthful s request attempts now host ↔
      SomeFails s request attempts .transient ∨
        (SomeFails s request attempts .alreadyAbsent ↔ SomePending s request) := by
  intro s
  have hs : UniqueIds s.lifecycle :=
    StateMachine.exec_invariant (P := fun s : State => UniqueIds s.lifecycle)
      (uniqueIds_step now host false) before hids
  rw [truthful_iff_flag, revertOk_iff hs, allConfirmed_iff hs]
  tauto

/-- A state that tracks one block of 203.0.113.7 and has it on its blocklist. -/
def blockedState (state : LifecycleState) : State where
  lifecycle :=
    { ResponseLifecycle.new with
      active :=
        [⟨"resp-1", .blockIp, .ufw, "203.0.113.7", "ssh:1", 0, 60, seconds 60, none, state⟩] }
  stateStore := []
  sqliteStore := []
  blocklist := ["203.0.113.7"]

theorem uniqueIds_blockedState (state : LifecycleState) :
    UniqueIds (blockedState state).lifecycle := nodup_singleton _

/-- `execute_revert` answers the same for every entry. -/
def answering (result : Except String Unit) : String → Attempt := fun _ => ⟨0, 0, result⟩

/-- A rule that was gone is reported as still in place, and a block whose revert is
in flight as removed. -/
theorem unblock_reports_untruth :
    (AllConfirmed (blockedState .active) ⟨"ssh:1", "203.0.113.7"⟩
        (answering (.error "no such rule")) ∧
      ¬ Truthful (blockedState .active) ⟨"ssh:1", "203.0.113.7"⟩
        (answering (.error "no such rule")) 0 "h") ∧
    ¬ AllConfirmed (blockedState (.revertPending 0 .ttlExpired 0)) ⟨"ssh:1", "203.0.113.7"⟩
        (answering (.ok ())) ∧
      ¬ Truthful (blockedState (.revertPending 0 .ttlExpired 0)) ⟨"ssh:1", "203.0.113.7"⟩
        (answering (.ok ())) 0 "h" := by
  have hkind : classifyRevertError "no such rule" = .alreadyAbsent := by decide +kernel
  refine ⟨⟨?_, ?_⟩, ?_, ?_⟩
  · rw [allConfirmed_iff (uniqueIds_blockedState _)]
    simp [SomeFails, SomePending, State.blocks, blockedState, answering, hkind,
      LifecycleState.IsPending]
  · rw [truthful_iff_flag, revertOk_iff (uniqueIds_blockedState _),
      allConfirmed_iff (uniqueIds_blockedState _)]
    simp [SomeFails, SomePending, State.blocks, blockedState, answering, hkind,
      LifecycleState.IsPending]
  · rw [allConfirmed_iff (uniqueIds_blockedState _)]
    simp [SomePending, State.blocks, blockedState, LifecycleState.IsPending]
  · rw [truthful_iff_flag, revertOk_iff (uniqueIds_blockedState _),
      allConfirmed_iff (uniqueIds_blockedState _)]
    simp [SomeFails, SomePending, State.blocks, blockedState, answering, LifecycleState.IsPending]

/-- A revert that succeeds is reported as it is. -/
theorem truthful_iff_reverted :
    UniqueIds (blockedState .active).lifecycle ∧
      (Truthful ((machine 0 "h" false).exec (blockedState .active) []) ⟨"ssh:1", "203.0.113.7"⟩
          (answering (.ok ())) 0 "h" ↔
        SomeFails (blockedState .active) ⟨"ssh:1", "203.0.113.7"⟩ (answering (.ok ())) .transient ∨
          (SomeFails (blockedState .active) ⟨"ssh:1", "203.0.113.7"⟩ (answering (.ok ()))
              .alreadyAbsent ↔
            SomePending (blockedState .active) ⟨"ssh:1", "203.0.113.7"⟩)) :=
  ⟨uniqueIds_blockedState _, truthful_unblock_iff 0 "h" _ (uniqueIds_blockedState _) [] _ _⟩

/-! ## The queue of requests -/

/-- The last row of each incident. -/
def latestRows (window : List StoredDecision) : List StoredDecision :=
  window.filter fun r => window.all fun q => q.incidentId ≠ r.incidentId ∨ q.id ≤ r.id

/-- The request that a row is, if it is one. -/
def requestOf (r : StoredDecision) : Option Request :=
  if r.actionType = "operator_unblock_request" then r.targetIp.map fun ip => ⟨r.incidentId, ip⟩
  else none

theorem findPendingUnblocks_eq (rows : List StoredDecision) (cutoff : String) :
    findPendingUnblocks rows cutoff =
      (latestRows (rows.filter fun r => cutoff ≤ r.ts)).filterMap requestOf := by
  rw [findPendingUnblocks, filterMap_filter]
  simp only [decide_eq_true_eq]
  rfl

theorem latestRows_concat {window : List StoredDecision} {new : StoredDecision}
    (hlt : ∀ r ∈ window, r.id < new.id) : latestRows (window ++ [new]) =
      (latestRows window).filter (fun r => r.incidentId ≠ new.incidentId) ++ [new] := by
  have hself : (window ++ [new]).all fun q => q.incidentId ≠ new.incidentId ∨ q.id ≤ new.id :=
    all_eq_true.mpr fun q hq => decide_eq_true <| by
      rcases mem_append.mp hq with hq | hq
      · exact .inr (hlt q hq).le
      · exact .inr (mem_singleton.mp hq ▸ le_rfl)
  rw [latestRows, filter_append, filter_singleton, hself, latestRows, filter_filter]
  refine congrArg (· ++ [new]) (filter_congr fun r hr => ?_)
  have hnew : ¬ new.id ≤ r.id := Int.not_le.mpr (hlt r hr)
  simp [hnew, Bool.and_comm, eq_comm]

/-- A decision in a queue of pending requests: it ends the request of its incident, and is
queued if it is a request itself.  One before the cutoff does nothing. -/
def enqueue (cutoff : String) (pending : List Request) (row : StoredDecision) : List Request :=
  if cutoff ≤ row.ts then
    pending.filter (fun request => request.incidentId ≠ row.incidentId) ++ (requestOf row).toList
  else pending

theorem findPendingUnblocks_concat {rows : List StoredDecision} {new : StoredDecision}
    (hlt : ∀ r ∈ rows, r.id < new.id) (cutoff : String) :
    findPendingUnblocks (rows ++ [new]) cutoff =
      enqueue cutoff (findPendingUnblocks rows cutoff) new := by
  rw [findPendingUnblocks_eq, findPendingUnblocks_eq, filter_append, filter_singleton, enqueue]
  split
  case isFalse hts => simp [hts]
  case isTrue hts =>
    have hwindow : ∀ r ∈ rows.filter (fun r => cutoff ≤ r.ts), r.id < new.id :=
      fun r hr => hlt r (mem_filter.mp hr).1
    rw [decide_eq_true hts, cond_true, latestRows_concat hwindow, filterMap_append,
      filterMap_filter, filter_filterMap]
    refine congrArg₂ (· ++ ·) (filterMap_congr fun r _ => ?_) ?_
    · simp only [requestOf]
      by_cases hkind : r.actionType = "operator_unblock_request"
      · cases r.targetIp <;> simp [hkind, Option.filter]
      · simp [hkind]
    · cases h : requestOf new <;> simp [h]

/-- The query over the window of decisions reads off a queue that the decisions go through one
after the other. -/
theorem findPendingUnblocks_eq_foldl (t : Decisions) (cutoff : String) :
    findPendingUnblocks t.rows cutoff = t.rows.foldl (enqueue cutoff) [] := by
  obtain ⟨rows, hsorted⟩ := t
  induction rows using reverseRecOn with
  | nil => rfl
  | append_singleton rows new ih =>
    obtain ⟨hrows, -, hlt⟩ := pairwise_append.mp hsorted
    rw [findPendingUnblocks_concat (fun r hr => hlt r hr new (mem_singleton_self new)),
      foldl_append, ih hrows]
    rfl

end OperatorUnblock

end Innerwarden

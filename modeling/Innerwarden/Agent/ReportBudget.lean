import Mathlib.Algebra.Order.Ring.Int
import Innerwarden.Lib.IpAddr
import Innerwarden.Lib.StateMachine
import Innerwarden.Store.KeyValue

/-!
# The budget of community reports

`crates/agent/src/abuseipdb_report_budget.rs`.  Blocked addresses wait in a queue.  A flush
plans what is reported of it (`planQueueFlush`) and then makes the calls
(`dispatchFlushOutcomes`).  A call that succeeds writes its receipt: the day's counter and a
mark for the address.  The receipts of a flush are made at planning time, from one reading of
the counter.  So a flush raises the counter by one, and an address that stands twice in a queue
is planned twice.

* `step_flush_reports`: what a flush reports.
* `World.Sound`: the marks cover the reports of the last 24 hours.
* `budgetHolds_of_fits`: when a day keeps the budget.
-/

namespace Innerwarden.ReportBudget

open StateMachine List Option

/-! ## Checking the budget -/

def reportedNs : String := "abuseipdb_reported"

def limitsNs : String := "abuseipdb_report_limits"

def counterKey (today : String) : String := "abuseipdb_report_daily_" ++ today

/-- The receipt of a report that may be made. -/
structure ReportBudgetCommit where
  ip : String
  today : String
  newCount : Nat

/-- Why a report may not be made. -/
inductive RejectReason where
  | alreadyReportedToday
  | dailyCapReached
deriving DecidableEq

/-- The answer of the budget. -/
inductive ReportBudgetDecision where
  | allow (commit : ReportBudgetCommit)
  | reject (reason : RejectReason)

/-- The counter of a day.  One that is missing or is no number counts as zero. -/
def storedCount (store : List KvRow) (today : String) : Nat :=
  ((kvGet store limitsNs (counterKey today)).bind parseU32).getD 0

/-- The address was not reported, and the day has room. -/
def checkReportBudget (store : List KvRow) (ip today : String) (dailyCap : Nat) :
    ReportBudgetDecision :=
  if (kvGet store reportedNs ip).isSome then .reject .alreadyReportedToday
  else if dailyCap ≤ storedCount store today then .reject .dailyCapReached
  else .allow ⟨ip, today, storedCount store today + 1⟩

/-- `ReportBudgetCommit::apply` at the instant `now`. -/
def ReportBudgetCommit.apply (now : DateTime) (commit : ReportBudgetCommit) (store : List KvRow) :
    List KvRow :=
  let store := kvSet store limitsNs (counterKey commit.today) (toString commit.newCount)
  kvSetWithExpiry store reportedNs commit.ip "1" (some (now + hours 24))

/-! ## Planning a flush -/

/-- An entry of `abuseipdb_report_queue`. -/
structure QueueEntry where
  ip : String
  comment : String
  categories : String
  queuedAt : DateTime

/-- The plan for an entry of the queue. -/
inductive FlushOutcome where
  | send (ip categories comment : String) (commit : Option ReportBudgetCommit)
  | skipCloud (ip provider : String)
  | skip (ip : String) (reason : RejectReason)

/-- `u32::saturating_add(1)`. -/
def saturatingSucc (n : Nat) : Nat := min (n + 1) 4294967295

/-- The loop of `plan_queue_flush`, with the sends planned so far. -/
def planFrom (store : Option (List KvRow)) (identifyProvider : String → Option String)
    (today : String) (dailyCap : Nat) : Nat → List QueueEntry → List FlushOutcome
  | _, [] => []
  | planned, entry :: ready =>
    match identifyProvider entry.ip with
    | some provider =>
      .skipCloud entry.ip provider ::
        planFrom store identifyProvider today dailyCap planned ready
    | none =>
      match store with
      | some sq =>
        match checkReportBudget sq entry.ip today (dailyCap - planned) with
        | .allow commit =>
          .send entry.ip entry.categories entry.comment (some commit) ::
            planFrom store identifyProvider today dailyCap (saturatingSucc planned) ready
        | .reject reason =>
          .skip entry.ip reason ::
            planFrom store identifyProvider today dailyCap planned ready
      | none =>
        .send entry.ip entry.categories entry.comment none ::
          planFrom store identifyProvider today dailyCap (saturatingSucc planned) ready

def planQueueFlush (ready : List QueueEntry) (store : Option (List KvRow))
    (identifyProvider : String → Option String) (today : String) (dailyCap : Nat) :
    List FlushOutcome :=
  planFrom store identifyProvider today dailyCap 0 ready

/-! ## Making the calls -/

/-- A report the service has accepted. -/
structure Report where
  ip : String
  time : DateTime

/-- One call of `report_fn`: its answer, how long it took, and whether the maintenance
task swept the table meanwhile. -/
structure ReportCall where
  ok : Bool
  took : Nat
  swept : Bool

/-- The table, the clock, and the reports the service has accepted, oldest first. -/
structure World where
  store : Option (List KvRow)
  now : DateTime
  reports : List Report

/-- Time passes, with or without a sweep at its end. -/
def World.pass (w : World) (took : Nat) (swept : Bool) : World :=
  let now := w.now + took
  { w with
    now := now
    store := if swept then w.store.map (kvCleanupExpired now) else w.store }

/-- A call has succeeded: the report is made and its receipt is applied. -/
def World.succeed (w : World) (ip : String) (commit : Option ReportBudgetCommit) : World :=
  { w with
    reports := w.reports ++ [⟨ip, w.now⟩]
    store :=
      match w.store, commit with
      | some sq, some c => some (c.apply w.now sq)
      | store, _ => store }

/-- What became of the entries of a flush. -/
structure FlushCounts where
  sent : Nat := 0
  droppedCloud : Nat := 0
  droppedDedup : Nat := 0
  droppedCap : Nat := 0
  droppedFailed : Nat := 0

/-- `dispatch_flush_outcomes`, with the answers of the calls in order.  Calls beyond the
list fail at once. -/
def dispatchFlushOutcomes (w : World) (counts : FlushCounts) (calls : List ReportCall) :
    List FlushOutcome → World × FlushCounts
  | [] => (w, counts)
  | .skipCloud _ _ :: outcomes =>
    dispatchFlushOutcomes w { counts with droppedCloud := counts.droppedCloud + 1 } calls outcomes
  | .skip _ .alreadyReportedToday :: outcomes =>
    dispatchFlushOutcomes w { counts with droppedDedup := counts.droppedDedup + 1 } calls outcomes
  | .skip _ .dailyCapReached :: outcomes =>
    dispatchFlushOutcomes w { counts with droppedCap := counts.droppedCap + 1 } calls outcomes
  | .send ip _ _ commit :: outcomes =>
    let call := calls.headD ⟨false, 0, false⟩
    let w := w.pass call.took call.swept
    if call.ok then
      dispatchFlushOutcomes (w.succeed ip commit) { counts with sent := counts.sent + 1 }
        calls.tail outcomes
    else
      dispatchFlushOutcomes w { counts with droppedFailed := counts.droppedFailed + 1 }
        calls.tail outcomes

/-! ## What a flush reports -/

def FlushOutcome.target : FlushOutcome → Option String
  | .send ip _ _ _ => some ip
  | _ => none

/-- A planned call carries the receipt of its address, made from the given count. -/
def FlushOutcome.Receipted (today : String) (count : Nat) : FlushOutcome → Prop
  | .send ip _ _ commit => commit = some ⟨ip, today, count + 1⟩
  | _ => True

/-- The reports of a list of calls that start at an instant. -/
def successes : DateTime → List ReportCall → List String → List Report
  | _, _, [] => []
  | now, calls, ip :: ips =>
    let call := calls.headD ⟨false, 0, false⟩
    if call.ok then ⟨ip, now + call.took⟩ :: successes (now + call.took) calls.tail ips
    else successes (now + call.took) calls.tail ips

def eligible (store : List KvRow) (identifyProvider : String → Option String) (entry : QueueEntry) :
    Bool :=
  (identifyProvider entry.ip).isNone && (kvGet store reportedNs entry.ip).isNone

/-- The addresses a flush calls for: the first eligible ones, as many as the cap exceeds the
counter. -/
def callable (store : List KvRow) (identifyProvider : String → Option String) (today : String)
    (dailyCap : Nat) (ready : List QueueEntry) : List String :=
  ((ready.filter (eligible store identifyProvider)).take
    (dailyCap - storedCount store today)).map QueueEntry.ip

section Flush

variable {store : List KvRow} {identifyProvider : String → Option String} {today : String}
  {dailyCap : Nat}

theorem filterMap_target_send (ip categories comment : String)
    (commit : Option ReportBudgetCommit) (outcomes : List FlushOutcome) :
    (FlushOutcome.send ip categories comment commit :: outcomes).filterMap FlushOutcome.target =
      ip :: outcomes.filterMap FlushOutcome.target := rfl

/-- The planned calls. -/
theorem filterMap_target_planFrom (hcap : dailyCap < 4294967296) (ready : List QueueEntry)
    (planned : Nat) (hplanned : planned ≤ dailyCap) :
    (planFrom (some store) identifyProvider today dailyCap planned ready).filterMap
        FlushOutcome.target =
      ((ready.filter (eligible store identifyProvider)).take
        (dailyCap - planned - storedCount store today)).map QueueEntry.ip := by
  induction ready generalizing planned with
  | nil => simp [planFrom]
  | cons entry ready ih =>
    cases hcloud : identifyProvider entry.ip with
    | some provider =>
      have hskip : eligible store identifyProvider entry = false := by simp [eligible, hcloud]
      simp only [planFrom, hcloud]
      rw [filterMap_cons_none rfl, filter_cons_of_neg (by simp [hskip])]
      exact ih planned hplanned
    | none =>
      cases hmark : kvGet store reportedNs entry.ip with
      | some mark =>
        have hskip : eligible store identifyProvider entry = false := by
          simp [eligible, hmark]
        simp only [planFrom, hcloud, checkReportBudget, hmark, isSome_some, if_true]
        rw [filterMap_cons_none rfl, filter_cons_of_neg (by simp [hskip])]
        exact ih planned hplanned
      | none =>
        have hkeep : eligible store identifyProvider entry = true := by
          simp [eligible, hcloud, hmark]
        simp only [planFrom, hcloud, checkReportBudget, hmark, isSome_none,
          Bool.false_eq_true, if_false, filter_cons_of_pos hkeep]
        by_cases hroom : dailyCap - planned ≤ storedCount store today
        · -- The counter has reached the cap: nothing more of the queue is planned.
          have hzero : dailyCap - planned - storedCount store today = 0 := by omega
          have hrest := ih planned hplanned
          rw [hzero, take_zero, map_nil] at hrest
          simp only [hroom, if_true]
          rw [filterMap_cons_none rfl, hrest, hzero, take_zero, map_nil]
        · have hsucc : saturatingSucc planned = planned + 1 := by
            simp only [saturatingSucc]
            omega
          have hleft : dailyCap - planned - storedCount store today =
              (dailyCap - (planned + 1) - storedCount store today) + 1 := by omega
          simp only [hroom, if_false, hsucc]
          rw [filterMap_target_send, ih (planned + 1) (by omega), hleft, take_succ_cons,
            map_cons]

theorem filterMap_target_planQueueFlush (hcap : dailyCap < 4294967296) (ready : List QueueEntry) :
    (planQueueFlush ready (some store) identifyProvider today dailyCap).filterMap
        FlushOutcome.target =
      callable store identifyProvider today dailyCap ready := by
  rw [planQueueFlush, filterMap_target_planFrom hcap ready 0 (Nat.zero_le dailyCap), Nat.sub_zero]
  rfl

/-- What the budget check can answer. -/
theorem checkReportBudget_cases (store : List KvRow) (ip today : String) (dailyCap : Nat) :
    (∃ reason, checkReportBudget store ip today dailyCap = .reject reason) ∨
      checkReportBudget store ip today dailyCap =
        .allow ⟨ip, today, storedCount store today + 1⟩ := by
  rw [checkReportBudget]
  split
  · exact Or.inl ⟨_, rfl⟩
  · split
    · exact Or.inl ⟨_, rfl⟩
    · exact Or.inr rfl

theorem receipted_planFrom (ready : List QueueEntry) (planned : Nat) :
    ∀ o ∈ planFrom (some store) identifyProvider today dailyCap planned ready,
      o.Receipted today (storedCount store today) := by
  induction ready generalizing planned with
  | nil => simp [planFrom]
  | cons entry ready ih =>
    cases hcloud : identifyProvider entry.ip with
    | some provider =>
      simp only [planFrom, hcloud]
      exact forall_mem_cons.mpr ⟨trivial, ih planned⟩
    | none =>
      rcases checkReportBudget_cases store entry.ip today (dailyCap - planned) with
        ⟨reason, hcheck⟩ | hcheck
      · simp only [planFrom, hcloud, hcheck]
        exact forall_mem_cons.mpr ⟨trivial, ih planned⟩
      · simp only [planFrom, hcloud, hcheck]
        exact forall_mem_cons.mpr ⟨rfl, ih (saturatingSucc planned)⟩

/-- The reports of a dispatch. -/
theorem dispatchFlushOutcomes_reports (outcomes : List FlushOutcome) (w : World)
    (counts : FlushCounts) (calls : List ReportCall) :
    (dispatchFlushOutcomes w counts calls outcomes).1.reports =
      w.reports ++ successes w.now calls (outcomes.filterMap FlushOutcome.target) := by
  induction outcomes generalizing w counts calls with
  | nil => simp [dispatchFlushOutcomes, successes]
  | cons o outcomes ih =>
    cases o with
    | skipCloud ip provider =>
      rw [dispatchFlushOutcomes, ih, filterMap_cons_none rfl]
    | skip ip reason =>
      cases reason with
      | alreadyReportedToday | dailyCapReached =>
        rw [dispatchFlushOutcomes, ih, filterMap_cons_none rfl]
    | send ip categories comment commit =>
      rw [filterMap_target_send, dispatchFlushOutcomes, successes]
      cases hok : (calls.headD ⟨false, 0, false⟩).ok with
      | true =>
        simp only [if_true, ih, World.succeed, World.pass, append_assoc,
          singleton_append]
      | false => simp only [Bool.false_eq_true, if_false, ih, World.pass]

end Flush

/-! ## The marks -/

/-- The reports are past, and there is a table that marks the address of each for 24 hours. -/
structure World.Sound (w : World) : Prop where
  past : ∀ r ∈ w.reports, r.time ≤ w.now
  marked : ∃ store, w.store = some store ∧ ∀ r ∈ w.reports, w.now ≤ r.time + hours 24 →
    ∃ value expiry, kvEntry store (reportedNs, r.ip) = some (value, some expiry) ∧
      r.time + hours 24 ≤ expiry

variable {w : World} {store : List KvRow}

theorem World.Sound.pass (h : w.Sound) (took : Nat) (swept : Bool) :
    (w.pass took swept).Sound := by
  have hlater : w.now ≤ w.now + took := le_add_of_nonneg_right (Int.natCast_nonneg took)
  obtain ⟨store, hstore, hmarked⟩ := h.marked
  refine ⟨fun r hr => (h.past r hr).trans hlater, ?_⟩
  cases swept with
  | false => exact ⟨store, hstore, fun r hr hnow => hmarked r hr (hlater.trans hnow)⟩
  | true =>
    refine ⟨kvCleanupExpired (w.now + took) store, by simp [World.pass, hstore],
      fun r hr hnow => ?_⟩
    obtain ⟨value, expiry, hentry, hexpiry⟩ := hmarked r hr (hlater.trans hnow)
    refine ⟨value, expiry, kvEntry_kvCleanupExpired hentry fun e he => ?_, hexpiry⟩
    cases he
    exact le_trans hnow hexpiry

theorem kvEntry_apply_self (now : DateTime) (c : ReportBudgetCommit) (store : List KvRow) :
    kvEntry (c.apply now store) (reportedNs, c.ip) = some ("1", some (now + hours 24)) :=
  kvEntry_kvSetWithExpiry_self

theorem kvEntry_apply_of_ne {now : DateTime} {c : ReportBudgetCommit} {ip : String}
    (h : ip ≠ c.ip) :
    kvEntry (c.apply now store) (reportedNs, ip) = kvEntry store (reportedNs, ip) := by
  rw [ReportBudgetCommit.apply, kvEntry_kvSetWithExpiry_of_ne (by simp [h]), kvSet,
    kvEntry_kvSetWithExpiry_of_ne (by simp [reportedNs, limitsNs])]

theorem World.Sound.succeed (h : w.Sound) (c : ReportBudgetCommit) :
    (w.succeed c.ip (some c)).Sound := by
  obtain ⟨store, hstore, hmarked⟩ := h.marked
  refine ⟨fun r hr => ?_, c.apply w.now store, by simp [World.succeed, hstore],
    fun r hr hnow => ?_⟩
  · rcases mem_append.mp hr with hr | hr
    · exact h.past r hr
    · rw [mem_singleton.mp hr]
      exact Int.le_refl _
  · by_cases hip : r.ip = c.ip
    · -- The new expiry is at least as late as that of an earlier report.
      refine ⟨_, _, hip ▸ kvEntry_apply_self w.now c store, ?_⟩
      rcases mem_append.mp hr with hr | hr
      · exact add_le_add_left (h.past r hr) _
      · rw [mem_singleton.mp hr]
    · rcases mem_append.mp hr with hr | hr
      · obtain ⟨value, expiry, hentry, hexpiry⟩ := hmarked r hr hnow
        exact ⟨value, expiry, (kvEntry_apply_of_ne hip).trans hentry, hexpiry⟩
      · exact absurd (by rw [mem_singleton.mp hr]) hip

/-- What time and receipts keep, a dispatch keeps. -/
theorem dispatchFlushOutcomes_invariant {P : World → Prop}
    (hpass : ∀ w took swept, P w → P (w.pass took swept))
    (hsucceed : ∀ w (c : ReportBudgetCommit), P w → P (w.succeed c.ip (some c)))
    {today : String} {count : Nat} (outcomes : List FlushOutcome)
    (hreceipted : ∀ o ∈ outcomes, o.Receipted today count) (w : World) (counts : FlushCounts)
    (calls : List ReportCall) (h : P w) :
    P (dispatchFlushOutcomes w counts calls outcomes).1 := by
  induction outcomes generalizing w counts calls with
  | nil => exact h
  | cons o outcomes ih =>
    obtain ⟨ho, hrest⟩ := forall_mem_cons.mp hreceipted
    cases o with
    | skipCloud ip provider => exact ih hrest w _ calls h
    | skip ip reason =>
      cases reason with
      | alreadyReportedToday | dailyCapReached => exact ih hrest w _ calls h
    | send ip categories comment commit =>
      cases ho
      rw [dispatchFlushOutcomes]
      have hw := hpass w (calls.headD ⟨false, 0, false⟩).took
        (calls.headD ⟨false, 0, false⟩).swept h
      cases (calls.headD ⟨false, 0, false⟩).ok with
      | true => exact ih hrest _ _ _ (hsucceed _ _ hw)
      | false => exact ih hrest _ _ _ hw

theorem kvGet_of_mem_callable {identifyProvider : String → Option String} {today ip : String}
    {dailyCap : Nat} {ready : List QueueEntry}
    (h : ip ∈ callable store identifyProvider today dailyCap ready) :
    kvGet store reportedNs ip = none := by
  obtain ⟨entry, hentry, rfl⟩ := mem_map.mp h
  have heligible := of_mem_filter (mem_of_mem_take hentry)
  simp only [eligible, Bool.and_eq_true, isNone_iff_eq_none] at heligible
  exact heligible.2

theorem le_time_of_mem_successes {ips : List String} {now : DateTime} {calls : List ReportCall}
    {r : Report} (h : r ∈ successes now calls ips) : now ≤ r.time := by
  induction ips generalizing now calls with
  | nil => cases h
  | cons ip ips ih =>
    have hlater : now ≤ now + (calls.headD ⟨false, 0, false⟩).took :=
      le_add_of_nonneg_right (Int.natCast_nonneg _)
    rw [successes] at h
    cases hok : (calls.headD ⟨false, 0, false⟩).ok with
    | true =>
      simp only [hok, if_true] at h
      rcases mem_cons.mp h with rfl | h
      · exact hlater
      · exact hlater.trans (ih h)
    | false =>
      simp only [hok, Bool.false_eq_true, if_false] at h
      exact hlater.trans (ih h)

/-- Only addresses that are called for are reported, and each call reports one at most. -/
theorem successes_sublist (now : DateTime) (calls : List ReportCall) (ips : List String) :
    ((successes now calls ips).map Report.ip).Sublist ips := by
  induction ips generalizing now calls with
  | nil => exact .slnil
  | cons ip ips ih =>
    rw [successes]
    cases (calls.headD ⟨false, 0, false⟩).ok with
    | true => exact (ih ..).cons_cons ip
    | false => exact (ih ..).cons ip

/-- The service may accept every report at once. -/
theorem successes_all_ok (now : DateTime) (ips : List String) :
    successes now (replicate ips.length ⟨true, 0, false⟩) ips = ips.map fun ip => ⟨ip, now⟩ := by
  induction ips with
  | nil => rfl
  | cons ip ips ih => simp [successes, replicate_succ, ih]

/-! ## Runs -/

/-- What happens on a day: a flush of the entries that are ready, or a sweep of the
maintenance task, each some time after what was before it. -/
inductive Op where
  | flush (after : Nat) (ready : List QueueEntry) (calls : List ReportCall)
  | sweep (after : Nat)

/-- One of them. -/
def World.step (identifyProvider : String → Option String) (today : String) (cap : UInt32)
    (w : World) : Op → World × Option FlushCounts
  | .flush after ready calls =>
    let w := w.pass after false
    let outcomes := planQueueFlush ready w.store identifyProvider today cap.toNat
    let (w, counts) := dispatchFlushOutcomes w {} calls outcomes
    (w, some counts)
  | .sweep after => (w.pass after true, none)

/-- One day of flushes, from an empty table. -/
def machine (identifyProvider : String → Option String) (today : String) (cap : UInt32)
    (start : DateTime) : StateMachine World Op (Option FlushCounts) where
  init := ⟨some [], start, []⟩
  step := World.step identifyProvider today cap

/-- Two reports of one address are more than 24 hours apart. -/
def Report.Apart (a b : Report) : Prop := a.ip = b.ip → a.time + hours 24 < b.time

instance (a b : Report) : Decidable (a.Apart b) := inferInstanceAs (Decidable (_ → _))

/-- The budget: no more reports than the cap, and no address twice within 24 hours. -/
def BudgetHolds (cap : UInt32) (reports : List Report) : Prop :=
  reports.length ≤ cap.toNat ∧ reports.Pairwise Report.Apart

instance (cap : UInt32) (reports : List Report) : Decidable (BudgetHolds cap reports) :=
  inferInstanceAs (Decidable (_ ∧ _))

/-- The addresses the flush calls for are different, and fit beside the reports made before.  They
are those of the first entries that are neither of a cloud provider nor marked, as many as the cap
exceeds the stored counter. -/
def Fits (identifyProvider : String → Option String) (today : String) (cap : UInt32) (w : World) :
    Op → Prop
  | .flush _ ready _ =>
    let called := callable (w.store.getD []) identifyProvider today cap.toNat ready
    w.reports.length + called.length ≤ cap.toNat ∧ called.Nodup
  | .sweep _ => True

instance (identifyProvider : String → Option String) (today : String) (cap : UInt32) (w : World) :
    ∀ op, Decidable (Fits identifyProvider today cap w op)
  | .flush _ _ _ => inferInstanceAs (Decidable (_ ∧ _))
  | .sweep _ => instDecidableTrue

section Runs

variable (identifyProvider : String → Option String) (today : String) (cap : UInt32)

theorem step_flush_reports (hstore : w.store = some store)
    (after : Nat) (ready : List QueueEntry) (calls : List ReportCall) :
    (w.step identifyProvider today cap (.flush after ready calls)).1.reports =
      w.reports ++ successes (w.now + after) calls
        (callable store identifyProvider today cap.toNat ready) := by
  simp only [World.step, World.pass, Bool.false_eq_true, if_false, hstore]
  rw [dispatchFlushOutcomes_reports, filterMap_target_planQueueFlush (UInt32.toNat_lt cap)]

theorem World.Sound.step (h : w.Sound) (op : Op) :
    (w.step identifyProvider today cap op).1.Sound := by
  cases op with
  | sweep after => exact h.pass after true
  | flush after ready calls =>
    have hpass := h.pass after false
    obtain ⟨store, hstore, -⟩ := hpass.marked
    have hreceipted : ∀ o ∈ planQueueFlush ready (w.pass after false).store identifyProvider today
        cap.toNat, o.Receipted today (storedCount store today) := by
      rw [hstore]
      exact receipted_planFrom ready 0
    exact dispatchFlushOutcomes_invariant (fun w took swept hw => hw.pass took swept)
      (fun w c hw => hw.succeed c) _ hreceipted _ _ _ hpass

variable {identifyProvider today cap}

theorem apart_of_kvGet (hsound : w.Sound) (hstore : w.store = some store) {a b : Report}
    (ha : a ∈ w.reports) (hnow : w.now ≤ b.time)
    (hb : kvGet store reportedNs b.ip = none) : a.Apart b := by
  intro hip
  by_contra hle
  have hwithin : w.now ≤ a.time + hours 24 := hnow.trans (not_lt.mp hle)
  obtain ⟨store', hstore', hmarked⟩ := hsound.marked
  cases hstore.symm.trans hstore'
  obtain ⟨value, expiry, hentry, -⟩ := hmarked a ha hwithin
  rw [hip] at hentry
  rw [kvGet, hentry] at hb
  cases hb

theorem pairwise_apart_of_nodup {rs : List Report} (h : (rs.map Report.ip).Nodup) :
    rs.Pairwise Report.Apart :=
  (pairwise_map.mp h).imp fun hne heq => absurd heq hne

/-- A step that fits keeps the budget, whatever the service answers. -/
theorem BudgetHolds.step (hbudget : BudgetHolds cap w.reports) (hsound : w.Sound) (op : Op)
    (hfits : Fits identifyProvider today cap w op) :
    BudgetHolds cap (w.step identifyProvider today cap op).1.reports := by
  cases op with
  | sweep after => exact hbudget
  | flush after ready calls =>
    obtain ⟨store, hstore, -⟩ := hsound.marked
    rw [Fits, hstore, getD_some] at hfits
    rw [step_flush_reports identifyProvider today cap hstore]
    have hmade := successes_sublist (w.now + after) calls
      (callable store identifyProvider today cap.toNat ready)
    constructor
    · have hlength := hmade.length_le
      rw [length_map] at hlength
      rw [length_append]
      exact (Nat.add_le_add_left hlength _).trans hfits.1
    · refine pairwise_append.mpr ⟨hbudget.2, pairwise_apart_of_nodup (hfits.2.sublist hmade),
        fun a ha b hb => ?_⟩
      have hlater : w.now ≤ w.now + after := le_add_of_nonneg_right (Int.natCast_nonneg after)
      exact apart_of_kvGet hsound hstore ha (hlater.trans (le_time_of_mem_successes hb))
        (kvGet_of_mem_callable (hmade.subset (mem_map_of_mem hb)))

/-- A flush that keeps the budget whatever the service answers fits. -/
theorem fits_of_forall_calls (hstore : w.store = some store) {after : Nat} {ready : List QueueEntry}
    (h : ∀ calls, BudgetHolds cap
      (w.step identifyProvider today cap (.flush after ready calls)).1.reports) :
    Fits identifyProvider today cap w (.flush after ready []) := by
  -- all calls succeed in no time
  have hall := h (replicate (callable store identifyProvider today cap.toNat ready).length
    ⟨true, 0, false⟩)
  rw [step_flush_reports identifyProvider today cap hstore, successes_all_ok] at hall
  rw [Fits, hstore, getD_some]
  constructor
  · have hlength := hall.1
    rwa [length_append, length_map] at hlength
  · refine (pairwise_map.mp (pairwise_append.mp hall.2).2.1).imp fun hapart heq => ?_
    have hday := hapart heq
    rw [hours, seconds] at hday
    simp at hday

theorem sound_init (start : DateTime) : World.Sound ⟨some [], start, []⟩ :=
  ⟨fun _ hr => absurd hr not_mem_nil, [], rfl, fun _ hr => absurd hr not_mem_nil⟩

end Runs

/-- A day whose flushes all fit keeps the budget, and its next flush keeps it whatever the service
answers exactly when it fits too. -/
theorem budgetHolds_of_fits (identifyProvider : String → Option String) (today : String)
    (cap : UInt32) (start : DateTime) (ops : List Op)
    (hfits : (machine identifyProvider today cap start).Meets (Fits identifyProvider today cap)
      (machine identifyProvider today cap start).init ops)
    (after : Nat) (ready : List QueueEntry) :
    let M := machine identifyProvider today cap start
    BudgetHolds cap (M.exec M.init ops).reports ∧
      ((∀ calls, BudgetHolds cap (M.exec M.init (ops ++ [.flush after ready calls])).reports) ↔
        Fits identifyProvider today cap (M.exec M.init ops) (.flush after ready [])) := by
  intro M
  obtain ⟨hsound, hbudget⟩ : (M.exec M.init ops).Sound ∧
      BudgetHolds cap (M.exec M.init ops).reports :=
    exec_invariant_of_meets (P := fun w : World => w.Sound ∧ BudgetHolds cap w.reports)
      (fun w op h hop => ⟨h.1.step identifyProvider today cap op, h.2.step h.1 op hop⟩) ops
      ⟨sound_init start, Nat.zero_le _, .nil⟩ hfits
  obtain ⟨store, hstore, -⟩ := hsound.marked
  refine ⟨hbudget, ?_⟩
  simp only [exec_append]
  exact ⟨fun h => fits_of_forall_calls hstore h, fun h calls => hbudget.step hsound _ h⟩

def sampleEntry (ip : String) : QueueEntry := ⟨ip, "", "", 0⟩

def sampleCall : ReportCall := ⟨true, 1000000000, false⟩

/-- A report that fails, and one of the same address in the next flush.  Then the cap of two leaves
room for one more entry, but not for two. -/
theorem budgetHolds_of_fits_retry :
    let M := machine (fun _ => none) "d" 2 0
    let ops := [.flush 0 [sampleEntry "a"] [⟨false, 0, false⟩],
      .flush 0 [sampleEntry "a"] [sampleCall]]
    BudgetHolds 2 (M.exec M.init ops).reports ∧ (M.exec M.init ops).reports.length = 1 ∧
      ∀ calls, BudgetHolds 2
        (M.exec M.init (ops ++ [.flush 0 [sampleEntry "a", sampleEntry "b"] calls])).reports := by
  intro M ops
  have hday := budgetHolds_of_fits (fun _ => none) "d" 2 0 ops (by decide +kernel) 0
    [sampleEntry "a", sampleEntry "b"]
  exact ⟨hday.1, by decide +kernel, hday.2.mpr (by decide +kernel)⟩

/-- With a cap of two, a flush of two entries leaves the counter at one, so the next flush makes
a third report.  With a cap of five, an address that stands twice in a queue is reported twice. -/
theorem budget_exceeded :
    (let M := machine (fun _ => none) "d" 2 0
     ¬ BudgetHolds 2 (M.exec M.init
       [.flush 0 [sampleEntry "a", sampleEntry "b"] [sampleCall, sampleCall],
        .flush 0 [sampleEntry "c"] [sampleCall]]).reports) ∧
    (let M := machine (fun _ => none) "d" 5 0
     ¬ BudgetHolds 5 (M.exec M.init
       [.flush 0 [sampleEntry "a", sampleEntry "a"] [sampleCall, sampleCall]]).reports) := by
  decide +kernel

end Innerwarden.ReportBudget

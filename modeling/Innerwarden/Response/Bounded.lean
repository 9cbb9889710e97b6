import Innerwarden.Response.Accounting

/-!
# Bounded reverts

Each id has a *budget*, the revert actions that can still be issued for it: all attempts before
it is registered and while it is active, one less with every action, none once its entry is
gone.  Every step pays for the actions it returns out of this budget, so a run returns no more
than the attempts of a fresh id.
-/

namespace Innerwarden

open ResponseLifecycle List Option StateMachine

/-! ## Looking an entry up -/

variable {id : String} (now : DateTime)

theorem findEntry_setState_self {st : LifecycleState} {es : List ActiveResponse}
    {e : ActiveResponse} (h : findEntry id es = some e) :
    findEntry id (setState id st es) = some { e with state := st } := by
  induction es with
  | nil => cases h
  | cons f es ih =>
    rw [findEntry_cons] at h
    rw [setState]
    split at h
    case isTrue hf => rw [if_pos hf, findEntry_cons, if_pos hf, Option.some.inj h]
    case isFalse hf => rw [if_neg hf, findEntry_cons, if_neg hf, ih h]

theorem findEntry_setState_of_ne {id' : String} (hne : id ≠ id') (st : LifecycleState)
    (es : List ActiveResponse) : findEntry id (setState id' st es) = findEntry id es := by
  induction es with
  | nil => rfl
  | cons f es ih =>
    rw [setState]
    split
    case isTrue hf => simp [findEntry_cons, hf, Ne.symm hne]
    case isFalse hf => rw [findEntry_cons, findEntry_cons, ih]

theorem findEntry_removeEntry_self {es : List ActiveResponse}
    (h : (es.map ActiveResponse.id).Nodup) : findEntry id (removeEntry id es) = none := by
  induction es with
  | nil => rfl
  | cons f es ih =>
    obtain ⟨hfresh, hnodup⟩ := nodup_cons.mp h
    rw [removeEntry]
    split
    case isTrue hf =>
      rw [findEntry, find?_eq_none]
      intro e he hid
      exact hfresh (mem_map.mpr ⟨e, he, by rw [hf]; simpa using hid⟩)
    case isFalse hf =>
      rw [findEntry_cons, if_neg hf, ih hnodup]

theorem findEntry_removeEntry_of_ne {id' : String} (hne : id ≠ id') (es : List ActiveResponse) :
    findEntry id (removeEntry id' es) = findEntry id es := by
  induction es with
  | nil => rfl
  | cons f es ih =>
    rw [removeEntry]
    split
    case isTrue hf => simp [findEntry_cons, hf, Ne.symm hne]
    case isFalse hf => rw [findEntry_cons, findEntry_cons, ih]

theorem findEntry_map_stageEntry (now : DateTime) (id : String) (es : List ActiveResponse) :
    findEntry id (es.map (stageEntry now)) = (findEntry id es).map (stageEntry now) := by
  rw [findEntry, findEntry, find?_map]
  simp only [Function.comp_def, stageEntry_id]

/-! ## The budget -/

def LifecycleState.budget : LifecycleState → Nat
  | .active => maxRevertAttempts
  | .revertPending _ _ priorAttempts => maxRevertAttempts - (priorAttempts + 1)
  | .revertFailed _ attempts _ _ => maxRevertAttempts - attempts

theorem LifecycleState.budget_le (st : LifecycleState) :
    st.budget ≤ maxRevertAttempts - priorAttempts st := by
  cases st with
  | active | revertFailed _ _ _ _ => exact Nat.le_refl _
  | revertPending _ _ _ => exact Nat.sub_le_sub_left (Nat.le_succ _) _

theorem LifecycleState.budget_eq {st : LifecycleState}
    (h : ∀ since trigger prior, st ≠ .revertPending since trigger prior) :
    st.budget = maxRevertAttempts - priorAttempts st := by
  cases st with
  | active | revertFailed _ _ _ _ => rfl
  | revertPending since trigger prior => exact absurd rfl (h since trigger prior)

theorem LifecycleState.budget_revertFailed_le (st : LifecycleState) (now : DateTime)
    (error : String) (trigger : RevertTrigger) :
    (LifecycleState.revertFailed now (priorAttempts st + 1) error trigger).budget ≤ st.budget := by
  cases st with
  | active => exact Nat.sub_le _ _
  | revertPending _ _ _ => exact Nat.le_refl _
  | revertFailed _ _ _ _ => exact Nat.sub_le_sub_left (Nat.le_succ _) _

namespace ResponseLifecycle

/-- The id has been given out. -/
def Issued (lc : ResponseLifecycle) (id : String) : Prop := ∃ n < lc.nextId, id = responseId n

instance (lc : ResponseLifecycle) (id : String) : Decidable (lc.Issued id) :=
  inferInstanceAs (Decidable (∃ n, n < lc.nextId ∧ id = responseId n))

def budget (lc : ResponseLifecycle) (id : String) : Nat :=
  match findEntry id lc.active with
  | some e => e.state.budget
  | none => if lc.Issued id then 0 else maxRevertAttempts

variable {lc : ResponseLifecycle}

theorem budget_of_some {e : ActiveResponse} (h : findEntry id lc.active = some e) :
    lc.budget id = e.state.budget := by
  simp only [budget, h]

/-- Nothing is left for an id that was given out and is no longer tracked. -/
theorem budget_of_gone (hnone : findEntry id lc.active = none) (hissued : lc.Issued id) :
    lc.budget id = 0 := by
  simp only [budget, hnone, hissued, if_true]

theorem budget_le (lc : ResponseLifecycle) (id : String) : lc.budget id ≤ maxRevertAttempts := by
  unfold budget
  split
  · exact Nat.le_trans (LifecycleState.budget_le _) (Nat.sub_le _ _)
  · split
    · exact Nat.zero_le _
    · exact Nat.le_refl _

/-- The budget only looks at the entry and at the next number. -/
theorem budget_congr {lc lc' : ResponseLifecycle}
    (hfind : findEntry id lc'.active = findEntry id lc.active) (hnext : lc'.nextId = lc.nextId) :
    lc'.budget id = lc.budget id := by
  have hissued : lc'.Issued id ↔ lc.Issued id := by rw [Issued, Issued, hnext]
  simp only [budget, hfind, hissued]

theorem Accounted.nodup_active (h : Accounted lc) :
    (lc.active.map ActiveResponse.id).Nodup :=
  (nodup_append.mp h.nodup).1

theorem Accounted.issued_of_findEntry (h : Accounted lc) {e : ActiveResponse}
    (found : findEntry id lc.active = some e) : lc.Issued id := by
  obtain ⟨hmem, hid⟩ := findEntry_some found
  exact h.named id (mem_append_left _ (mem_map.mpr ⟨e, hmem, hid⟩))

end ResponseLifecycle

def LifecycleAnswer.actionsFor (id : String) (answer : LifecycleAnswer) : Nat :=
  answer.actions.countP fun a => a.id = id

/-- The actions a run returns for an id, all answers together. -/
def revertActions (id : String) (answers : List LifecycleAnswer) : Nat :=
  (answers.map (LifecycleAnswer.actionsFor id)).sum

/-! ## What a step pays -/

namespace ResponseLifecycle

variable {lc : ResponseLifecycle}

theorem countP_stageAction_eq_zero {es : List ActiveResponse} (h : ∀ e ∈ es, e.id ≠ id) :
    (es.filterMap (stageAction now)).countP (fun a => a.id = id) = 0 := by
  rw [countP_eq_zero]
  intro a ha hid
  obtain ⟨e, he, hact⟩ := mem_filterMap.mp ha
  obtain ⟨-, -, rfl⟩ := map_eq_some_iff.mp hact
  exact h e he (of_decide_eq_true hid)

/-- One pass of the staging loop issues at most one action for an id, and only for
the entry found under it. -/
theorem countP_stageAction (id : String) {es : List ActiveResponse}
    (h : (es.map ActiveResponse.id).Nodup) :
    (es.filterMap (stageAction now)).countP (fun a => a.id = id) =
      match findEntry id es with
      | some e => if (nextState now e).isSome then 1 else 0
      | none => 0 := by
  induction es with
  | nil => rfl
  | cons e es ih =>
    obtain ⟨hfresh, hnodup⟩ := nodup_cons.mp h
    by_cases he : e.id = id
    · have hrest : ∀ f ∈ es, f.id ≠ id := fun f hf hid =>
        hfresh (mem_map.mpr ⟨f, hf, hid.trans he.symm⟩)
      have hzero := countP_stageAction_eq_zero now hrest
      rw [findEntry, find?_cons_of_pos (by simpa using he), filterMap_cons]
      cases hn : nextState now e with
      | none => simpa [stageAction, hn] using hzero
      | some st => simpa [stageAction, hn, ActiveResponse.revertAction, he] using hzero
    · rw [findEntry, find?_cons_of_neg (by simpa using he), filterMap_cons]
      cases hn : nextState now e with
      | none => simpa [stageAction, hn, findEntry] using ih hnodup
      | some st =>
        simpa [stageAction, hn, ActiveResponse.revertAction, he, findEntry] using ih hnodup

theorem budget_revertPending_lt {st : LifecycleState} (trigger : RevertTrigger)
    (hidle : ∀ since trigger prior, st ≠ .revertPending since trigger prior)
    (hbudget : WithinBudget st) :
    (LifecycleState.revertPending now trigger (priorAttempts st)).budget + 1 = st.budget := by
  have := hbudget.priorAttempts_lt
  rw [LifecycleState.budget_eq hidle, LifecycleState.budget]
  omega

theorem markReverted_active {now : DateTime} {reason : String} {e : ActiveResponse}
    (found : findEntry id lc.active = some e) :
    (lc.markReverted now id reason).active = removeEntry id lc.active := by
  simp only [ResponseLifecycle.markReverted, found]
  cases revertTrigger e.state <;> rfl

theorem markReverted_nextId (lc : ResponseLifecycle) (now : DateTime) (id reason : String) :
    (lc.markReverted now id reason).nextId = lc.nextId := by
  cases found : findEntry id lc.active with
  | none => simp only [ResponseLifecycle.markReverted, found]
  | some e =>
    simp only [ResponseLifecycle.markReverted, found]
    cases revertTrigger e.state <;> rfl

section Pays

variable (h : Accounted lc) (now : DateTime)

include h

theorem Accounted.stage_pays (id : String) :
    (lc.stagePendingReverts now).2.countP (fun a => a.id = id) +
      (lc.stagePendingReverts now).1.budget id ≤ lc.budget id := by
  have hcount := countP_stageAction now id h.nodup_active
  have hfind := findEntry_map_stageEntry now id lc.active
  unfold ResponseLifecycle.stagePendingReverts
  cases found : findEntry id lc.active with
  | none =>
    rw [found] at hcount hfind
    rw [hcount, Nat.zero_add]
    exact Nat.le_of_eq (budget_congr (hfind.trans found.symm) rfl)
  | some e =>
    rw [found] at hcount hfind
    rw [hcount, budget_of_some found, budget_of_some hfind]
    cases hn : nextState now e with
    | none => simp [stageEntry, hn]
    | some st =>
      obtain ⟨hidle, trigger, rfl⟩ := nextState_eq_some hn
      have := budget_revertPending_lt now trigger hidle (h.attempts e (findEntry_some found).1)
      simp only [stageEntry, hn, isSome_some, if_true]
      omega

theorem Accounted.request_pays (id' id : String) :
    (lc.requestManualRevert now id').2.toList.countP (fun a => a.id = id) +
      (lc.requestManualRevert now id').1.budget id ≤ lc.budget id := by
  rcases requestManualRevert_cases lc now id' with heq | ⟨e, found, hidle, heq⟩
  · rw [heq]
    simp
  · obtain ⟨hmem, hid⟩ := findEntry_some found
    rw [heq]
    by_cases hne : id = id'
    · subst hne
      have := budget_revertPending_lt now .manual hidle (h.attempts e hmem)
      rw [budget_of_some found, budget_of_some (findEntry_setState_self found)]
      simp only [toList_some, countP_singleton, ActiveResponse.revertAction, hid,
        decide_true, if_true]
      omega
    · have hother : e.id ≠ id := fun he => hne (he.symm.trans hid)
      simp only [toList_some, countP_singleton, ActiveResponse.revertAction, hother,
        decide_false, Bool.false_eq_true, if_false, Nat.zero_add]
      exact Nat.le_of_eq (budget_congr (findEntry_setState_of_ne hne _ _) rfl)

theorem Accounted.register_pays (ty : ResponseType) (backend : ResponseBackend)
    (target incidentId : String) (ttlSecs : Int) (handle : Option String)
    (id : String) :
    (lc.register now ty backend target incidentId ttlSecs handle).1.budget id ≤ lc.budget id := by
  by_cases hid : id = responseId lc.nextId
  · -- a fresh id starts with all attempts, and had them before
    have fresh : ¬ lc.Issued id := by
      rintro ⟨n, hn, he⟩
      exact absurd (responseId_inj (he.symm.trans hid)) (by omega)
    have hnone : findEntry id lc.active = none := by
      cases found : findEntry id lc.active with
      | none => rfl
      | some e => exact absurd (h.issued_of_findEntry found) fresh
    have hall : lc.budget id = maxRevertAttempts := by
      simp only [budget, hnone, fresh, if_false]
    rw [hall]
    exact budget_le _ id
  · refine Nat.le_of_eq ?_
    have hfind : findEntry id (lc.register now ty backend target incidentId ttlSecs handle).1.active
        = findEntry id lc.active := by
      rw [ResponseLifecycle.register, findEntry, find?_append,
        find?_cons_of_neg (by simpa using Ne.symm hid), find?_nil, or_none, findEntry]
    have hissued : (lc.register now ty backend target incidentId ttlSecs handle).1.Issued id ↔
        lc.Issued id := by
      constructor
      · rintro ⟨n, hn, rfl⟩
        exact ⟨n, Nat.lt_of_le_of_ne (Nat.le_of_lt_succ hn) fun hn => hid (by rw [hn]), rfl⟩
      · rintro ⟨n, hn, rfl⟩
        exact ⟨n, Nat.lt_succ_of_lt hn, rfl⟩
    simp only [budget, hfind, hissued]

theorem Accounted.budget_removed {lc' : ResponseLifecycle} {id' : String}
    {e : ActiveResponse} (found : findEntry id' lc.active = some e)
    (hactive : lc'.active = removeEntry id' lc.active) (hnext : lc'.nextId = lc.nextId) :
    lc'.budget id' = 0 ∧ ∀ id, lc'.budget id ≤ lc.budget id := by
  have hzero : lc'.budget id' = 0 := by
    refine budget_of_gone (by rw [hactive]; exact findEntry_removeEntry_self h.nodup_active) ?_
    rw [Issued, hnext]
    exact h.issued_of_findEntry found
  refine ⟨hzero, fun id => ?_⟩
  by_cases hid : id = id'
  · rw [hid, hzero]
    exact Nat.zero_le _
  · rw [budget_congr (by rw [hactive]; exact findEntry_removeEntry_of_ne hid _) hnext]

theorem Accounted.markReverted_pays (id' reason id : String) :
    (lc.markReverted now id' reason).budget id ≤ lc.budget id := by
  cases found : findEntry id' lc.active with
  | none => simp only [ResponseLifecycle.markReverted, found, Nat.le_refl]
  | some e =>
    exact (h.budget_removed found (markReverted_active found) (markReverted_nextId ..)).2 id

theorem Accounted.markRevertFailed_pays (id' error id : String) :
    (lc.markRevertFailed now id' error).1.budget id ≤ lc.budget id := by
  rcases markRevertFailed_cases lc now id' error with
    ⟨-, heq⟩ | ⟨e, -, -, heq⟩ | ⟨e, found, -, heq⟩ | ⟨e, found, -, heq⟩
  · rw [heq]
    exact Nat.le_of_eq (budget_congr rfl rfl)
  · rw [heq]
    exact h.countFailure.markReverted_pays now id' _ id
  · exact (h.budget_removed found (by rw [heq]) (by rw [heq]; rfl)).2 id
  · by_cases hid : id = id'
    · subst hid
      rw [heq, budget_of_some found, budget_of_some (findEntry_setState_self found)]
      exact LifecycleState.budget_revertFailed_le ..
    · refine Nat.le_of_eq (budget_congr ?_ (by rw [heq]; rfl))
      rw [heq]
      exact findEntry_setState_of_ne hid _ _

end Pays

/-- Every step pays for the actions it returns. -/
theorem Accounted.step_pays (id : String) (lc : ResponseLifecycle) (op : DateTime × LifecycleOp)
    (h : Accounted lc) :
    (lifecycleMachine.step lc op).2.actionsFor id + (lifecycleMachine.step lc op).1.budget id ≤
      lc.budget id := by
  have hfree : ∀ {n m : Nat}, n ≤ m → 0 + n ≤ m := fun hle => by omega
  obtain ⟨now, op⟩ := op
  cases op with
  | register ty backend target incidentId ttlSecs handle =>
    exact hfree (h.register_pays now ty backend target incidentId ttlSecs handle id)
  | stagePendingReverts => exact h.stage_pays now id
  | requestManualRevert id' => exact h.request_pays now id' id
  | markReverted id' reason => exact hfree (h.markReverted_pays now id' reason id)
  | markRevertFailed id' error => exact hfree (h.markRevertFailed_pays now id' error id)
  | gcOrphanedResponses olderThanSecs => exact hfree (Nat.le_of_eq (budget_congr rfl rfl))

theorem Accounted.revertActions_le (h : Accounted lc) (id : String)
    (ops : List (DateTime × LifecycleOp)) :
    revertActions id (lifecycleMachine.trace lc ops) ≤ lc.budget id :=
  trace_cost_le (M := lifecycleMachine) (P := Accounted)
    (LifecycleAnswer.actionsFor id) (fun lc => lc.budget id)
    Accounted.step (Accounted.step_pays id) ops h

/-! ## What registration has answered -/

theorem nextId_mono (lc : ResponseLifecycle) (op : DateTime × LifecycleOp) :
    lc.nextId ≤ (lifecycleMachine.step lc op).1.nextId := by
  obtain ⟨now, op⟩ := op
  cases op with
  | register _ _ _ _ _ _ => exact Nat.le_succ _
  | stagePendingReverts => exact Nat.le_refl _
  | requestManualRevert id =>
    change _ ≤ (lc.requestManualRevert now id).1.nextId
    rcases requestManualRevert_cases lc now id with heq | ⟨_, _, _, heq⟩ <;> rw [heq]
  | markReverted id reason => exact Nat.le_of_eq (markReverted_nextId ..).symm
  | markRevertFailed id error =>
    change _ ≤ (lc.markRevertFailed now id error).1.nextId
    rcases markRevertFailed_cases lc now id error with
      ⟨-, heq⟩ | ⟨_, _, _, heq⟩ | ⟨_, _, _, heq⟩ | ⟨_, _, _, heq⟩ <;> rw [heq]
    · exact Nat.le_refl _
    · rw [markReverted_nextId]
      exact Nat.le_refl _
    · exact Nat.le_refl _
    · exact Nat.le_refl _
  | gcOrphanedResponses _ => exact Nat.le_refl _

theorem issued_of_answer {op : DateTime × LifecycleOp}
    (h : (lifecycleMachine.step lc op).2 = .registered id) :
    (lifecycleMachine.step lc op).1.Issued id := by
  obtain ⟨now, op⟩ := op
  cases op with
  | register ty backend target incidentId ttlSecs handle =>
    cases h
    exact ⟨lc.nextId, Nat.lt_succ_self _, rfl⟩
  | stagePendingReverts | requestManualRevert _ | markReverted _ _ | markRevertFailed _ _
  | gcOrphanedResponses _ => cases h

/-- What `register` has answered is given out. -/
theorem issued_of_registered (ops : List (DateTime × LifecycleOp))
    (h : LifecycleAnswer.registered id ∈ lifecycleMachine.trace .new ops) :
    (lifecycleMachine.exec .new ops).Issued id := by
  have hrun : ∀ id, LifecycleAnswer.registered id ∈ [] ++ lifecycleMachine.trace .new ops →
      (lifecycleMachine.exec .new ops).Issued id :=
    exec_trace_invariant (M := lifecycleMachine)
      (P := fun lc tr => ∀ id, LifecycleAnswer.registered id ∈ tr → lc.Issued id)
      (fun lc tr op ih id hid => ?_) ops (fun _ h => nomatch h)
  · exact hrun id h
  · rcases mem_append.mp hid with hid | hid
    · obtain ⟨n, hn, rfl⟩ := ih id hid
      exact ⟨n, Nat.lt_of_lt_of_le hn (nextId_mono lc op), rfl⟩
    · exact issued_of_answer (mem_singleton.mp hid).symm

/-! ## The end of an id -/

/-- The operation reports an outcome that ends the id: an orphaned or absent rule, or
a completed revert. -/
def reports (id : String) : LifecycleOp → LifecycleAnswer → Bool
  | .markRevertFailed id' _, .failed (.orphaned ..) => id' = id
  | .markRevertFailed id' _, .failed .alreadyAbsent => id' = id
  | .markReverted id' _, _ => id' = id
  | _, _ => false

theorem eq_of_reports_failed {id' error : String} {outcome : FailureOutcome}
    (h : reports id (.markRevertFailed id' error) (.failed outcome)) : id' = id := by
  cases outcome with
  | alreadyAbsent | orphaned _ _ _ _ => exact of_decide_eq_true h
  | retrying _ | unknownId => cases h

theorem Accounted.markReverted_ends (h : Accounted lc) (now : DateTime) (reason : String)
    (hissued : lc.Issued id) : (lc.markReverted now id reason).budget id = 0 := by
  cases found : findEntry id lc.active with
  | none =>
    simp only [ResponseLifecycle.markReverted, found]
    exact budget_of_gone found hissued
  | some e => exact (h.budget_removed found (markReverted_active found) (markReverted_nextId ..)).1

theorem Accounted.markRevertFailed_ends (h : Accounted lc) (now : DateTime) {error : String}
    (hrep : reports id (.markRevertFailed id error)
      (.failed (lc.markRevertFailed now id error).2)) :
    (lc.markRevertFailed now id error).1.budget id = 0 := by
  rcases markRevertFailed_cases lc now id error with
    ⟨-, heq⟩ | ⟨e, found, -, heq⟩ | ⟨e, found, -, heq⟩ | ⟨e, -, -, heq⟩
  · rw [heq] at hrep
    cases hrep
  · rw [heq]
    exact h.countFailure.markReverted_ends now _ (h.countFailure.issued_of_findEntry found)
  · exact (h.budget_removed found (by rw [heq]) (by rw [heq]; rfl)).1
  · rw [heq] at hrep
    cases hrep

theorem Accounted.reports_ends (h : Accounted lc) {now : DateTime} {op : LifecycleOp}
    (hrep : reports id op (lifecycleMachine.step lc (now, op)).2)
    (hissued : ∀ reason, op = .markReverted id reason → lc.Issued id) :
    (lifecycleMachine.step lc (now, op)).1.budget id = 0 := by
  cases op with
  | markReverted id' reason =>
    obtain rfl : id' = id := of_decide_eq_true hrep
    exact h.markReverted_ends now reason (hissued reason rfl)
  | markRevertFailed id' error =>
    obtain rfl := eq_of_reports_failed hrep
    exact h.markRevertFailed_ends now hrep
  | register _ _ _ _ _ _ | stagePendingReverts | requestManualRevert _
  | gcOrphanedResponses _ => cases hrep

end ResponseLifecycle

/-! ## Bounded reverts -/

/-- In every run and for every id, at most `maxRevertAttempts` actions are returned.
After an orphaned or absent outcome for the id no further one is, and neither
after a completed revert of an id that registration had returned. -/
theorem reverts_bounded (ops : List (DateTime × LifecycleOp)) (id : String) :
    revertActions id (lifecycleMachine.trace .new ops) ≤ maxRevertAttempts ∧
    ∀ before now op after, ops = before ++ (now, op) :: after →
      reports id op (lifecycleMachine.step (lifecycleMachine.exec .new before) (now, op)).2 →
      (∀ reason, op = .markReverted id reason →
        .registered id ∈ lifecycleMachine.trace .new before) →
      revertActions id
        (lifecycleMachine.trace (lifecycleMachine.exec .new (before ++ [(now, op)])) after) =
        0 := by
  refine ⟨(accounted_new.revertActions_le id ops).trans (budget_le ..), ?_⟩
  intro before now op after _ hrep hreg
  have h := accounted_exec before
  have hzero := h.reports_ends hrep fun reason hop => issued_of_registered before (hreg reason hop)
  have hle := (accounted_exec (before ++ [(now, op)])).revertActions_le id after
  rw [exec_append] at hle ⊢
  rw [exec_cons, exec_nil] at hle ⊢
  omega

/-- A response that is registered, fails to be reverted until it is orphaned, and is
left alone by the ticks after that. -/
def orphanedRun : List (DateTime × LifecycleOp) :=
  [(0, .register .blockIp .ufw "1.2.3.4" "inc-1" 60 none),
   (seconds 61, .stagePendingReverts),
   (seconds 61, .markRevertFailed "resp-1" "iptables: exit 4"),
   (seconds 91, .stagePendingReverts),
   (seconds 91, .markRevertFailed "resp-1" "iptables: exit 4"),
   (seconds 121, .stagePendingReverts)]

theorem reverts_bounded_orphanedRun :
    revertActions "resp-1" (lifecycleMachine.trace .new (orphanedRun ++
      [(seconds 121, .markRevertFailed "resp-1" "iptables: exit 4"),
       (seconds 151, .stagePendingReverts)])) ≤ maxRevertAttempts ∧
    revertActions "resp-1" (lifecycleMachine.trace (lifecycleMachine.exec .new (orphanedRun ++
      [(seconds 121, .markRevertFailed "resp-1" "iptables: exit 4")]))
      [(seconds 151, .stagePendingReverts)]) = 0 := by
  have h := reverts_bounded (orphanedRun ++
    [(seconds 121, .markRevertFailed "resp-1" "iptables: exit 4"),
     (seconds 151, .stagePendingReverts)]) "resp-1"
  exact ⟨h.1, h.2 orphanedRun (seconds 121) (.markRevertFailed "resp-1" "iptables: exit 4")
    [(seconds 151, .stagePendingReverts)] rfl (by decide) (fun _ hop => nomatch hop)⟩

/-- A completed revert reported for an id before it exists is dropped, and an action
for the id is returned later. -/
theorem early_report_is_dropped :
    let early : DateTime × LifecycleOp := (0, .markReverted "resp-1" "manual")
    let later : List (DateTime × LifecycleOp) :=
      [(0, .register .blockIp .ufw "1.2.3.4" "inc-1" 60 none),
       (seconds 61, .stagePendingReverts)]
    reports "resp-1" early.2 (lifecycleMachine.step .new early).2 ∧
    revertActions "resp-1"
      (lifecycleMachine.trace (lifecycleMachine.exec .new [early]) later) = 1 := by
  decide

end Innerwarden

import Innerwarden.Response.Lifecycle

/-!
# Accounting of the response lifecycle

An entry is in `active` until exactly one of three counters takes it over, and its id is never
given out again.  `Accounted` is the invariant, which also says that every id in use is `resp-n`
for some `n` below the next number.  `Accounted.relabelled` is for the operations that only
change states, `Accounted.completed` for those that move one entry to the history.
-/

namespace Innerwarden

open List

/-! ## Lists of entries -/

variable {id : String} {es : List ActiveResponse} {e : ActiveResponse} {st : LifecycleState}

theorem findEntry_cons (id : String) (e : ActiveResponse) (es : List ActiveResponse) :
    findEntry id (e :: es) = if e.id = id then some e else findEntry id es := by
  simp only [findEntry, find?_cons]
  split <;> simp_all

theorem findEntry_some (h : findEntry id es = some e) : e ∈ es ∧ e.id = id :=
  ⟨mem_of_find?_eq_some h, by simpa using find?_some h⟩

@[simp] theorem map_id_setState (id : String) (st : LifecycleState) (es : List ActiveResponse) :
    (setState id st es).map ActiveResponse.id = es.map ActiveResponse.id := by
  induction es with
  | nil => rfl
  | cons e es ih =>
    rw [setState]
    split
    · rfl
    · rw [map_cons, map_cons, ih]

/-- An entry after `setState` is an old one, or the one found under another state. -/
theorem mem_setState {st : LifecycleState} {e' : ActiveResponse} (h : e' ∈ setState id st es) :
    e' ∈ es ∨ ∃ e, findEntry id es = some e ∧ e' = { e with state := st } := by
  induction es with
  | nil => cases h
  | cons e es ih =>
    rw [setState] at h
    by_cases he : e.id = id
    · rw [if_pos he] at h
      rcases mem_cons.mp h with rfl | h
      · exact Or.inr ⟨e, by simp [findEntry, he], rfl⟩
      · exact Or.inl (mem_cons_of_mem _ h)
    · rw [if_neg he] at h
      rcases mem_cons.mp h with rfl | h
      · exact Or.inl (mem_cons_self ..)
      · rcases ih h with h | ⟨f, hf, rfl⟩
        · exact Or.inl (mem_cons_of_mem _ h)
        · exact Or.inr ⟨f, by rw [findEntry_cons, if_neg he, hf], rfl⟩

theorem perm_removeEntry (h : findEntry id es = some e) : es.Perm (e :: removeEntry id es) := by
  induction es with
  | nil => cases h
  | cons f es ih =>
    rw [findEntry_cons] at h
    rw [removeEntry]
    split at h
    case isTrue hf => rw [if_pos hf, Option.some.inj h]
    case isFalse hf =>
      rw [if_neg hf]
      exact ((ih h).cons f).trans (.swap e f _)

theorem mem_of_mem_removeEntry (h : e ∈ removeEntry id es) : e ∈ es := by
  induction es with
  | nil => cases h
  | cons f es ih =>
    rw [removeEntry] at h
    split at h
    · exact mem_cons_of_mem _ h
    · rcases mem_cons.mp h with rfl | h
      · exact mem_cons_self ..
      · exact mem_cons_of_mem _ (ih h)

theorem capHistory_sublist (history : List CompletedResponse) :
    (capHistory history).Sublist history :=
  drop_sublist ..

theorem length_capHistory (history : List CompletedResponse) :
    (capHistory history).length ≤ 1000 := by
  rw [capHistory, length_drop]
  omega

namespace ResponseLifecycle

@[simp] theorem stageEntry_id (now : DateTime) (e : ActiveResponse) :
    (stageEntry now e).id = e.id := by
  unfold stageEntry
  split <;> rfl

/-! ## What the operations do -/

/-- A revert is issued with the failures the entry has so far, unless one is in flight. -/
theorem nextState_eq_some {now : DateTime} (h : nextState now e = some st) :
    (∀ since trigger prior, e.state ≠ .revertPending since trigger prior) ∧
      ∃ trigger, st = .revertPending now trigger (priorAttempts e.state) := by
  unfold nextState at h
  cases hs : e.state with
  | active =>
    simp only [hs] at h
    split at h
    · exact ⟨fun _ _ _ => LifecycleState.noConfusion, _, (Option.some.inj h).symm⟩
    · cases h
  | revertPending _ _ _ =>
    simp only [hs] at h
    cases h
  | revertFailed _ _ _ trigger =>
    simp only [hs] at h
    split at h
    · exact ⟨fun _ _ _ => LifecycleState.noConfusion, trigger, (Option.some.inj h).symm⟩
    · cases h

/-- A manual revert is refused, or issued for an entry that has none in flight. -/
theorem requestManualRevert_cases (lc : ResponseLifecycle) (now : DateTime) (id : String) :
    lc.requestManualRevert now id = (lc, none) ∨
    ∃ e, findEntry id lc.active = some e ∧
      (∀ since trigger prior, e.state ≠ .revertPending since trigger prior) ∧
      lc.requestManualRevert now id =
        ({ lc with
            active := setState id (.revertPending now .manual (priorAttempts e.state)) lc.active },
         some e.revertAction) := by
  unfold requestManualRevert
  cases found : findEntry id lc.active with
  | none => exact Or.inl rfl
  | some e =>
    cases hs : e.state with
    | active | revertFailed _ _ _ _ =>
      exact Or.inr ⟨e, rfl, fun _ _ _ => by simp [hs], by simp only [hs, priorAttempts]⟩
    | revertPending _ _ _ => exact Or.inl (by simp only [hs])

def countFailure (lc : ResponseLifecycle) : ResponseLifecycle :=
  { lc with totalRevertFailures := lc.totalRevertFailures + 1 }

/-- The four answers to a reported failure. -/
theorem markRevertFailed_cases (lc : ResponseLifecycle) (now : DateTime) (id error : String) :
    (findEntry id lc.active = none ∧
      lc.markRevertFailed now id error = (lc.countFailure, .unknownId)) ∨
    (∃ e, findEntry id lc.active = some e ∧ classifyRevertError error = .alreadyAbsent ∧
      lc.markRevertFailed now id error =
        (lc.countFailure.markReverted now id "already_absent", .alreadyAbsent)) ∨
    (∃ e, findEntry id lc.active = some e ∧ maxRevertAttempts ≤ priorAttempts e.state + 1 ∧
      lc.markRevertFailed now id error =
        ({ lc.countFailure with
            active := removeEntry id lc.active
            history := capHistory (lc.history ++ [e.complete now ("orphaned: " ++ error)])
            totalOrphaned := lc.totalOrphaned + 1 },
         .orphaned e.backend e.target error (revertTrigger e.state))) ∨
    ∃ e, findEntry id lc.active = some e ∧ priorAttempts e.state + 1 < maxRevertAttempts ∧
      lc.markRevertFailed now id error =
        ({ lc.countFailure with
            active := setState id (.revertFailed now (priorAttempts e.state + 1) error
              (revertTrigger e.state)) lc.active },
         .retrying (priorAttempts e.state + 1)) := by
  cases found : findEntry id lc.active with
  | none => exact Or.inl ⟨rfl, by simp only [markRevertFailed, countFailure, found]⟩
  | some e =>
    refine Or.inr ?_
    cases hkind : classifyRevertError error with
    | alreadyAbsent =>
      exact Or.inl ⟨e, rfl, rfl, by simp only [markRevertFailed, countFailure, found, hkind]⟩
    | transient =>
      refine Or.inr ?_
      by_cases hmax : priorAttempts e.state + 1 ≥ maxRevertAttempts
      · refine Or.inl ⟨e, rfl, hmax, ?_⟩
        simp only [markRevertFailed, countFailure, found, hkind, hmax, if_true]
      · refine Or.inr ⟨e, rfl, Nat.lt_of_not_le hmax, ?_⟩
        simp only [markRevertFailed, countFailure, found, hkind, hmax, if_false]

/-! ## The invariant -/

/-- The ids in use, of tracked and of completed responses. -/
def ids (lc : ResponseLifecycle) : List String :=
  lc.active.map ActiveResponse.id ++ lc.history.map CompletedResponse.id

/-- The retry counts a state can carry. -/
def WithinBudget : LifecycleState → Prop
  | .active => True
  | .revertPending _ _ priorAttempts => priorAttempts < maxRevertAttempts
  | .revertFailed _ attempts _ _ => 1 ≤ attempts ∧ attempts < maxRevertAttempts

theorem WithinBudget.priorAttempts_lt (h : WithinBudget st) :
    priorAttempts st < maxRevertAttempts := by
  cases st with
  | active => decide
  | revertPending _ _ _ => exact h
  | revertFailed _ _ _ _ => exact h.2

/-- Every registered response is accounted for. -/
structure Accounted (lc : ResponseLifecycle) : Prop where
  balance : lc.totalRegistered =
    lc.active.length + lc.totalExpired + lc.totalReverted + lc.totalOrphaned
  absent : lc.totalAlreadyAbsent ≤ lc.totalExpired + lc.totalReverted
  nodup : lc.ids.Nodup
  named : ∀ i ∈ lc.ids, ∃ n < lc.nextId, i = responseId n
  attempts : ∀ e ∈ lc.active, WithinBudget e.state
  capped : lc.history.length ≤ 1000

theorem accounted_new : Accounted new where
  balance := rfl
  absent := Nat.le_refl _
  nodup := .nil
  named := fun _ h => nomatch h
  attempts := fun _ h => nomatch h
  capped := Nat.zero_le _

theorem withinBudget_stageEntry (now : DateTime) (h : WithinBudget e.state) :
    WithinBudget (stageEntry now e).state := by
  unfold stageEntry
  cases hn : nextState now e with
  | none => exact h
  | some st =>
    obtain ⟨-, trigger, rfl⟩ := nextState_eq_some hn
    exact h.priorAttempts_lt

/-! ## The two moves -/

section Operations

variable {lc lc' : ResponseLifecycle} (h : Accounted lc) (now : DateTime)

include h

/-- Entries under new states, and perhaps fewer records in the history. -/
theorem Accounted.relabelled
    (hids : lc'.active.map ActiveResponse.id = lc.active.map ActiveResponse.id)
    (hstates : ∀ e ∈ lc'.active, WithinBudget e.state)
    (hhistory : lc'.history.Sublist lc.history) (hnext : lc'.nextId = lc.nextId)
    (hreg : lc'.totalRegistered = lc.totalRegistered)
    (hexp : lc'.totalExpired = lc.totalExpired) (hrev : lc'.totalReverted = lc.totalReverted)
    (horph : lc'.totalOrphaned = lc.totalOrphaned)
    (habs : lc'.totalAlreadyAbsent = lc.totalAlreadyAbsent) : Accounted lc' := by
  have hlen : lc'.active.length = lc.active.length := by
    simpa using congrArg List.length hids
  have hsub : lc'.ids.Sublist lc.ids := by
    rw [ids, ids, hids]
    exact (List.Sublist.refl _).append (hhistory.map _)
  exact {
    balance := by rw [hreg, hlen, hexp, hrev, horph]; exact h.balance
    absent := by rw [habs, hexp, hrev]; exact h.absent
    nodup := h.nodup.sublist hsub
    named := fun i hi => by rw [hnext]; exact h.named i (hsub.subset hi)
    attempts := hstates
    capped := Nat.le_trans hhistory.length_le h.capped }

/-- One entry moved to the history and counted once. -/
theorem Accounted.completed {id : String} {c : CompletedResponse}
    (found : findEntry id lc.active = some e) (hc : c.id = e.id)
    (hactive : lc'.active = removeEntry id lc.active)
    (hhistory : lc'.history = capHistory (lc.history ++ [c])) (hnext : lc'.nextId = lc.nextId)
    (hreg : lc'.totalRegistered = lc.totalRegistered)
    (hsum : lc'.totalExpired + lc'.totalReverted + lc'.totalOrphaned =
      lc.totalExpired + lc.totalReverted + lc.totalOrphaned + 1)
    (habs : lc'.totalAlreadyAbsent ≤ lc'.totalExpired + lc'.totalReverted) : Accounted lc' := by
  have hperm := perm_removeEntry found
  have hmoved : ((removeEntry id lc.active).map ActiveResponse.id ++
      (lc.history ++ [c]).map CompletedResponse.id).Perm lc.ids := by
    refine .trans ?_ ((hperm.symm.map ActiveResponse.id).append_right _)
    rw [map_append, map_singleton, hc, ← append_assoc, map_cons,
      cons_append]
    exact perm_append_singleton _ _
  have hsub : lc'.ids.Sublist ((removeEntry id lc.active).map ActiveResponse.id ++
      (lc.history ++ [c]).map CompletedResponse.id) := by
    rw [ids, hactive, hhistory]
    exact (List.Sublist.refl _).append ((capHistory_sublist _).map _)
  have hlen := hperm.length_eq
  rw [length_cons] at hlen
  exact {
    balance := by rw [hreg, h.balance, hactive, hlen]; omega
    absent := habs
    nodup := (hmoved.nodup_iff.mpr h.nodup).sublist hsub
    named := fun i hi => by rw [hnext]; exact h.named i (hmoved.subset (hsub.subset hi))
    attempts := fun f hf => h.attempts f (mem_of_mem_removeEntry (hactive ▸ hf))
    capped := hhistory ▸ length_capHistory _ }

/-! ## The operations -/

theorem Accounted.register (ty : ResponseType) (backend : ResponseBackend)
    (target incidentId : String) (ttlSecs : Int) (handle : Option String) :
    Accounted (lc.register now ty backend target incidentId ttlSecs handle).1 := by
  have fresh : responseId lc.nextId ∉ lc.ids := by
    intro hmem
    obtain ⟨n, hn, he⟩ := h.named _ hmem
    exact absurd (responseId_inj he) (by omega)
  have hperm : (lc.register now ty backend target incidentId ttlSecs handle).1.ids.Perm
      (responseId lc.nextId :: lc.ids) := by
    simp only [ResponseLifecycle.register, ids, map_append, map_cons, map_nil,
      append_assoc, singleton_append]
    exact perm_middle
  constructor
  case balance =>
    simp only [ResponseLifecycle.register, length_append, length_singleton, h.balance]
    omega
  case absent => exact h.absent
  case nodup => exact hperm.nodup_iff.mpr (nodup_cons.mpr ⟨fresh, h.nodup⟩)
  case named =>
    intro i hi
    rcases mem_cons.mp (hperm.subset hi) with rfl | hi
    · exact ⟨lc.nextId, Nat.lt_succ_self _, rfl⟩
    · obtain ⟨n, hn, he⟩ := h.named i hi
      exact ⟨n, Nat.lt_succ_of_lt hn, he⟩
  case attempts =>
    intro e he
    rcases mem_append.mp he with he | he
    · exact h.attempts e he
    · rw [mem_singleton.mp he]
      trivial
  case capped => exact h.capped

theorem Accounted.stagePendingReverts :
    Accounted (lc.stagePendingReverts now).1 := by
  unfold ResponseLifecycle.stagePendingReverts
  refine h.relabelled ?_ ?_ ?_ rfl rfl rfl rfl rfl rfl
  · exact (map_map ..).trans (map_congr_left fun e _ => stageEntry_id now e)
  · intro e' he'
    obtain ⟨e, he, rfl⟩ := mem_map.mp he'
    exact withinBudget_stageEntry now (h.attempts e he)
  · simp only [capHistory_sublist]

theorem Accounted.setState (id : String) (hst : WithinBudget st) :
    Accounted { lc with active := Innerwarden.setState id st lc.active } := by
  refine h.relabelled (map_id_setState ..) ?_ (.refl _) rfl rfl rfl rfl rfl rfl
  intro e' he'
  rcases mem_setState he' with he | ⟨e, -, rfl⟩
  · exact h.attempts e' he
  · exact hst

theorem Accounted.requestManualRevert (id : String) :
    Accounted (lc.requestManualRevert now id).1 := by
  rcases requestManualRevert_cases lc now id with heq | ⟨e, found, -, heq⟩
  · rw [heq]
    exact h
  · rw [heq]
    exact h.setState id (h.attempts e (findEntry_some found).1).priorAttempts_lt

theorem Accounted.markReverted (id reason : String) :
    Accounted (lc.markReverted now id reason) := by
  unfold ResponseLifecycle.markReverted
  cases found : findEntry id lc.active with
  | none => exact h
  | some e =>
    have habs := h.absent
    refine h.completed (c := e.complete now reason) found rfl ?_ ?_ ?_ ?_ ?_ ?_ <;>
      cases ht : revertTrigger e.state <;> simp only [ht] <;> first | omega | (split <;> omega)

theorem Accounted.countFailure : Accounted lc.countFailure :=
  h.relabelled rfl h.attempts (.refl _) rfl rfl rfl rfl rfl rfl

theorem Accounted.markRevertFailed (id error : String) :
    Accounted (lc.markRevertFailed now id error).1 := by
  have hcount := h.countFailure
  rcases markRevertFailed_cases lc now id error with
    ⟨-, heq⟩ | ⟨e, -, -, heq⟩ | ⟨e, found, hmax, heq⟩ | ⟨e, found, hmax, heq⟩
  · rw [heq]
    exact hcount
  · rw [heq]
    exact hcount.markReverted now id "already_absent"
  · rw [heq]
    refine hcount.completed (c := e.complete now ("orphaned: " ++ error)) found rfl rfl ?_
      rfl rfl ?_ h.absent
    · simp only [ResponseLifecycle.countFailure]
    · simp only [ResponseLifecycle.countFailure]
      omega
  · rw [heq]
    exact hcount.setState id ⟨by omega, hmax⟩

theorem Accounted.gcOrphanedResponses (olderThanSecs : Int) :
    Accounted (lc.gcOrphanedResponses now olderThanSecs).1 :=
  h.relabelled rfl h.attempts filter_sublist rfl rfl rfl rfl rfl rfl

end Operations

/-- Every operation keeps the accounts. -/
theorem Accounted.step (lc : ResponseLifecycle) (op : DateTime × LifecycleOp)
    (h : Accounted lc) : Accounted (lifecycleMachine.step lc op).1 := by
  obtain ⟨now, op⟩ := op
  cases op with
  | register ty backend target incidentId ttlSecs handle =>
    exact h.register now ty backend target incidentId ttlSecs handle
  | stagePendingReverts => exact h.stagePendingReverts now
  | requestManualRevert id => exact h.requestManualRevert now id
  | markReverted id reason => exact h.markReverted now id reason
  | markRevertFailed id error => exact h.markRevertFailed now id error
  | gcOrphanedResponses olderThanSecs => exact h.gcOrphanedResponses now olderThanSecs

/-- The accounts are right after every run. -/
theorem accounted_exec (ops : List (DateTime × LifecycleOp)) :
    Accounted (lifecycleMachine.exec .new ops) :=
  StateMachine.exec_invariant (M := lifecycleMachine) Accounted.step ops accounted_new

end ResponseLifecycle

open ResponseLifecycle

/-- After every run of the operations, in any order and at any clock values: the
counters balance, ids are distinct and none is both tracked and completed, retry
counts stay below the limit, and the history stays below its cap. -/
theorem lifecycle_accounting (ops : List (DateTime × LifecycleOp)) :
    let lc := lifecycleMachine.exec .new ops
    lc.totalRegistered =
      lc.active.length + lc.totalExpired + lc.totalReverted + lc.totalOrphaned ∧
    lc.totalAlreadyAbsent ≤ lc.totalExpired + lc.totalReverted ∧
    (lc.active.map ActiveResponse.id).Nodup ∧
    (∀ e ∈ lc.active, ∀ c ∈ lc.history, c.id ≠ e.id) ∧
    (∀ e ∈ lc.active, ∀ at' attempts err trigger,
      e.state = .revertFailed at' attempts err trigger →
        1 ≤ attempts ∧ attempts < maxRevertAttempts) ∧
    (∀ e ∈ lc.active, ∀ since trigger priorAttempts,
      e.state = .revertPending since trigger priorAttempts →
        priorAttempts < maxRevertAttempts) ∧
    lc.history.length ≤ 1000 := by
  have h := accounted_exec ops
  obtain ⟨hactive, -, hdisjoint⟩ := nodup_append.mp h.nodup
  refine ⟨h.balance, h.absent, hactive, ?_, ?_, ?_, h.capped⟩
  · intro e he c hc heq
    exact hdisjoint _ (mem_map_of_mem he) _ (mem_map_of_mem hc) heq.symm
  · intro e he at' attempts err trigger hs
    have budget := h.attempts e he
    rw [hs] at budget
    exact budget
  · intro e he since trigger prior hs
    have budget := h.attempts e he
    rw [hs] at budget
    exact budget

end Innerwarden

import Innerwarden.Response.Bounded
import Innerwarden.Response.Snapshot

/-!
# Reverts across a restart

A revert is issued by moving its entry to `RevertPending`, and the snapshot writes that state.
When the agent stops before the answer, nobody is left to answer.  `restart_reverts_iff` says
that all expired entries are picked up after a restart exactly if none was pending, and
`pending_never_reissued` that the others are not picked up later either.
-/

namespace Innerwarden

open ResponseLifecycle List

/-! ## What a tick issues -/

/-- The next tick issues the revert of every tracked entry that has expired. -/
def RevertsExpired (lc : ResponseLifecycle) (now : DateTime) : Prop :=
  ∀ e ∈ lc.active, e.expiresAt < now → e.revertAction ∈ (lc.stagePendingReverts now).2

/-- The revert of the entry is in flight. -/
def LifecycleState.IsPending (st : LifecycleState) : Prop :=
  ∃ since trigger priorAttempts, st = .revertPending since trigger priorAttempts

theorem nextState_of_pending {e : ActiveResponse} (now : DateTime) (h : e.state.IsPending) :
    nextState now e = none := by
  obtain ⟨_, _, _, hs⟩ := h
  simp only [nextState, hs]

theorem nextState_isSome {e : ActiveResponse} {now : DateTime} (hexpired : e.expiresAt < now)
    (hidle : ¬ e.state.IsPending) (hbudget : WithinBudget e.state) :
    (nextState now e).isSome = true := by
  cases hs : e.state with
  | active => simp only [nextState, hs, hexpired, if_true, Option.isSome_some]
  | revertPending since trigger prior => exact absurd ⟨since, trigger, prior, hs⟩ hidle
  | revertFailed _ attempts _ _ =>
    rw [hs] at hbudget
    simp only [nextState, hs, hbudget.2, if_true, Option.isSome_some]

/-- An entry is among the issued ones exactly when the loop moves it. -/
theorem revertAction_mem_iff {lc : ResponseLifecycle} {e : ActiveResponse} (now : DateTime)
    (hnodup : (lc.active.map ActiveResponse.id).Nodup) (he : e ∈ lc.active) :
    e.revertAction ∈ (lc.stagePendingReverts now).2 ↔ (nextState now e).isSome = true := by
  constructor
  · intro hmem
    obtain ⟨f, hf, hact⟩ := mem_filterMap.mp hmem
    obtain ⟨st, hst, heq⟩ := Option.map_eq_some_iff.mp hact
    -- the action names the entry, since ids do not repeat
    obtain rfl : f = e := inj_on_of_nodup_map hnodup hf he (congrArg RevertAction.id heq)
    rw [hst, Option.isSome_some]
  · intro hsome
    obtain ⟨st, hst⟩ := Option.isSome_iff_exists.mp hsome
    exact mem_filterMap.mpr ⟨e, he, by rw [stageAction, hst, Option.map_some]⟩

/-- A tick reverts all that has expired exactly when none of it is in flight. -/
theorem revertsExpired_iff {lc : ResponseLifecycle} (now : DateTime)
    (hnodup : (lc.active.map ActiveResponse.id).Nodup)
    (hbudget : ∀ e ∈ lc.active, WithinBudget e.state) :
    RevertsExpired lc now ↔
      ∀ e ∈ lc.active, e.expiresAt < now → ¬ e.state.IsPending := by
  constructor
  · intro h e he hexpired hpending
    have hmem := (revertAction_mem_iff now hnodup he).mp (h e he hexpired)
    rw [nextState_of_pending now hpending] at hmem
    cases hmem
  · intro h e he hexpired
    exact (revertAction_mem_iff now hnodup he).mpr
      (nextState_isSome hexpired (h e he hexpired) (hbudget e he))

/-! ## A revert in flight -/

/-- Ticks and manual requests. -/
def LifecycleOp.Issues : LifecycleOp → Prop
  | .stagePendingReverts => True
  | .requestManualRevert _ => True
  | _ => False

/-- The entry found under the id is in flight, and no other has the id. -/
structure InFlight (id : String) (e : ActiveResponse) (lc : ResponseLifecycle) : Prop where
  nodup : (lc.active.map ActiveResponse.id).Nodup
  found : findEntry id lc.active = some e
  pending : e.state.IsPending

variable {id : String} {e : ActiveResponse} {lc : ResponseLifecycle}

theorem InFlight.stage (h : InFlight id e lc) (now : DateTime) :
    InFlight id e (lc.stagePendingReverts now).1 ∧
      (LifecycleAnswer.staged (lc.stagePendingReverts now).2).actionsFor id = 0 := by
  have hnone := nextState_of_pending now h.pending
  refine ⟨⟨?_, ?_, h.pending⟩, ?_⟩
  · change ((lc.active.map (stageEntry now)).map ActiveResponse.id).Nodup
    simpa only [map_map, Function.comp_def, stageEntry_id] using h.nodup
  · change findEntry id (lc.active.map (stageEntry now)) = some e
    rw [findEntry_map_stageEntry, h.found, Option.map_some, stageEntry, hnone]
  · have hcount := countP_stageAction now id h.nodup
    simp only [h.found, hnone, Option.isSome_none, Bool.false_eq_true, if_false] at hcount
    exact hcount

theorem InFlight.request (h : InFlight id e lc) (now : DateTime) (id' : String) :
    InFlight id e (lc.requestManualRevert now id').1 ∧
      (LifecycleAnswer.requested (lc.requestManualRevert now id').2).actionsFor id = 0 := by
  rcases requestManualRevert_cases lc now id' with heq | ⟨f, found, hidle, heq⟩
  · rw [heq]
    exact ⟨h, rfl⟩
  · have hne : id ≠ id' := by
      rintro rfl
      obtain rfl : e = f := Option.some.inj (h.found.symm.trans found)
      obtain ⟨since, trigger, prior, hs⟩ := h.pending
      exact hidle since trigger prior hs
    have hother : f.id ≠ id := fun hf => hne (hf.symm.trans (findEntry_some found).2)
    rw [heq]
    refine ⟨⟨?_, ?_, h.pending⟩, ?_⟩
    · simpa only [map_id_setState] using h.nodup
    · exact (findEntry_setState_of_ne hne _ _).trans h.found
    · simp [LifecycleAnswer.actionsFor, LifecycleAnswer.actions, ActiveResponse.revertAction,
        hother]

theorem pending_never_reissued :
    ∀ (ops : List (DateTime × LifecycleOp)) {lc : ResponseLifecycle}, InFlight id e lc →
      (∀ op ∈ ops, op.2.Issues) → revertActions id (lifecycleMachine.trace lc ops) = 0
  | [], _, _, _ => rfl
  | (now, op) :: ops, lc, h, hops => by
    have hstep : InFlight id e (lifecycleMachine.step lc (now, op)).1 ∧
        (lifecycleMachine.step lc (now, op)).2.actionsFor id = 0 := by
      cases op with
      | stagePendingReverts => exact h.stage now
      | requestManualRevert id' => exact h.request now id'
      | _ => exact (hops _ (mem_cons_self ..)).elim
    have ih := pending_never_reissued ops hstep.1 fun op hop => hops op (mem_cons_of_mem _ hop)
    rw [StateMachine.trace_cons, revertActions, map_cons, sum_cons, hstep.2,
      Nat.zero_add]
    exact ih

/-! ## After a restart -/

/-- After every run, the snapshot is read back, and the next tick of the loaded
lifecycle reverts all its expired entries if and only if the snapshot was taken
with none of them in flight. -/
theorem restart_reverts_iff (codec : JsonCodec) (chrono : Chrono) (bootedAt now : DateTime)
    (ops : List (DateTime × LifecycleOp))
    (hfits : (lifecycleMachine.exec .new ops).Fits)
    (hreads : ∀ t ∈ (lifecycleMachine.exec .new ops).instants, chrono.Reads t)
    (hjson : codec.Reads ((lifecycleMachine.exec .new ops).toSnapshot chrono)) :
    ∃ lc, fromV2Content codec chrono bootedAt
        (codec.toString ((lifecycleMachine.exec .new ops).toSnapshot chrono)) = some lc ∧
      (RevertsExpired lc now ↔
        ∀ e ∈ (lifecycleMachine.exec .new ops).active, e.loads = true → e.expiresAt < now →
          ¬ e.state.IsPending) := by
  have h := accounted_exec ops
  have hsub := filter_sublist (p := ActiveResponse.loads)
    (l := (lifecycleMachine.exec .new ops).active)
  refine ⟨_, fromV2Content_toString bootedAt hfits hreads hjson, ?_⟩
  rw [revertsExpired_iff now (h.nodup_active.sublist (hsub.map _))
    fun e he => h.attempts e (hsub.subset he)]
  simp only [ResponseLifecycle.loaded, mem_filter, and_imp]

/-- A block that expires at one o'clock and whose revert is issued at two, with no
answer yet. -/
def interruptedRun : List (DateTime × LifecycleOp) :=
  [(seconds 1777680000, .register .blockIp .ufw "203.0.113.7" "inc-1" 3600 none),
   (seconds 1777687200, .stagePendingReverts)]

/-- The snapshot taken at this point is read back, its entry has expired, and no later
tick or request issues its revert. -/
theorem interrupted_revert_is_forgotten :
    let snapshot := (lifecycleMachine.exec .new interruptedRun).toSnapshot sampleChrono
    ∃ lc, fromV2Content (sampleCodec snapshot) sampleChrono (seconds 1777690800)
        ((sampleCodec snapshot).toString snapshot) = some lc ∧
      lc.active.map (fun e => (e.id, e.expiresAt)) = [("resp-1", seconds 1777683600)] ∧
      ∀ ops : List (DateTime × LifecycleOp), (∀ op ∈ ops, op.2.Issues) →
        revertActions "resp-1" (lifecycleMachine.trace lc ops) = 0 := by
  refine ⟨_, fromV2Content_toString _ ⟨by decide, by decide, by decide, by decide, by decide,
    by decide, by decide, by decide, by decide⟩ (by decide) (sampleCodec_reads _), by decide, ?_⟩
  intro ops hops
  exact pending_never_reissued ops ⟨by decide, rfl, _, _, _, rfl⟩ hops

/-- Without the tick before the restart, the tick after it issues the revert. -/
theorem restart_reverts_iff_registered :
    let registered : List (DateTime × LifecycleOp) := interruptedRun.take 1
    let snapshot := (lifecycleMachine.exec .new registered).toSnapshot sampleChrono
    ∃ lc, fromV2Content (sampleCodec snapshot) sampleChrono (seconds 1777690800)
        ((sampleCodec snapshot).toString snapshot) = some lc ∧
      RevertsExpired lc (seconds 1777690800) := by
  obtain ⟨lc, hload, hiff⟩ := restart_reverts_iff
    (sampleCodec ((lifecycleMachine.exec .new (interruptedRun.take 1)).toSnapshot sampleChrono))
    sampleChrono (seconds 1777690800) (seconds 1777690800) (interruptedRun.take 1)
    ⟨by decide, by decide, by decide, by decide, by decide, by decide, by decide, by decide,
      by decide⟩ (by decide) (sampleCodec_reads _)
  refine ⟨lc, hload, hiff.mpr ?_⟩
  rintro e he - - ⟨_, _, _, hs⟩
  obtain rfl := mem_singleton.mp he
  cases hs

end Innerwarden

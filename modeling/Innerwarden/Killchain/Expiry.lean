import Innerwarden.Killchain.Endpoint

/-!
# Forgetting processes

`PidTracker::cleanup_stale` forgets the processes whose `last_seen` is too old.  `add_flag`
sets `last_seen` to the timestamp of its event, also when that is older than an earlier one.
So an event that comes late can make an active process look stale, and its flags are lost.
`keepsActive_iff` says when the clean-ups of a run forget only processes without a recent event.
-/

namespace Innerwarden.Killchain

open StateMachine List Option

/-- `TimeDelta::num_seconds`: whole seconds, cut towards zero. -/
def numSeconds (d : Int) : Int := d.tdiv 1000000000

def PidChainState.isStale (state : PidChainState) (now : DateTime) (timeoutSecs : Int) : Bool :=
  decide (numSeconds (now - state.lastSeen) > timeoutSecs)

/-- `cleanup_stale`, at a reading of the clock. -/
def cleanupStale (timeoutSecs : Int) (tracker : PidTracker) (now : DateTime) : PidTracker :=
  fun p => (tracker p).filter fun state => !state.isStale now timeoutSecs

/-- What is done with a tracker. -/
inductive TrackerOp where
  | event (event : Json × DateTime)
  | cleanup (now : DateTime)

section Session

variable (crates : ChainCrates) (cfg : TrackerConfig) (timeoutSecs : Int)

def sessionMachine : StateMachine PidTracker TrackerOp (List ChainIncident) where
  init := fun _ => none
  step tracker
    | .event event => processEvent cfg crates tracker event
    | .cleanup now => (cleanupStale timeoutSecs tracker now, [])

def sessionAfter (ops : List TrackerOp) : PidTracker :=
  (sessionMachine crates cfg timeoutSecs).exec (sessionMachine crates cfg timeoutSecs).init ops

/-- The operation is an event that sets a flag of the process, with this timestamp. -/
def Contributes (p : UInt32) (ts : DateTime) (op : TrackerOp) : Prop :=
  ∃ event context, op = .event event ∧ readEvent crates cfg event.1 event.2 = some context ∧
    context.pid = p ∧ context.ts = ts

/-- An event of the process with this timestamp has been processed, and the process has been
known ever since. -/
def SeenSince (ops : List TrackerOp) (p : UInt32) (ts : DateTime) : Prop :=
  ∃ before op after, ops = before ++ op :: after ∧ Contributes crates cfg p ts op ∧
    ∀ part, part <+: after →
      (sessionAfter crates cfg timeoutSecs (before ++ op :: part) p).isSome = true

/-- A clean-up forgets a process only if no event of it since it became known has a timestamp
within the timeout. -/
def KeepsActive (ops : List TrackerOp) : Prop :=
  ∀ pre now post, ops = pre ++ .cleanup now :: post →
    ∀ p, (sessionAfter crates cfg timeoutSecs pre p).isSome = true →
      sessionAfter crates cfg timeoutSecs (pre ++ [.cleanup now]) p = none →
      ∀ ts, SeenSince crates cfg timeoutSecs pre p ts → ts < now - seconds timeoutSecs

/-- At every clean-up, a process that is stale by its last event has no event within the
timeout. -/
def StaleThroughout (ops : List TrackerOp) : Prop :=
  ∀ pre now post, ops = pre ++ .cleanup now :: post →
    ∀ p state, sessionAfter crates cfg timeoutSecs pre p = some state →
      state.isStale now timeoutSecs = true →
      ∀ e ∈ state.events, e.ts < now - seconds timeoutSecs

variable {crates cfg timeoutSecs}

/-! ## The events of a process -/

theorem sessionAfter_concat (ops : List TrackerOp) (op : TrackerOp) :
    sessionAfter crates cfg timeoutSecs (ops ++ [op]) =
      ((sessionMachine crates cfg timeoutSecs).step
        (sessionAfter crates cfg timeoutSecs ops) op).1 := by
  rw [sessionAfter, exec_append]
  rfl

theorem seenSince_concat {ops : List TrackerOp} {op : TrackerOp} {p : UInt32} {ts : DateTime} :
    SeenSince crates cfg timeoutSecs (ops ++ [op]) p ts ↔
      (SeenSince crates cfg timeoutSecs ops p ts ∨ Contributes crates cfg p ts op) ∧
        (sessionAfter crates cfg timeoutSecs (ops ++ [op]) p).isSome = true := by
  constructor
  · rintro ⟨before, op', after, hsplit, hcontributes, hknown⟩
    refine ⟨?_, by rw [hsplit]; exact hknown after prefix_rfl⟩
    rcases concat_split hsplit with ⟨rfl, rfl⟩ | ⟨rest, rfl, rfl⟩
    · exact .inr hcontributes
    · refine .inl ⟨before, op', rest, rfl, hcontributes, fun part hpart => hknown part ?_⟩
      exact hpart.trans (prefix_append _ _)
  · rintro ⟨⟨before, op', after, rfl, hcontributes, hknown⟩ | hcontributes, hsome⟩
    · refine ⟨before, op', after ++ [op], by rw [append_assoc, cons_append], hcontributes,
        fun part hpart => ?_⟩
      rcases prefix_concat_iff.mp hpart with rfl | hpart
      · rw [append_assoc, cons_append] at hsome
        exact hsome
      · exact hknown part hpart
    · refine ⟨ops, op, [], rfl, hcontributes, fun part hpart => ?_⟩
      rw [prefix_nil.mp hpart]
      exact hsome

theorem events_mergeEvent (context : ChainContext) (previous : Option PidChainState) :
    (mergeEvent context previous).events =
      (previous.map PidChainState.events).getD [] ++
        [⟨context.ts, context.kind, context.details, context.flag⟩] := by
  cases previous <;> simp only [mergeEvent] <;> split <;> rfl

theorem exists_processEvent (tracker : PidTracker) {event : Json × DateTime}
    {context : ChainContext} (hread : readEvent crates cfg event.1 event.2 = some context) :
    ∃ state, (processEvent cfg crates tracker event).1 context.pid = some state ∧
      state.core = (mergeEvent context (tracker context.pid)).core :=
  ⟨_, (processEvent_of_read tracker hread rfl).1, (checkPatterns_frame cfg context _ _).1⟩

variable {tracker : PidTracker}

theorem cleanupStale_eq_none_iff {now : DateTime} {p : UInt32} {state : PidChainState}
    (h : tracker p = some state) :
    cleanupStale timeoutSecs tracker now p = none ↔ state.isStale now timeoutSecs = true := by
  rw [cleanupStale, h]
  cases hstale : state.isStale now timeoutSecs <;> simp [Option.filter, hstale]

theorem cleanupStale_eq_some {now : DateTime} {p : UInt32} {state : PidChainState}
    (h : cleanupStale timeoutSecs tracker now p = some state) :
    tracker p = some state := (filter_eq_some_iff.mp h).1

theorem seen_cleanup (now : DateTime) (p : UInt32) (ts : DateTime) :
    ((∃ state, tracker p = some state ∧ ts ∈ state.events.map ChainEvent.ts) ∨
        Contributes crates cfg p ts (.cleanup now)) ∧
        (cleanupStale timeoutSecs tracker now p).isSome = true ↔
      ∃ state, cleanupStale timeoutSecs tracker now p = some state ∧
        ts ∈ state.events.map ChainEvent.ts := by
  constructor
  · rintro ⟨⟨state, hstate, hts⟩ | ⟨event, context, hop, -⟩, hsome⟩
    · obtain ⟨state', hstate'⟩ := isSome_iff_exists.mp hsome
      have hsame := cleanupStale_eq_some hstate'
      rw [hstate] at hsame
      cases hsame
      exact ⟨state, hstate', hts⟩
    · cases hop
  · rintro ⟨state, hstate, hts⟩
    exact ⟨.inl ⟨state, cleanupStale_eq_some hstate, hts⟩, by rw [hstate]; rfl⟩

/-- An event adds its timestamp to those of its process. -/
theorem seen_event (event : Json × DateTime) (p : UInt32) (ts : DateTime) :
    ((∃ state, tracker p = some state ∧ ts ∈ state.events.map ChainEvent.ts) ∨
        Contributes crates cfg p ts (.event event)) ∧
        ((processEvent cfg crates tracker event).1 p).isSome = true ↔
      ∃ state, (processEvent cfg crates tracker event).1 p = some state ∧
        ts ∈ state.events.map ChainEvent.ts := by
  rcases contributed_cases crates cfg p event with ⟨-, hother⟩ | ⟨context, hread, rfl, -⟩
  · rw [(processEvent_of_other tracker hother).1]
    constructor
    · rintro ⟨h | ⟨event', context, hop, hread, hpid, -⟩, -⟩
      · exact h
      · cases hop
        exact absurd hpid (hother context hread)
    · rintro ⟨state, hstate, hts⟩
      exact ⟨.inl ⟨state, hstate, hts⟩, by rw [hstate]; rfl⟩
  · obtain ⟨state, hstate, hcore⟩ := exists_processEvent tracker hread
    obtain ⟨-, -, -, -, -, hevents, -⟩ := PidChainState.mk.inj hcore
    rw [events_mergeEvent] at hevents
    have hcontributes : Contributes crates cfg context.pid ts (.event event) ↔ context.ts = ts := by
      constructor
      · rintro ⟨event', context', hop, hread', -, rfl⟩
        cases hop
        rw [hread] at hread'
        cases hread'
        rfl
      · rintro rfl
        exact ⟨event, context, rfl, hread, rfl, rfl⟩
    have hold : (∃ state, tracker context.pid = some state ∧ ts ∈ state.events.map ChainEvent.ts) ↔
        ts ∈ ((tracker context.pid).map PidChainState.events |>.getD []).map ChainEvent.ts := by
      cases tracker context.pid <;> simp
    rw [hstate, hold, hcontributes]
    simp [hevents]

/-- The events in the state of a process are those since it became known. -/
theorem seenSince_iff (ops : List TrackerOp) (p : UInt32) (ts : DateTime) :
    SeenSince crates cfg timeoutSecs ops p ts ↔
      ∃ state, sessionAfter crates cfg timeoutSecs ops p = some state ∧
        ts ∈ state.events.map ChainEvent.ts := by
  induction ops using List.reverseRecOn with
  | nil =>
    refine iff_of_false ?_ ?_
    · rintro ⟨before, op, after, hsplit, -⟩
      simp at hsplit
    · rintro ⟨state, hstate, -⟩
      cases hstate
  | append_singleton ops op ih =>
    rw [seenSince_concat, ih, sessionAfter_concat]
    cases op with
    | cleanup now => exact seen_cleanup now p ts
    | event event => exact seen_event event p ts

theorem keepsActive_of_staleThroughout {ops : List TrackerOp}
    (h : StaleThroughout crates cfg timeoutSecs ops) : KeepsActive crates cfg timeoutSecs ops := by
  intro pre now post hsplit p _ hforgotten ts hseen
  obtain ⟨state, hstate, hts⟩ := (seenSince_iff pre p ts).mp hseen
  obtain ⟨e, he, rfl⟩ := mem_map.mp hts
  rw [sessionAfter_concat] at hforgotten
  exact h pre now post hsplit p state hstate ((cleanupStale_eq_none_iff hstate).mp hforgotten) e he

end Session

/-- The clean-ups of a run forget no active process exactly when no process is stale by its
last event while it has an earlier one within the timeout. -/
theorem keepsActive_iff (crates : ChainCrates) (cfg : TrackerConfig) (timeoutSecs : Int)
    (ops : List TrackerOp) :
    KeepsActive crates cfg timeoutSecs ops ↔ StaleThroughout crates cfg timeoutSecs ops := by
  constructor
  · intro h pre now post hsplit p state hstate hstale e he
    refine h pre now post hsplit p (by rw [hstate]; rfl) ?_ e.ts ?_
    · rw [sessionAfter_concat]
      exact (cleanupStale_eq_none_iff hstate).mpr hstale
    · exact (seenSince_iff pre p e.ts).mpr ⟨state, hstate, mem_map_of_mem he⟩
  · exact keepsActive_of_staleThroughout

def timedConnect (ts : String) : TrackerOp :=
  .event (.obj [("kind", .str "network.outbound_connect"), ("ts", .str ts),
    ("details", .obj [("pid", .int 7)])], 0)

/-- A connect at one o'clock, then one that was delayed for an hour. -/
def lateConnect : List TrackerOp :=
  [timedConnect "2026-05-02T01:00:00Z", timedConnect "2026-05-02T00:00:00Z"]

/-- A second after one o'clock the process is forgotten, with a timeout of five minutes. -/
theorem late_event_forgets_process :
    ¬ KeepsActive sampleCrates ⟨.finite (3 / 5), []⟩ 300
      (lateConnect ++ [.cleanup (seconds 1777683601)]) := by
  intro h
  have hknown : (sessionAfter sampleCrates ⟨.finite (3 / 5), []⟩ 300 lateConnect 7).any
      (fun state => state.events.any fun e => e.ts = seconds 1777683600) = true := by
    decide +kernel
  have hforgotten : (sessionAfter sampleCrates ⟨.finite (3 / 5), []⟩ 300
      (lateConnect ++ [.cleanup (seconds 1777683601)]) 7).isNone = true := by
    decide +kernel
  obtain ⟨state, hstate, hevents⟩ := (any_eq_true _ _).mp hknown
  obtain ⟨e, he, hts⟩ := any_eq_true.mp hevents
  have hseen :
      SeenSince sampleCrates ⟨.finite (3 / 5), []⟩ 300 lateConnect 7 (seconds 1777683600) :=
    (seenSince_iff _ _ _).mpr ⟨state, hstate, of_decide_eq_true hts ▸ mem_map_of_mem he⟩
  exact absurd (h lateConnect _ [] rfl 7 (by rw [hstate]; rfl)
    (isNone_iff_eq_none.mp hforgotten) _ hseen) (by decide)

/-- A clean-up, or an event that is not one of another process. -/
def concerns (p : UInt32) : TrackerOp → Bool
  | .event event => notOfOther p event
  | .cleanup _ => true

/-- What is known and reported of a process does not depend on the events of the others, also
where states expire between them. -/
theorem session_independent (crates : ChainCrates) (cfg : TrackerConfig) (timeoutSecs : Int)
    (p : UInt32) (ops : List TrackerOp) :
    let M := sessionMachine crates cfg timeoutSecs
    (M.trace M.init ops).flatMap (incidentsOf p) =
        (M.trace M.init (ops.filter (concerns p))).flatMap (incidentsOf p) ∧
      sessionAfter crates cfg timeoutSecs ops p =
        sessionAfter crates cfg timeoutSecs (ops.filter (concerns p)) p := by
  intro M
  refine And.symm (exec_trace_filter (M := M) (R := fun s s' => s p = s' p)
    (fun s s' op h _ => ?_) (fun s s' op h hop => ?_) ops rfl)
  · cases op with
    | event event => exact processEvent_congr h event
    | cleanup now => exact ⟨congrArg (Option.filter _) h, rfl⟩
  · cases op with
    | event event => exact processEvent_of_not_notOfOther h hop
    | cleanup now => cases hop

end Innerwarden.Killchain

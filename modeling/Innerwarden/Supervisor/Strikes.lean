import Innerwarden.Supervisor.Killing

/-!
# Failed probes of one process

The failures in a row that `HealthChecker` counts are not set back when the agent is restarted.
`watch` runs the supervisor beside a count of the failed probes since the agent was last spawned
or last answered, and gives that count where SIGKILL is sent.

`three_strikes`: the count is at least three at each SIGKILL if no restart finds a failure
counted.
-/

namespace Innerwarden.Supervisor

open StateMachine List

/-- The event is a spawn, as a test. -/
def Event.isSpawn : Event → Bool
  | .spawned _ => true
  | _ => false

/-- The event is a SIGKILL. -/
def Event.isKill : Event → Bool
  | .killed _ => true
  | _ => false

/-- What was logged from one state to a later one. -/
def State.since (s later : State) : List Event := later.log.drop s.log.length

/-- A supervisor and the failed probes of the process that runs. -/
structure Watched where
  state : State
  strikes : Nat

/-- The count behind a turn, and where the turn sends SIGKILL. -/
def Watched.count (healthInterval : Int) (w : Watched) (t : Turn) : Nat × Option Nat :=
  let settled := w.state.settle t
  let strikes := if (w.state.since settled).any Event.isSpawn then 0 else w.strikes
  let strikes :=
    if settled.status ≠ .halted ∧ healthInterval ≤ settled.now + t.beforeProbe - settled.lastHealth
    then if t.answered then 0 else strikes + 1
    else strikes
  (strikes,
    if (settled.since (w.state.turn healthInterval t)).any Event.isKill then some strikes else none)

/-- No restart finds a failure counted. -/
def Recovered (w : Watched) : Op → Prop
  | .turn t => w.state.Respawns t → w.state.health.consecutiveFailures = 0
  | _ => True

variable (agentBinary : String) (maxRestartsPerHour : Nat) (healthInterval bootedAt : Int)

/-- The supervisor, with the count where SIGKILL is sent as its output. -/
def watch : StateMachine Watched Op (Option Nat) where
  init := ⟨(machine agentBinary maxRestartsPerHour healthInterval bootedAt).init, 0⟩
  step w op :=
    let counted := match w.state.status, op with
      | .running, .turn t => w.count healthInterval t
      | _, _ => (w.strikes, none)
    (⟨((machine agentBinary maxRestartsPerHour healthInterval bootedAt).step w.state op).1,
      counted.1⟩, counted.2)

/-- The count is that of the health checker. -/
structure InStep (w : Watched) : Prop where
  max : w.state.health.maxFailures = 3
  strikes : w.strikes = w.state.health.consecutiveFailures

theorem since_append {s later : State} {done : List Event} (h : later.log = s.log ++ done) :
    s.since later = done := by rw [State.since, h, drop_left]

theorem InStep.turn {w : Watched} (h : InStep w) (hrun : w.state.status = .running) {t : Turn}
    (hrec : Recovered w (.turn t)) :
    InStep ⟨w.state.turn healthInterval t, (w.count healthInterval t).1⟩ ∧
      ∀ n ∈ (w.count healthInterval t).2, 3 ≤ n := by
  have hsettled := State.settled_settle (t := t) hrun
  have hhealth := hsettled.health
  have hrespawns : (w.state.since (w.state.settle t)).any Event.isSpawn = true →
      w.state.Respawns t := by
    obtain ⟨done, hlog, hquiet⟩ := hsettled.quiet
    rw [since_append hlog, any_eq_true]
    rintro ⟨e, he, hspawn⟩
    cases e with
    | spawned pid => exact (hquiet pid).2 he
    | _ => cases hspawn
  have hstrikes : (if (w.state.since (w.state.settle t)).any Event.isSpawn then 0 else w.strikes) =
      (w.state.settle t).health.consecutiveFailures := by
    rw [hhealth, ← h.strikes]
    split
    case isTrue hspawn => rw [h.strikes, hrec (hrespawns hspawn)]
    case isFalse => rfl
  have hmax : (w.state.settle t).health.maxFailures = 3 := by rw [hhealth, h.max]
  simp only [Watched.count, State.turn_eq, hstrikes]
  generalize w.state.settle t = s at *
  have hquiet : ∀ n ∈ (if (s.since s).any Event.isKill then
      some s.health.consecutiveFailures else none), 3 ≤ n := by
    simp [since_append (append_nil s.log).symm]
  by_cases hhalted : s.status = .halted
  · simp only [hhalted, ne_eq, not_true_eq_false, false_and, if_false, if_true]
    exact ⟨⟨hmax, rfl⟩, hquiet⟩
  · simp only [hhalted, ne_eq, not_false_eq_true, true_and, if_false]
    rw [State.probe]
    split
    case isFalse => exact ⟨⟨hmax, rfl⟩, hquiet⟩
    case isTrue =>
      cases t.answered with
      | true =>
        refine ⟨⟨hmax, rfl⟩, fun n hn => ?_⟩
        rw [since_append rfl] at hn
        cases hn
      | false =>
        refine ⟨⟨hmax, rfl⟩, fun n hn => ?_⟩
        rw [since_append rfl] at hn
        obtain ⟨hkill, hsome⟩ := Option.ite_none_right_eq_some.1 hn
        cases hsome
        show 3 ≤ s.health.consecutiveFailures + 1
        by_contra hfew
        simp [HealthChecker.check, hmax, hfew] at hkill

theorem health_step {s : State} {op : Op} (h : ∀ t, op = .turn t → s.status ≠ .running) :
    ((machine agentBinary maxRestartsPerHour healthInterval bootedAt).step s op).1.health =
      s.health := by
  simp only [machine]
  split
  next hook launch took _ =>
    unfold State.start
    split
    · rfl
    · split <;> rfl
  next t hrun => exact absurd hrun (h t rfl)
  next => rfl
  next => rfl

theorem InStep.step {w : Watched} (h : InStep w) {op : Op} (hrec : Recovered w op) :
    InStep ((watch agentBinary maxRestartsPerHour healthInterval bootedAt).step w op).1 ∧
      ∀ n ∈ ((watch agentBinary maxRestartsPerHour healthInterval bootedAt).step w op).2,
        3 ≤ n := by
  by_cases hturn : w.state.status = .running ∧ ∃ t, op = .turn t
  · obtain ⟨hrun, t, rfl⟩ := hturn
    simpa only [watch, machine, hrun] using h.turn healthInterval hrun hrec
  · have hhealth := health_step agentBinary maxRestartsPerHour healthInterval bootedAt
      fun t ht hrun => hturn ⟨hrun, t, ht⟩
    simp only [watch]
    split
    next t hrun => exact absurd ⟨hrun, t, rfl⟩ hturn
    next => exact ⟨⟨by rw [hhealth, h.max], by rw [hhealth, h.strikes]⟩, by simp⟩

/-- In every run in which no restart finds a failure counted, each SIGKILL comes after three
failed probes of the process. -/
theorem three_strikes (ops : List Op) :
    let M := watch agentBinary maxRestartsPerHour healthInterval bootedAt
    M.Meets Recovered M.init ops → ∀ n, some n ∈ M.trace M.init ops → 3 ≤ n := by
  intro M hmeets
  have hinv : InStep (M.exec M.init ops) ∧ ∀ n, some n ∈ [] ++ M.trace M.init ops → 3 ≤ n := by
    refine exec_trace_invariant_of_meets (G := Recovered)
      (P := fun w tr => InStep w ∧ ∀ n, some n ∈ tr → 3 ≤ n) ?_ ops ⟨⟨rfl, rfl⟩, by simp⟩ hmeets
    rintro w tr op ⟨h, htr⟩ hrec
    have hstep := h.step agentBinary maxRestartsPerHour healthInterval bootedAt hrec
    refine ⟨hstep.1, fun n hn => ?_⟩
    rcases mem_append.1 hn with hn | hn
    · exact htr n hn
    · exact hstep.2 n (mem_singleton.1 hn).symm
  simpa using hinv.2

theorem three_strikes_first :
    let M := watch "agent" 10 0 0
    let ops := .start none ⟨none, .ok 7⟩ 0 :: replicate 3 (.turn (silentTurn .running none))
    some 3 ∈ M.trace M.init ops ∧ ∀ n, some n ∈ M.trace M.init ops → 3 ≤ n :=
  ⟨by decide, three_strikes _ _ _ _ _ ⟨trivial, fun _ => rfl, fun h => absurd h.1 (by decide),
    fun h => absurd h.1 (by decide), trivial⟩⟩

/-- Three probes fail and the agent is killed.  The process that replaces it is killed after
its first. -/
theorem strikes_of_restarted :
    let M := watch "agent" 10 0 0
    M.trace M.init (.start none ⟨none, .ok 7⟩ 0 :: replicate 3 (.turn (silentTurn .running none)) ++
      [.turn (silentTurn .exited none)]) = [none, none, none, some 3, some 1] := by
  decide

end Innerwarden.Supervisor

import Innerwarden.Supervisor.Loop

/-!
# The processes a run kills

`Supervisor::run` sends SIGKILL to the process the monitor remembers, also after its child has
been waited for, when the hook refuses the restart or the restart fails.  The identifier may
belong to any process by then.

`Settled` says what a turn has done when it comes to its probe.  `killsOwn_iff_spares`: the
supervisor kills only its own children exactly if every turn spares the others.
-/

namespace Innerwarden.Supervisor

open StateMachine Text List Monitor

/-- The process was spawned, and its child has not been waited for since. -/
def Live (pid : Nat) (log : List Event) : Prop :=
  ∃ before since, log = before ++ .spawned pid :: since ∧ Event.reaped pid ∉ since

/-- Every process that was killed was live. -/
def KillsOwn (log : List Event) : Prop :=
  ∀ pre pid post, log = pre ++ .killed pid :: post → Live pid pre

/-! ## The log -/

variable {log done : List Event} {pid : Nat}

theorem live_spawned (log : List Event) {since : List Event} (h : Event.reaped pid ∉ since) :
    Live pid (log ++ .spawned pid :: since) := ⟨log, since, rfl, h⟩

theorem live_append (h : Event.spawned pid ∉ done) :
    Live pid (log ++ done) ↔ Live pid log ∧ Event.reaped pid ∉ done := by
  constructor
  · rintro ⟨before, since, hsplit, hsince⟩
    rcases append_split hsplit with ⟨rest, hold, rfl⟩ | ⟨grown, -, hnew⟩
    · rw [mem_append, not_or] at hsince
      exact ⟨⟨before, rest, hold, hsince.1⟩, hsince.2⟩
    · exact absurd (by simp [hnew]) h
  · rintro ⟨⟨before, since, rfl, hsince⟩, hdone⟩
    refine ⟨before, since ++ done, by simp, ?_⟩
    rw [mem_append, not_or]
    exact ⟨hsince, hdone⟩

theorem KillsOwn.of_append (h : KillsOwn (log ++ done)) : KillsOwn log := by
  intro pre pid post hsplit
  exact h pre pid (post ++ done) (by simp [hsplit])

theorem killsOwn_append (h : ∀ pid, Event.killed pid ∉ done) :
    KillsOwn (log ++ done) ↔ KillsOwn log := by
  refine ⟨KillsOwn.of_append, fun hlog pre pid post hsplit => ?_⟩
  rcases append_split hsplit with ⟨rest, hold, -⟩ | ⟨grown, -, hnew⟩
  · exact hlog pre pid rest hold
  · exact absurd (by simp [hnew]) (h pid)

theorem killsOwn_killed : KillsOwn (log ++ [.killed pid]) ↔ KillsOwn log ∧ Live pid log := by
  constructor
  · exact fun h => ⟨h.of_append, h log pid [] rfl⟩
  · rintro ⟨hlog, hlive⟩ pre pid' post hsplit
    rcases concat_split hsplit with ⟨rfl, heq⟩ | ⟨rest, hold, -⟩
    · cases heq
      exact hlive
    · exact hlog pre pid' rest hold

/-! ## A turn up to its probe -/

namespace State

variable (s : State) (t : Turn)

/-- The state when the turn comes to its probe. -/
def settle : State := if s.finds t then s.poll t else (s.poll t).revive t

theorem turn_eq (healthInterval : Int) : s.turn healthInterval t =
    if (s.settle t).status = .halted then s.settle t else (s.settle t).probe healthInterval t := rfl

/-- The loop halts in the turn. -/
def Halts : Prop :=
  s.finds t = false ∧
    ((∃ message, t.hook = some message ∧ contains message "TAMPERED" = true) ∨
      t.hook = none ∧ s.respawn t = none ∧ contains (s.failure t) "rate limit" = true)

/-- The agent is restarted in the turn. -/
def Respawns : Prop := s.finds t = false ∧ t.hook = none ∧ s.respawn t ≠ none

/-- The process is waited for in the turn. -/
def Reaps (pid : Nat) : Prop :=
  s.monitor.agentChild = some pid ∧
    (t.tryWait = .exited ∨ t.tryWait = .failed ∧ t.hook = none ∧ t.waited = true)

/-- The clock when the turn has settled: only a restart takes time. -/
def settledAt : Int := if s.finds t = false ∧ t.hook = none then s.pushAt t else s.now

/-- With the clock at `clock` the probe of the turn is due and fails once too often. -/
def Condemns (healthInterval clock : Int) : Prop :=
  healthInterval ≤ clock + t.beforeProbe - s.lastHealth ∧ t.answered = false ∧
    s.health.maxFailures ≤ s.health.consecutiveFailures + 1

/-- What a turn has done when it comes to its probe. -/
structure Settled (s' : State) : Prop where
  halted : s'.status = .halted ↔ s.Halts t
  clock : s'.now = s.settledAt t
  health : s'.health = s.health
  lastHealth : s'.lastHealth = s.lastHealth
  /-- It kills nothing, and spawns only in a restart. -/
  quiet : ∃ done, s'.log = s.log ++ done ∧ ∀ pid, Event.killed pid ∉ done ∧
    (Event.spawned pid ∈ done → s.Respawns t)
  /-- The process it remembers is live. -/
  live : (∀ pid, s'.monitor.agentPid = some pid → Live pid s'.log) ↔
    s.Respawns t ∨ ∀ pid, s.monitor.agentPid = some pid → Live pid s.log ∧ ¬ s.Reaps t pid

/-- The state a poll leaves. -/
def polledTo (s : State) (child : Option Nat) (done : List Event) : State :=
  { s with monitor := { s.monitor with agentChild := child }, log := s.log ++ done }

/-- A poll waits for a child that has exited.  One it cannot ask may be waited for later. -/
theorem poll_result : ∃ child done, s.poll t = s.polledTo child done ∧
    (∀ pid, Event.killed pid ∉ done ∧ Event.spawned pid ∉ done) ∧
    ∀ pid, s.Reaps t pid ↔ Event.reaped pid ∈ done ∨
      s.finds t = false ∧ t.hook = none ∧ child = some pid ∧ t.waited = true := by
  have hstays : s.polledTo s.monitor.agentChild [] = s := by simp [polledTo]
  cases hchild : s.monitor.agentChild with
  | none =>
    refine ⟨s.monitor.agentChild, [], ?_, by simp, by simp [Reaps, hchild]⟩
    rw [hstays]
    simp [poll, Monitor.isAlive, hchild]
  | some pid =>
    cases hwait : t.tryWait with
    | exited =>
      refine ⟨none, [.reaped pid], ?_, by simp, fun pid' => ?_⟩
      · simp [poll, polledTo, Monitor.isAlive, hchild, hwait]
      · simpa [Reaps, hchild, hwait] using eq_comm
    | running | failed =>
      refine ⟨s.monitor.agentChild, [], ?_, by simp, ?_⟩
      · rw [hstays]
        simp [poll, Monitor.isAlive, hchild, hwait]
      · simp [Reaps, finds, Monitor.isAlive, hchild, hwait] <;> tauto

variable {s t}

theorem live_iff_of_not_respawns (hno : ¬ s.Respawns t) (done : List Event)
    (hspawn : ∀ pid, Event.spawned pid ∉ done)
    (hreaps : ∀ pid, Event.reaped pid ∈ done ↔ s.Reaps t pid) :
    (∀ pid, s.monitor.agentPid = some pid → Live pid (s.log ++ done)) ↔
      s.Respawns t ∨ ∀ pid, s.monitor.agentPid = some pid → Live pid s.log ∧ ¬ s.Reaps t pid := by
  rw [or_iff_right hno]
  refine forall_congr' fun pid => imp_congr_right fun _ => ?_
  rw [live_append (hspawn pid), hreaps]

theorem settled_revive (hrun : s.status = .running) (dead : s.finds t = false)
    (child : Option Nat) (done : List Event)
    (hdone : ∀ pid, Event.killed pid ∉ done ∧ Event.spawned pid ∉ done)
    (hreaps : ∀ pid, s.Reaps t pid ↔
      Event.reaped pid ∈ done ∨ t.hook = none ∧ child = some pid ∧ t.waited = true) :
    Settled s t ((s.polledTo child done).revive t) := by
  have hwaits (pid : Nat) : Event.reaped pid ∈ (s.polledTo child done).monitor.waitEvents t.waited ↔
      child = some pid ∧ t.waited = true := by
    rw [mem_waitEvents]
    simp [polledTo]
  have hresult := (s.polledTo child done).revive_result t
  generalize (s.polledTo child done).revive t = s' at *
  cases hresult with
  | refused message hook =>
    refine ⟨?_, ?_, rfl, rfl, ⟨done ++ [.hookRefused message], append_assoc _ _ _, ?_⟩, ?_⟩
    · simp [Halts, dead, hook, hrun, polledTo]
    · simp [settledAt, hook, polledTo]
    · simp [hdone]
    · simp only [polledTo, append_assoc]
      refine live_iff_of_not_respawns ?_ _ ?_ ?_
      · simp [Respawns, hook]
      · simp [hdone]
      · simp [hreaps, hook]
  | failed hook unable checks hchecks =>
    have hunable : s.respawn t = none := unable
    have hplain : ∀ e, e ≠ .symlinkPassed → e ∉ checks := fun e hne hmem => hne (hchecks e hmem)
    refine ⟨?_, ?_, rfl, rfl, ⟨_, append_assoc _ _ _, ?_⟩, ?_⟩
    · have hhalts : s.Halts t ↔ contains (s.failure t) "rate limit" = true := by
        simp [Halts, dead, hook, hunable]
      rw [hhalts]
      show (if contains (s.failure t) "rate limit" then Status.halted else s.status) = _ ↔ _
      split <;> simp [*]
    · exact (if_pos ⟨dead, hook⟩).symm
    · simp [hdone, hplain, mem_waitEvents]
    · have hno : ¬ s.Respawns t := fun hrespawns => hrespawns.2.2 hunable
      have hlive := live_iff_of_not_respawns hno
        (done ++ (.hookAllowed :: ((s.polledTo child done).monitor.waitEvents t.waited ++
          checks) ++ [.launchFailed (s.failure t)]))
        (by simp [hdone, hplain, mem_waitEvents]) (by simp [hreaps, hook, hplain, hwaits])
      rw [← append_assoc] at hlive
      exact hlive
  | spawned hook pid able room =>
    have hable : s.respawn t = some pid := able
    have hrespawns : s.Respawns t := ⟨dead, hook, by simp [hable]⟩
    refine ⟨?_, ?_, rfl, rfl, ⟨_, append_assoc _ _ _, ?_⟩, ?_⟩
    · simp [Halts, hook, hable, hrun, polledTo]
    · exact (if_pos ⟨dead, hook⟩).symm
    · simp [hdone, mem_waitEvents, hrespawns]
    · refine iff_of_true ?_ (Or.inl hrespawns)
      intro pid' hpid
      cases hpid
      have hlive := live_spawned ((s.polledTo child done).log ++ .hookAllowed ::
        ((s.polledTo child done).monitor.waitEvents t.waited ++ [.symlinkPassed]))
        (show Event.reaped pid ∉ [.restarted pid ((s.polledTo child done).pushAt t)] by simp)
      simpa using hlive

theorem settled_settle (hrun : s.status = .running) : Settled s t (s.settle t) := by
  obtain ⟨child, done, hpoll, hdone, hreaps⟩ := s.poll_result t
  rw [settle, hpoll]
  cases halive : s.finds t with
  | true =>
    rw [if_pos rfl]
    refine ⟨?_, ?_, rfl, rfl, ⟨done, rfl, fun pid => ?_⟩, ?_⟩
    · simp [Halts, halive, hrun, polledTo]
    · simp [settledAt, halive, polledTo]
    · simp [hdone]
    · have hno : ¬ s.Respawns t := by simp [Respawns, halive]
      exact live_iff_of_not_respawns hno done (fun pid => (hdone pid).2) (by simp [hreaps, halive])
  | false =>
    rw [if_neg Bool.false_ne_true]
    exact settled_revive hrun halive child done hdone (by simpa [halive] using hreaps)

/-! ## Turns and runs -/

theorem killsOwn_probe (s : State) (t : Turn) (healthInterval : Int) :
    KillsOwn (s.probe healthInterval t).log ↔
      KillsOwn s.log ∧ (s.Condemns t healthInterval s.now →
        ∀ pid, s.monitor.agentPid = some pid → Live pid s.log) := by
  rw [probe]
  by_cases hdue : healthInterval ≤ s.now + t.beforeProbe - s.lastHealth
  · have hcheck : (s.health.check t.answered).2 = true ↔ s.Condemns t healthInterval s.now := by
      cases hanswered : t.answered <;> simp [HealthChecker.check, Condemns, hdue, hanswered]
    rw [if_pos hdue]
    cases hfailed : (s.health.check t.answered).2 with
    | false =>
      have hno : ¬ s.Condemns t healthInterval s.now := by simp [← hcheck, hfailed]
      simp only [hfailed, append_nil]
      exact ⟨fun h => ⟨h, fun hcondemns => absurd hcondemns hno⟩, And.left⟩
    | true =>
      have hcondemns := hcheck.mp hfailed
      cases hpid : s.monitor.agentPid with
      | none => simp
      | some pid =>
        simp only [hfailed, killsOwn_killed, Option.some.injEq, forall_eq']
        exact and_congr_right fun _ => ⟨fun hlive _ => hlive, fun hlive => hlive hcondemns⟩
  · rw [if_neg hdue]
    exact ⟨fun h => ⟨h, fun hcondemns => absurd hcondemns.1 hdue⟩, And.left⟩

end State

/-- The turn kills nothing but a live child: the probe is not due or does not fail once too often,
or the loop halts, or the agent is restarted, or it is live and not waited for. -/
def Spares (healthInterval : Int) (s : State) : Op → Prop
  | .turn t =>
    s.status = .running → s.Condemns t healthInterval (s.settledAt t) →
      s.Halts t ∨ s.Respawns t ∨
        ∀ pid, s.monitor.agentPid = some pid → Live pid s.log ∧ ¬ s.Reaps t pid
  | _ => True

theorem killsOwn_turn {s : State} (hrun : s.status = .running) (t : Turn) (healthInterval : Int) :
    KillsOwn (s.turn healthInterval t).log ↔
      KillsOwn s.log ∧ Spares healthInterval s (.turn t) := by
  have hsettled := State.settled_settle (t := t) hrun
  obtain ⟨done, hlog, hquiet⟩ := hsettled.quiet
  have hkept : KillsOwn (s.settle t).log ↔ KillsOwn s.log := by
    rw [hlog]
    exact killsOwn_append fun pid => (hquiet pid).1
  have hcondemns : (s.settle t).Condemns t healthInterval (s.settle t).now ↔
      s.Condemns t healthInterval (s.settledAt t) := by
    rw [State.Condemns, State.Condemns, hsettled.clock, hsettled.health, hsettled.lastHealth]
  rw [s.turn_eq]
  by_cases hhalts : s.Halts t
  · rw [if_pos (hsettled.halted.mpr hhalts), hkept]
    exact ⟨fun h => ⟨h, fun _ _ => Or.inl hhalts⟩, And.left⟩
  · rw [if_neg (mt hsettled.halted.mp hhalts), State.killsOwn_probe, hkept, hcondemns,
      hsettled.live]
    refine and_congr_right fun _ => ?_
    simp only [Spares, hrun, forall_const, or_iff_right hhalts]

theorem killsOwn_start (s : State) (hook : Option String) (launch : Launch) (took : Nat) :
    KillsOwn (s.start hook launch took).log ↔ KillsOwn s.log := by
  cases hook with
  | some message => exact killsOwn_append (by simp)
  | none =>
    simp only [State.start, Monitor.spawnAgent]
    cases launch.symlink with
    | some message => exact killsOwn_append (by simp)
    | none =>
      cases launch.spawn with
      | error message | ok pid => exact killsOwn_append (by simp)

section Runs

variable (agentBinary : String) (maxRestartsPerHour : Nat) (healthInterval bootedAt : Int)

theorem killsOwn_step (s : State) (op : Op) :
    KillsOwn ((machine agentBinary maxRestartsPerHour healthInterval bootedAt).step s op).1.log ↔
      KillsOwn s.log ∧ Spares healthInterval s op := by
  cases op with
  | start hook launch took =>
    refine Iff.trans ?_ (and_iff_left trivial).symm
    cases hstatus : s.status with
    | starting =>
      simp only [machine, hstatus]
      exact killsOwn_start s hook launch took
    | running | halted => simp only [machine, hstatus]
  | turn t =>
    cases hstatus : s.status with
    | starting | halted =>
      simp only [machine, hstatus]
      exact (and_iff_left fun hrun => by rw [hstatus] at hrun; cases hrun).symm
    | running =>
      simp only [machine, hstatus]
      exact killsOwn_turn hstatus t healthInterval
  | signal =>
    refine Iff.trans ?_ (and_iff_left trivial).symm
    cases hstatus : s.status <;> simp only [machine, hstatus]

/-- In a run the supervisor kills only live children of its own exactly if every turn
spares all other processes. -/
theorem killsOwn_iff_spares (ops : List Op) :
    let M := machine agentBinary maxRestartsPerHour healthInterval bootedAt
    KillsOwn (M.exec M.init ops).log ↔ M.Meets (Spares healthInterval) M.init ops := by
  intro M
  refine (exec_iff_meets (P := fun s : State => KillsOwn s.log) (killsOwn_step _ _ _ _) ops
    _).trans (and_iff_right ?_)
  intro pre pid post hsplit
  exact absurd hsplit.symm (append_ne_nil_of_right_ne_nil _ (cons_ne_nil _ _))

end Runs

/-- A turn in which nothing answers and no time passes. -/
def silentTurn (tryWait : TryWait) (hook : Option String) : Turn where
  tryWait := tryWait
  pidAlive := false
  hook := hook
  waited := true
  launch := ⟨none, .ok 8⟩
  answered := false
  beforePrune := 0
  beforePush := 0
  beforeProbe := 0
  beforeReset := 0

/-- The child exits in the turn of its third failed probe, and the hook refuses the restart.
The supervisor kills the process it has just waited for. -/
theorem kills_reaped_child :
    let M := machine "agent" 10 0 0
    ¬ KillsOwn (M.exec M.init
      [.start none ⟨none, .ok 7⟩ 0, .turn (silentTurn .running none),
        .turn (silentTurn .running none),
        .turn (silentTurn .exited (some "hash mismatch"))]).log := by
  intro M h
  have hlive := h
    [.hookAllowed, .symlinkPassed, .spawned 7, .reaped 7, .hookRefused "hash mismatch"] 7 []
    (by decide)
  have hsplit : Live 7 ([.hookAllowed, .symlinkPassed, .spawned 7] ++
      [.reaped 7, .hookRefused "hash mismatch"]) ↔ _ := live_append (by decide)
  exact (hsplit.mp hlive).2 (by decide)

end Innerwarden.Supervisor
